import Pinout.Yaml.Directive

/-! # Tokens

The words of a YAML text. Where block collections begin and end, and which words are keys, follows
from the indentation; tokens say it outright.
-/

namespace Pinout.Yaml

inductive ScalarForm where
  | plain
  | quoted
  | literal
  | folded
deriving Repr, DecidableEq

inductive Token where
  | directive (value : Directive)
  | documentStart
  | documentEnd
  | blockSequenceStart
  | blockMappingStart
  | blockEnd
  | flowSequenceStart
  | flowSequenceEnd
  | flowMappingStart
  | flowMappingEnd
  | blockEntry
  | flowEntry
  | key
  | value
  | anchor (name : List Char)
  /-- A node that has been given a name by an anchor. -/
  | named (name : List Char)
  | tag (text : TagText)
  | scalar (form : ScalarForm) (text : List Char)
deriving Repr, DecidableEq

end Pinout.Yaml
