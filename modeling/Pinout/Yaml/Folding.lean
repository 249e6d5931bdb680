import Pinout.Yaml.Character

/-! # Folding

A scalar in a flow of text may go on over several lines. A single line end counts as a space, and
one with empty lines behind it as just these; blanks around line ends do not count. The separators
U+2028 and U+2029 stay what they are. In double quotation marks a line end can be escaped: then it
counts as nothing.
-/

namespace Pinout.Yaml

inductive Piece where
  | text (c : Char)
  | blank (c : Char)
  | lineEnd (c : Char)
  | escapedLineEnd
deriving Repr, DecidableEq

namespace Piece

def ofChar (c : Char) : Piece :=
  if isBreak c then .lineEnd c else if isBlank c then .blank c else .text c

def isText : Piece → Bool
  | text _ => true
  | _ => false

def isLineEnd : Piece → Bool
  | lineEnd _ => true
  | _ => false

end Piece

/-- What stands between two parts of a text, as far as it counts. -/
inductive Gap where
  | blanks (cs : List Char)
  | lineEnds (first : Char) (others : List Char)
  | behindEscaped (lineEnds : List Char)
deriving Repr, DecidableEq

namespace Gap

def addBlank (c : Char) : Gap → Gap
  | blanks cs => blanks (cs ++ [c])
  | gap => gap

def addLineEnd (c : Char) : Gap → Gap
  | blanks _ => lineEnds c []
  | lineEnds first others => lineEnds first (others ++ [c])
  | behindEscaped cs => behindEscaped (cs ++ [c])

def text : Gap → List Char
  | blanks cs => cs
  | behindEscaped cs => cs
  | lineEnds first others =>
    if first != '\n' then first :: others
    else if others.isEmpty then [' ']
    else others

end Gap

def foldFrom (gap : Gap) : List Piece → List Char
  | [] => gap.text
  | .text c :: pieces => gap.text ++ c :: foldFrom (.blanks []) pieces
  | .blank c :: pieces => foldFrom (gap.addBlank c) pieces
  | .lineEnd c :: pieces => foldFrom (gap.addLineEnd c) pieces
  | .escapedLineEnd :: pieces => gap.text ++ foldFrom (.behindEscaped []) pieces

def folded (pieces : List Piece) : List Char :=
  foldFrom (.blanks []) pieces

end Pinout.Yaml
