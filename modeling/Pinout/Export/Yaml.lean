import Pinout.Export.Document
import Pinout.Yaml.Writing

/-! # YAML documents

Lists and records are written in blocks. The items of a list in a field stand at the column of the
field; a list inside a list begins on the line of its item. Empty lists are written in brackets.
-/

namespace Pinout.Export.Yaml

def column (indent : Nat) : List Char :=
  List.replicate indent ' '

def inline? (indent : Nat) : Document → Option (List Char)
  | .absent => some ['n', 'u', 'l', 'l', '\n']
  | .truth value =>
    some (if value then ['t', 'r', 'u', 'e', '\n'] else ['f', 'a', 'l', 's', 'e', '\n'])
  | .text value => some (Pinout.Yaml.writeText indent value)
  | .list [] => some ['[', ']', '\n']
  | .record [] => some ['{', '}', '\n']
  | .list (_ :: _) => none
  | .record (_ :: _) => none

mutual

def write (indent : Nat) : Document → List Char
  | .list (item :: items) =>
    ['-', ' '] ++ write (indent + 2) item ++ writeItems indent items
  | .record ((key, value) :: fields) =>
    key.toList ++ ':' :: writeValue indent value ++ writeFields indent fields
  | document => (inline? indent document).getD []

def writeItems (indent : Nat) : List Document → List Char
  | [] => []
  | item :: items =>
    column indent ++ ['-', ' '] ++ write (indent + 2) item ++ writeItems indent items

def writeFields (indent : Nat) : List (String × Document) → List Char
  | [] => []
  | (key, value) :: fields =>
    column indent ++ key.toList ++ ':' :: writeValue indent value ++ writeFields indent fields

def writeValue (indent : Nat) : Document → List Char
  | .list (item :: items) =>
    '\n' :: column indent ++ ['-', ' '] ++ write (indent + 2) item ++ writeItems indent items
  | .record ((key, value) :: fields) =>
    '\n' :: column (indent + 2) ++ key.toList ++ ':' :: writeValue (indent + 2) value ++
      writeFields (indent + 2) fields
  | document => ' ' :: (inline? (indent + 2) document).getD []

end

def render (document : Document) : String :=
  .ofList (write 0 document)

end Pinout.Export.Yaml
