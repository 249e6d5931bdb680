import Pinout.Export.Document

/-! # JSON documents

Items and fields stand on lines of their own, indented by two spaces a level; an empty list stays on
its line. In a text, quotation marks, backslashes and control characters are escaped, and all other
characters stand for themselves.
-/

namespace Pinout.Export.Json

def hexDigit (n : Nat) : Char :=
  if n < 10 then Char.ofNat (0x30 + n) else Char.ofNat (0x61 + (n - 10))

def escape (c : Char) : List Char :=
  if c = '"' then ['\\', '"']
  else if c = '\\' then ['\\', '\\']
  else if c = '\x08' then ['\\', 'b']
  else if c = '\x0c' then ['\\', 'f']
  else if c = '\n' then ['\\', 'n']
  else if c = '\r' then ['\\', 'r']
  else if c = '\t' then ['\\', 't']
  else if c.toNat < 0x20 then
    ['\\', 'u', '0', '0', hexDigit (c.toNat / 16), hexDigit (c.toNat % 16)]
  else [c]

def quote (s : String) : List Char :=
  '"' :: s.toList.flatMap escape ++ ['"']

def newline (level : Nat) : List Char :=
  '\n' :: List.replicate (2 * level) ' '

mutual

def write (level : Nat) : Document → List Char
  | .absent => ['n', 'u', 'l', 'l']
  | .truth value => if value then ['t', 'r', 'u', 'e'] else ['f', 'a', 'l', 's', 'e']
  | .text value => quote value
  | .list [] => ['[', ']']
  | .list (item :: items) =>
    '[' :: newline (level + 1) ++
      (write (level + 1) item ++ (writeItems (level + 1) items ++ (newline level ++ [']'])))
  | .record [] => ['{', '}']
  | .record ((key, value) :: fields) =>
    '{' :: newline (level + 1) ++ quote key ++ [':', ' '] ++
      (write (level + 1) value ++ (writeFields (level + 1) fields ++ (newline level ++ ['}'])))

def writeItems (level : Nat) : List Document → List Char
  | [] => []
  | item :: items => ',' :: newline level ++ (write level item ++ writeItems level items)

def writeFields (level : Nat) : List (String × Document) → List Char
  | [] => []
  | (key, value) :: fields =>
    ',' :: newline level ++ quote key ++ [':', ' '] ++
      (write level value ++ writeFields level fields)

end

def render (document : Document) : String :=
  .ofList (write 0 document ++ ['\n'])

end Pinout.Export.Json
