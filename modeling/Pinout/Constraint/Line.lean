import Pinout.Text.Blank
import Std.Data.TreeMap

/-! # Constraint lines

A line `NET name LOC = "pin" …` ties a net to a chip pin. Blanks around the words are optional, so
the name of the net may run into `LOC`: of all ways to read a line, the one with the longest name
counts. What follows the closing quotation mark stays on the line.
-/

namespace Pinout.Constraint

abbrev PinMap :=
  Std.TreeMap String String

structure Located where
  /-- Up to and with the opening quotation mark. -/
  before : List Char
  pin : List Char
  /-- From the closing quotation mark on. -/
  after : List Char
deriving Repr, DecidableEq

def afterWord? (word cs : List Char) : Option (List Char) :=
  let cs := cs.dropWhile Text.isBlank
  if word.isPrefixOf cs then some (cs.drop word.length) else none

/-- Whether a text is a pin, a quotation mark, and nothing that starts another line. -/
def closesPin (cs : List Char) : Bool :=
  match cs.takeWhile (· != '"'), cs.dropWhile (· != '"') with
  | _ :: _, '"' :: rest => !rest.contains '\n'
  | _, _ => false

/-- The text from the pin on, when `LOC = "` comes next. -/
def locTail? (cs : List Char) : Option (List Char) := do
  let cs ← afterWord? ['L', 'O', 'C'] cs
  let cs ← afterWord? ['='] cs
  let cs ← afterWord? ['"'] cs
  if closesPin cs then some cs else none

/-- The text from the pin on, when the name of the net has begun and may go on. -/
def nameTail? : List Char → Option (List Char)
  | [] => none
  | c :: cs =>
    if Text.isBlank c then
      locTail? (c :: cs)
    else
      match nameTail? cs with
      | some tail => some tail
      | none => locTail? (c :: cs)

def pinTail? (cs : List Char) : Option (List Char) := do
  let cs ← afterWord? ['N', 'E', 'T'] cs
  match cs.dropWhile Text.isBlank with
  | [] => none
  | _ :: rest => nameTail? rest

def locate? (cs : List Char) : Option Located :=
  (pinTail? cs).map fun tail =>
    ⟨cs.take (cs.length - tail.length), tail.takeWhile (· != '"'), tail.dropWhile (· != '"')⟩

def locPin? (line : String) : Option String :=
  (locate? line.toList).map fun located => .ofList located.pin

/-- A line with its pin replaced through the map. Other lines, and pins the map does not know, stay
as they are. -/
def transformLine (map : PinMap) (line : String) : String :=
  match locate? line.toList with
  | none => line
  | some located =>
    match map.get? (.ofList located.pin) with
    | none => line
    | some pin => .ofList (located.before ++ pin.toList ++ located.after)

end Pinout.Constraint
