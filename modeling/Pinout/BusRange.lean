import Pinout.Text.Fields

/-! # Ranges of a bus

A run of header pins is written `A[3:0]`, in either direction; `AL` and `AH` stand for the lower and
the upper eight pins of `A`, and a bare `A` for all sixteen. Bounds are signed 64-bit words, and so
is the position of a cursor that walks the range. The walk ends on the last bound itself, so it
never steps beyond the words.
-/

namespace Pinout

structure BusRange where
  name : String
  first : Int64
  last : Int64
deriving Repr, DecidableEq

inductive BusRangeError where
  | unclosedBracket (text : String)
  | missingColon (text : String)
  | invalidBound (text : String) (bound : String)
deriving Repr, DecidableEq

namespace BusRangeError

def message : BusRangeError → String
  | unclosedBracket text => "Missing ']' in bus range `" ++ text ++ "`"
  | missingColon text => "Missing ':' in bus range `" ++ text ++ "`"
  | invalidBound text bound => "Invalid bound `" ++ bound ++ "` in bus range `" ++ text ++ "`"

end BusRangeError

namespace BusRange

def whole (name : String) : BusRange :=
  ⟨name, 0, 15⟩

/-- The number written by decimal digits, at least one. -/
def decimal? (cs : List Char) : Option Nat :=
  if !cs.isEmpty && cs.all Char.isDigit then
    some (cs.foldl (fun value c => value * 10 + (c.toNat - 0x30)) 0)
  else
    none

def bound? (cs : List Char) : Option Int64 :=
  let value? : Option Int :=
    match cs with
    | '-' :: digits => (decimal? digits).map fun value => -(value : Int)
    | '+' :: digits => (decimal? digits).map fun value => (value : Int)
    | digits => (decimal? digits).map fun value => (value : Int)
  value?.bind fun value =>
    if Int64.minValue.toInt ≤ value ∧ value ≤ Int64.maxValue.toInt then
      some (Int64.ofInt value)
    else
      none

def parseBound (text : String) (cs : List Char) : Except BusRangeError Int64 :=
  match bound? (Text.trim cs) with
  | some bound => .ok bound
  | none => .error (.invalidBound text (.ofList (Text.trim cs)))

/-- A range whose text has no bracket. The last letter chooses the half of the bus. -/
def ofBare (cs : List Char) : BusRange :=
  match cs.getLast? with
  | some 'l' | some 'L' => ⟨.ofList cs.dropLast, 0, 7⟩
  | some 'h' | some 'H' => ⟨.ofList cs.dropLast, 8, 15⟩
  | _ => whole (.ofList cs)

/-- Reads a range. What follows the closing bracket is not looked at. -/
def parse (source : String) : Except BusRangeError BusRange := do
  let cs := Text.trim source.toList
  let text := String.ofList cs
  match Text.splitOnce? '[' cs with
  | none => .ok (ofBare cs)
  | some (name, rest) =>
    match Text.splitOnce? ']' rest with
    | none => .error (.unclosedBracket text)
    | some (inner, _) =>
      match Text.splitOnce? ':' inner with
      | none => .error (.missingColon text)
      | some (first, last) => do
        let first ← parseBound text first
        let last ← parseBound text last
        .ok ⟨.ofList (Text.trim name), first, last⟩

def display (range : BusRange) : String :=
  range.name ++ "[" ++ toString range.first.toInt ++ ":" ++ toString range.last.toInt ++ "]"

instance : ToString BusRange where
  toString := display

def count (range : BusRange) : Nat :=
  (range.last.toInt - range.first.toInt).natAbs + 1

def step (range : BusRange) : Int64 :=
  if range.first ≤ range.last then 1 else -1

/-- A place in a range: the pin that comes next, unless the walk is over. -/
structure Cursor where
  range : BusRange
  position : Int64
  finished : Bool
deriving Repr, DecidableEq

def start (range : BusRange) : Cursor :=
  ⟨range, range.first, false⟩

namespace Cursor

def next? (cursor : Cursor) : Option (String × Cursor) :=
  if cursor.finished then
    none
  else
    let item := cursor.range.name ++ toString cursor.position.toInt
    if cursor.position = cursor.range.last then
      some (item, { cursor with finished := true })
    else
      some (item, { cursor with position := cursor.position + cursor.range.step })

def remaining (cursor : Cursor) : Nat :=
  if cursor.finished then
    0
  else
    (cursor.range.last.toInt - cursor.position.toInt).natAbs + 1

/-- The announced length: what is left, for ranges whose span is itself a word. -/
def announced? (cursor : Cursor) : Option Nat :=
  let span := cursor.range.last.toInt - cursor.range.first.toInt
  if Int64.minValue.toInt ≤ span ∧ span ≤ Int64.maxValue.toInt then
    some cursor.remaining
  else
    none

/-- Walks at most `limit` pins and puts their names in front of `seen`, the last one first. -/
def walk (seen : List String) : Nat → Cursor → List String × Cursor
  | 0, cursor => (seen, cursor)
  | limit + 1, cursor =>
    match cursor.next? with
    | none => (seen, cursor)
    | some (item, cursor') => walk (item :: seen) limit cursor'

def take (limit : Nat) (cursor : Cursor) : List String × Cursor :=
  let (seen, cursor') := walk [] limit cursor
  (seen.reverse, cursor')

end Cursor

def firstNames (range : BusRange) (limit : Nat) : List String :=
  (range.start.take limit).1

def names (range : BusRange) : List String :=
  range.firstNames range.count

/-- The pins of two ranges, position by position, as far as both go. -/
def pairs (a b : BusRange) : List (String × String) :=
  let limit := min a.count b.count
  (a.firstNames limit).zip (b.firstNames limit)

end BusRange

end Pinout
