import Pinout.Additions
import Pinout.Caseless

/-! # Boards

A board carries buses of header positions. Each position holds a stack of pins: at the bottom the
pin the board was defined with, which is the one wired to the chip, and above it the pins of the
wings that were plugged in. A wing is a board too; its pins carry signal names in place of chip
pins.
-/

namespace Pinout

abbrev BoardId :=
  Nat

/-- A bus, addressed by its board and its position among that board's own buses. -/
structure BusRef where
  board : BoardId
  position : Nat
deriving Repr, DecidableEq

/-- One pin: a chip pin of a board, or a signal of a wing. -/
structure Pin where
  name : Option String := none
  /-- Overrides the name of the bus in nets. -/
  aliasName : Option String := none
  additions : Additions := {}
  /-- The wing bus the pin was copied from when it was plugged in. -/
  origin : Option BusRef := none
deriving Repr, DecidableEq

/-- A header position: the pin on top and those it covers, nearest first. -/
structure Slot where
  top : Pin
  below : List Pin := []
deriving Repr, DecidableEq

namespace Slot

def bottom (slot : Slot) : Pin :=
  slot.below.getLast?.getD slot.top

def depth (slot : Slot) : Nat :=
  slot.below.length

def push (slot : Slot) (pin : Pin) : Slot :=
  ⟨pin, slot.top :: slot.below⟩

@[simp]
theorem bottom_push (slot : Slot) (pin : Pin) : (slot.push pin).bottom = slot.bottom := by
  cases h : slot.below <;> simp [bottom, push, h, List.getLast?_cons]

end Slot

structure Bus where
  name : String
  /-- Replaces the name in nets and when pins of two boards are paired. -/
  aliasName : Option String := none
  slots : List Slot := []
  additions : Additions := {}
deriving Repr, DecidableEq

namespace Bus

/-- The alias, or the name where there is no alias or an empty one. -/
def outputName (bus : Bus) : String :=
  match bus.aliasName with
  | some name => if name.isEmpty then bus.name else name
  | none => bus.name

end Bus

structure Board where
  /-- The first name is the primary one, the others are aliases. -/
  names : List String := []
  parentName : Option String := none
  buses : List Bus := []
  isWing : Bool := false
  header : Option String := none
  configs : List Assignment := []
deriving Repr, DecidableEq

def lastIndex? {α : Type} (p : α → Bool) (xs : List α) : Option Nat :=
  (xs.reverse.findIdx? p).map fun fromEnd => xs.length - 1 - fromEnd

theorem bind_findIdx? {α : Type} (p : α → Bool) (xs : List α) :
    (xs.findIdx? p).bind (xs[·]?) = xs.find? p := by
  induction xs with
  | nil => rfl
  | cons x xs ih =>
    cases h : p x with
    | true => simp [List.findIdx?_cons, h]
    | false =>
      simp only [List.findIdx?_cons, List.find?_cons, h, ← ih]
      cases xs.findIdx? p <;> rfl

/-- The element at the last position is the first one that is found from the end. -/
theorem bind_lastIndex? {α : Type} (p : α → Bool) (xs : List α) :
    (lastIndex? p xs).bind (xs[·]?) = xs.reverse.find? p := by
  rw [← bind_findIdx?, lastIndex?]
  cases h : xs.reverse.findIdx? p with
  | none => rfl
  | some fromEnd =>
    have inside := (List.findIdx?_eq_some_iff_getElem.1 h).1
    rw [List.length_reverse] at inside
    exact (List.getElem?_reverse inside).symm

namespace Board

/-- A board that has nothing but names, of which the empty ones do not count. -/
def named (names : List String) : Board :=
  { names := names.filter (!·.isEmpty) }

def primaryName (board : Board) : String :=
  board.names.headD ""

def aliases (board : Board) : List String :=
  board.names.tail

def ownBus? (board : Board) (name : String) : Option Nat :=
  let wanted := Caseless.ofString name
  lastIndex? (wanted.agrees ·.name) board.buses

def busLine (bus : Bus) : String :=
  "  \"" ++ bus.name ++ "\":" ++
    ",".intercalate (bus.slots.map fun slot => slot.top.name.getD "") ++ "\n"

def display (board : Board) : String :=
  "\"" ++ "\",\"".intercalate board.names ++ "\"" ++
    (match board.parentName with
      | some parent => " : \"" ++ parent ++ "\""
      | none => "") ++
    " \x7b\n" ++ String.join (board.buses.map busLine) ++ "\x7d"

instance : ToString Board where
  toString := display

end Board

end Pinout
