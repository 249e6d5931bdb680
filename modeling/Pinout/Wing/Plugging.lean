import Pinout.BusRange
import Pinout.Catalog.Inheritance

/-! # Plugging in a wing

The buses of a wing are stacked on consecutive buses of a board, the first at the position named by
a token such as `B8`, the others at the beginning of their bus. A wing bus that reaches beyond the
end of its bus is skipped and leaves the board as it is there. The pins stacked keep track of the
wing bus they came from; the pins below stay, so the wiring does not change.
-/

namespace Pinout.Wing

def carriedPin (wingBus : BusRef) (pin : Pin) : Pin :=
  { pin with origin := some (pin.origin.getD wingBus) }

/-- The positions of a bus with some wing pins stacked on those from the beginning on. -/
def stackOver (wingBus : BusRef) : List Slot → List Slot → List Slot
  | wing :: wings, slot :: slots =>
    slot.push (carriedPin wingBus wing.top) :: stackOver wingBus wings slots
  | [], slots => slots
  | _ :: _, [] => []

def stackAt (wingBus : BusRef) (offset : Nat) (wings slots : List Slot) : List Slot :=
  slots.take offset ++ stackOver wingBus wings (slots.drop offset)

/-- Stacks one wing bus on another bus, if it fits there. -/
def plugBus? (catalog : Catalog) (wingBus target : BusRef) (offset : Nat) : Option Catalog := do
  let wing ← catalog.bus? wingBus
  let bus ← catalog.bus? target
  if offset + wing.slots.length ≤ bus.slots.length then
    some <| catalog.modifyBus target fun bus =>
      { bus with slots := stackAt wingBus offset wing.slots bus.slots }
  else
    none

/-- Stacks wing buses on the buses paired with them, the first at the offset. The second part counts
those that fit. -/
def plugBuses (catalog : Catalog) (offset : Nat) : List (BusRef × BusRef) → Catalog × Nat
  | [] => (catalog, 0)
  | (wingBus, target) :: rest =>
    match plugBus? catalog wingBus target offset with
    | some catalog =>
      let (catalog, placed) := plugBuses catalog 0 rest
      (catalog, placed + 1)
    | none => plugBuses catalog 0 rest

def isTokenName (c : Char) : Bool :=
  !(c.isDigit || Text.isBlank c)

/-- The bus and the offset that a token names. One that is not a name with a number behind it, or
with a number that is no 64-bit word, is a name as a whole. -/
def splitToken (token : String) : String × Nat :=
  let cs := token.toList
  let name := cs.takeWhile isTokenName
  let offset? := BusRange.decimal? (cs.dropWhile isTokenName)
  match name, offset? with
  | _ :: _, some offset => if offset < 1 <<< 64 then (.ofList name, offset) else (token, 0)
  | _, _ => (token, 0)

/-- Plugs a wing into a board. The second part counts the wing buses that were placed. -/
def plug (catalog : Catalog) (board wing : BoardId) (token : String) : Catalog × Nat :=
  let (name, offset) := splitToken token
  match catalog.busIndex? board name with
  | none => (catalog, 0)
  | some index =>
    let wingBuses := (catalog.buses wing).map (·.ref)
    let targets := ((catalog.buses board).map (·.ref)).drop index
    plugBuses catalog offset (wingBuses.zip targets)

end Pinout.Wing
