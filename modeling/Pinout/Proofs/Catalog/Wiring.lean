import Pinout.Catalog.PinView

/-! # The wiring of a catalog

Where pins are stacked, the wires still end at the bottom. `Catalog.wired` is the catalog without
the stacks, every position with its bottom pin alone, and what positions are called and which chip
pins they are wired to can be read off it.
-/

namespace Pinout

def Slot.wired (slot : Slot) : Slot :=
  ⟨slot.bottom, []⟩

def Bus.wired (bus : Bus) : Bus :=
  { bus with slots := bus.slots.map Slot.wired }

def Board.wired (board : Board) : Board :=
  { board with buses := board.buses.map Bus.wired }

def BusView.wired (view : BusView) : BusView :=
  { view with bus := view.bus.wired }

def Catalog.wired (catalog : Catalog) : Catalog :=
  { catalog with
    entries := catalog.entries.map fun entry => { entry with board := entry.board.wired } }

@[simp]
theorem Bus.length_slots_wired (bus : Bus) : bus.wired.slots.length = bus.slots.length :=
  List.length_map Slot.wired

theorem lastIndex?_map {α β : Type} (f : α → β) (p : β → Bool) (xs : List α) :
    lastIndex? p (xs.map f) = lastIndex? (p ∘ f) xs := by
  simp [lastIndex?, ← List.map_reverse, List.findIdx?_map]

namespace Catalog

variable (catalog : Catalog)

theorem board?_wired (id : BoardId) :
    catalog.wired.board? id = (catalog.board? id).map Board.wired := by
  simp only [board?, wired, Array.getElem?_map, Option.map_map]
  rfl

theorem board_wired (id : BoardId) : catalog.wired.board id = (catalog.board id).wired := by
  rw [board, board?_wired, board]
  cases catalog.board? id <;> rfl

theorem size_wired : catalog.wired.entries.size = catalog.entries.size :=
  Array.size_map

theorem parent?_wired (id : BoardId) : catalog.wired.parent? id = catalog.parent? id := by
  simp only [parent?, wired, Array.getElem?_map]
  cases catalog.entries[id]? <;> rfl

theorem bus?_wired (ref : BusRef) : catalog.wired.bus? ref = (catalog.bus? ref).map Bus.wired := by
  rw [bus?, board?_wired, bus?]
  cases catalog.board? ref.board with
  | none => rfl
  | some board => simp [Board.wired]

theorem lineageBefore_wired (behind : List BoardId) (fuel : Nat) (id : BoardId) :
    catalog.wired.lineageBefore behind fuel id = catalog.lineageBefore behind fuel id := by
  induction fuel generalizing behind id with
  | zero => rfl
  | succ fuel ih =>
    simp only [lineageBefore, parent?_wired]
    cases catalog.parent? id with
    | none => rfl
    | some parent => exact ih (id :: behind) parent

theorem lineage_wired (id : BoardId) : catalog.wired.lineage id = catalog.lineage id := by
  rw [lineage, size_wired, lineageBefore_wired, lineage]

theorem ownBuses_wired (id : BoardId) :
    catalog.wired.ownBuses id = (catalog.ownBuses id).map BusView.wired := by
  simp only [ownBuses, board_wired, Board.wired, List.zipIdx_map, List.map_map]
  rfl

theorem buses_wired (id : BoardId) :
    catalog.wired.buses id = (catalog.buses id).map BusView.wired := by
  rw [buses, lineage_wired, buses, List.map_flatMap, funext catalog.ownBuses_wired]

theorem busIndex?_wired (id : BoardId) (name : String) :
    catalog.wired.busIndex? id name = catalog.busIndex? id name := by
  simp only [busIndex?, buses_wired, lastIndex?_map]
  rfl

theorem busNamed?_wired (id : BoardId) (name : String) :
    catalog.wired.busNamed? id name = (catalog.busNamed? id name).map BusView.wired := by
  simp only [busNamed?, busIndex?_wired, buses_wired]
  cases catalog.busIndex? id name with
  | none => rfl
  | some index => simp

end Catalog

structure Wiring where
  ref : PinRef
  physicalName : Option String
  canonicalName : String
  constraintName : String
deriving Repr, DecidableEq

def PinView.wiring (view : PinView) : Wiring where
  ref := view.ref
  physicalName := view.physicalName
  canonicalName := view.canonicalName
  constraintName := view.constraintName

namespace Catalog

variable (catalog : Catalog)

-- Only owners and their additions are looked up in the catalog, and they are no part of the wiring.
theorem wirings_pinsOf (catalog' : Catalog) (bus : BusView) :
    (catalog'.pinsOf bus.wired).map PinView.wiring = (catalog.pinsOf bus).map PinView.wiring := by
  simp only [pinsOf, BusView.wired, Bus.wired, List.length_map, List.zipIdx_map, List.map_map]
  rfl

def wirings (id : BoardId) : List Wiring :=
  (catalog.pins id).map PinView.wiring

theorem wirings_wired (id : BoardId) : catalog.wired.wirings id = catalog.wirings id := by
  simp only [wirings, pins, buses_wired, List.map_flatMap, List.flatMap_map,
    catalog.wirings_pinsOf catalog.wired]

end Catalog

end Pinout
