import Pinout.Proofs.Constraint.Wiring
import Pinout.Wing.Plugging

/-! # Wings leave the wiring alone

A wing covers pins and takes none away: the catalog without its stacks is the same after any number
of placements, and with it all that is read off the wiring.
-/

namespace Pinout

namespace Wing

theorem map_wired_stackOver (wingBus : BusRef) (wings slots : List Slot) :
    (stackOver wingBus wings slots).map Slot.wired = slots.map Slot.wired := by
  induction slots generalizing wings with
  | nil => cases wings <;> rfl
  | cons slot slots ih =>
    cases wings with
    | nil => rfl
    | cons wing wings =>
      have pushed : (slot.push (carriedPin wingBus wing.top)).wired = slot.wired := by
        simp [Slot.wired]
      rw [stackOver, List.map_cons, List.map_cons, pushed, ih]

theorem map_wired_stackAt (wingBus : BusRef) (offset : Nat) (wings slots : List Slot) :
    (stackAt wingBus offset wings slots).map Slot.wired = slots.map Slot.wired := by
  rw [stackAt, List.map_append, map_wired_stackOver, ← List.map_append, List.take_append_drop]

end Wing

namespace Catalog

theorem wired_modifyBoard (catalog : Catalog) (id : BoardId) {change : Board → Board}
    (keeps : ∀ board, (change board).wired = board.wired) :
    (catalog.modifyBoard id change).wired = catalog.wired := by
  simp only [modifyBoard, wired, mk.injEq, and_true]
  apply Array.ext
  · simp
  · intro i inside inside'
    simp only [Array.getElem_map, Array.getElem_modify]
    split
    · rw [keeps]
    · rfl

theorem wired_modifyBus (catalog : Catalog) (ref : BusRef) {change : Bus → Bus}
    (keeps : ∀ bus, (change bus).wired = bus.wired) :
    (catalog.modifyBus ref change).wired = catalog.wired := by
  apply wired_modifyBoard
  intro board
  simp only [Board.wired, Board.mk.injEq, true_and, and_true]
  apply List.ext_getElem?
  intro i
  simp only [List.getElem?_map, List.getElem?_modify]
  cases board.buses[i]? with
  | none => rfl
  | some bus => by_cases here : ref.position = i <;> simp [here, keeps]

end Catalog

namespace Wing

theorem wired_plugBus? {catalog plugged : Catalog} {wingBus target : BusRef} {offset : Nat}
    (h : plugBus? catalog wingBus target offset = some plugged) :
    plugged.wired = catalog.wired := by
  simp only [plugBus?, Option.bind_eq_bind, Option.bind_eq_some_iff, Option.ite_none_right_eq_some,
    Option.some.injEq] at h
  obtain ⟨wing, _, bus, _, _, rfl⟩ := h
  apply Catalog.wired_modifyBus
  intro bus
  simp only [Bus.wired, map_wired_stackAt]

theorem wired_plugBuses (catalog : Catalog) (offset : Nat) (pairs : List (BusRef × BusRef)) :
    (plugBuses catalog offset pairs).1.wired = catalog.wired := by
  induction pairs generalizing catalog offset with
  | nil => rfl
  | cons pair pairs ih =>
    rw [plugBuses]
    split
    · next plugged placed => exact (ih plugged 0).trans (wired_plugBus? placed)
    · exact ih catalog 0

theorem wired_plug (catalog : Catalog) (board wing : BoardId) (token : String) :
    (plug catalog board wing token).1.wired = catalog.wired := by
  simp only [plug]
  split
  · rfl
  · exact wired_plugBuses catalog _ _

structure Placement where
  board : BoardId
  wing : BoardId
  token : String
deriving Repr, DecidableEq

/-- Plugs wings in one after the other, each into what the earlier ones left. -/
def plugAll (catalog : Catalog) (placements : List Placement) : Catalog :=
  placements.foldl (fun catalog placement =>
    (plug catalog placement.board placement.wing placement.token).1) catalog

theorem wired_plugAll (catalog : Catalog) (placements : List Placement) :
    (plugAll catalog placements).wired = catalog.wired := by
  induction placements generalizing catalog with
  | nil => rfl
  | cons placement placements ih =>
    exact (ih _).trans (wired_plug catalog placement.board placement.wing placement.token)

/-- Whatever wings are plugged in, buses keep their lengths and positions their names and chip pins,
so that looking up buses, choosing pins, pairing boards and checking files gives what it gave
before. -/
theorem plugAll_keeps_wiring (catalog : Catalog) (placements : List Placement) :
    let plugged := plugAll catalog placements
    (∀ ref, (plugged.bus? ref).map (·.slots.length) = (catalog.bus? ref).map (·.slots.length)) ∧
      (∀ board, plugged.wirings board = catalog.wirings board) ∧
      (∀ board name, plugged.busIndex? board name = catalog.busIndex? board name) ∧
      (∀ board filter,
        (Constraint.PinFilter.select plugged board filter).map (List.map PinView.wiring) =
          (Constraint.PinFilter.select catalog board filter).map (List.map PinView.wiring)) ∧
      (∀ source target moves,
        plugged.pinMap source target moves = catalog.pinMap source target moves) ∧
      ∀ board text,
        Constraint.validate plugged board text = Constraint.validate catalog board text := by
  intro plugged
  -- each of these can be read off the catalog without its stacks
  have same : plugged.wired = catalog.wired := wired_plugAll catalog placements
  have size (catalog : Catalog) (ref : BusRef) :
      (catalog.bus? ref).map (·.slots.length) = (catalog.wired.bus? ref).map (·.slots.length) := by
    rw [Catalog.bus?_wired, Option.map_map]
    simp [Function.comp_def]
  refine ⟨fun ref => ?_, fun board => ?_, fun board name => ?_, fun board filter => ?_,
    fun source target moves => ?_, fun board text => ?_⟩
  · rw [size plugged, same, ← size]
  · rw [← plugged.wirings_wired, same, catalog.wirings_wired]
  · rw [← plugged.busIndex?_wired, same, catalog.busIndex?_wired]
  · rw [← Constraint.PinFilter.select_wired, same, Constraint.PinFilter.select_wired]
  · rw [← plugged.pinMap_wired, same, catalog.pinMap_wired]
  · rw [← Constraint.validate_wired, same, Constraint.validate_wired]

end Wing

end Pinout
