import Pinout.Catalog.PinMap
import Pinout.Proofs.Catalog.Wiring

/-! # What a pin map pairs

Two boards are paired by the names and chip pins of their positions, whatever is stacked there. Of
the positions wired to one chip pin the last one counts, and both sides of every pair are chip pins,
one of either board.
-/

namespace Pinout.Catalog

variable (catalog : Catalog)

def physicalNames (id : BoardId) : List String :=
  (catalog.pins id).filterMap (·.physicalName)

theorem filterMap_wirings {α : Type} (f : Wiring → Option α) (id : BoardId) :
    (catalog.wirings id).filterMap f = (catalog.pins id).filterMap fun view => f view.wiring := by
  rw [wirings, List.filterMap_map]
  rfl

theorem physicalNames_eq (id : BoardId) :
    catalog.physicalNames id = (catalog.wirings id).filterMap (·.physicalName) := by
  rw [filterMap_wirings]
  rfl

def pinPairs (source target : BoardId) (moves : Moves) : List (String × String) :=
  (catalog.pins source).filterMap (pairPin? (catalog.byConstraintName target) moves)

theorem find?_byConstraintName (id : BoardId) (name : String) :
    (catalog.byConstraintName id).find? name =
      (catalog.pins id).reverse.find? fun view => sameName view.constraintName name := by
  simp [byConstraintName, NameIndex.find?_ofList, ← List.map_reverse, List.find?_map,
    Function.comp_def]

/-- The chip pin of a position and that of its counterpart, the last position of its name. -/
def pairWiring? (targets : List Wiring) (moves : Moves) (position : Wiring) :
    Option (String × String) := do
  let source ← position.physicalName
  let name := moves.destination position.constraintName
  let counterpart ← targets.reverse.find? fun target => sameName target.constraintName name
  let target ← counterpart.physicalName
  return (source, target)

theorem pinPairs_eq (source target : BoardId) (moves : Moves) :
    catalog.pinPairs source target moves =
      (catalog.wirings source).filterMap (pairWiring? (catalog.wirings target) moves) := by
  have pair (view : PinView) : pairPin? (catalog.byConstraintName target) moves view =
      pairWiring? (catalog.wirings target) moves view.wiring := by
    simp only [pairPin?, pairWiring?, find?_byConstraintName, wirings, ← List.map_reverse,
      List.find?_map, Option.bind_eq_bind, Option.bind_map]
    rfl
  rw [pinPairs, funext pair, filterMap_wirings]

theorem pinMap_wired (source target : BoardId) (moves : Moves) :
    catalog.wired.pinMap source target moves = catalog.pinMap source target moves := by
  have pairs : catalog.wired.pinPairs source target moves =
      catalog.pinPairs source target moves := by
    simp only [pinPairs_eq, wirings_wired]
  exact congrArg (Std.TreeMap.ofList · compare) pairs

variable {catalog} {source target : BoardId} {moves : Moves} {pin pin' : String}

theorem getElem?_pinMap (catalog : Catalog) (source target : BoardId) (moves : Moves)
    (pin : String) :
    (catalog.pinMap source target moves)[pin]? =
      ((catalog.pinPairs source target moves).reverse.find? (·.1 == pin)).map (·.2) := by
  -- a tree made from a list has the last value of each key
  have last (pairs : List (String × String)) :
      pairs.findSome? (fun pair => if compare pair.1 pin = .eq then some pair.2 else none) =
        (pairs.find? (·.1 == pin)).map (·.2) := by
    induction pairs with
    | nil => rfl
    | cons pair pairs ih =>
      rw [List.findSome?_cons, List.find?_cons, ih]
      by_cases same : pair.1 = pin
      · simp [same]
      · simp [same, beq_false_of_ne same]
  rw [pinMap, Std.TreeMap.ofList_eq_insertMany_empty, Std.TreeMap.getElem?_insertMany_list,
    List.findSomeRev?_eq_findSome?_reverse]
  simpa [pinPairs] using last _

theorem mem_pinPairs_of_getElem?
    (h : (catalog.pinMap source target moves)[pin]? = some pin') :
    (pin, pin') ∈ catalog.pinPairs source target moves := by
  rw [getElem?_pinMap, Option.map_eq_some_iff] at h
  obtain ⟨⟨key, value⟩, found, rfl⟩ := h
  have same : key = pin := by simpa using List.find?_some found
  rw [← same]
  exact List.mem_reverse.1 (List.mem_of_find?_eq_some found)

theorem mem_physicalNames_of_mem_pinPairs
    (h : (pin, pin') ∈ catalog.pinPairs source target moves) :
    pin ∈ catalog.physicalNames source ∧ pin' ∈ catalog.physicalNames target := by
  rw [pinPairs_eq] at h
  obtain ⟨position, member, pair⟩ := List.mem_filterMap.1 h
  simp only [pairWiring?, Option.bind_eq_bind, Option.bind_eq_some_iff, Option.pure_def,
    Option.some.injEq, Prod.mk.injEq] at pair
  obtain ⟨_, here, counterpart, found, _, there, rfl, rfl⟩ := pair
  have member' := List.mem_reverse.1 (List.mem_of_find?_eq_some found)
  rw [physicalNames_eq, physicalNames_eq]
  exact ⟨List.mem_filterMap.2 ⟨position, member, here⟩,
    List.mem_filterMap.2 ⟨counterpart, member', there⟩⟩

end Pinout.Catalog
