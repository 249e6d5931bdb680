import Pinout.Proofs.Constraint.Composing
import Pinout.Proofs.Constraint.Validation
import Pinout.Proofs.Last

/-! # Rewriting there and back

On a board where no two positions share a name or a chip pin, pairing leaves no choice, and the
pairs of two such boards are the same in both directions. A file that is rewritten for the other
board and then for its own again has its own pins again.
-/

namespace Pinout

theorem Moves.destination_empty (name : String) : Moves.destination {} name = name := by
  simp [Moves.destination]

namespace Catalog

/-- Every name and every chip pin of a board stands for one position. -/
structure Unambiguous (catalog : Catalog) (id : BoardId) : Prop where
  names : (catalog.wirings id).Pairwise fun a b => ¬ sameName a.constraintName b.constraintName
  pins : (catalog.physicalNames id).Nodup

variable {catalog : Catalog} {source target : BoardId} {pin pin' : String}

theorem Unambiguous.eq_of_constraintName {id : BoardId} (clear : catalog.Unambiguous id)
    {a b : Wiring} (here : a ∈ catalog.wirings id) (there : b ∈ catalog.wirings id)
    (same : Text.lower a.constraintName = Text.lower b.constraintName) : a = b :=
  eq_of_pairwise_not clear.names
    (fun _ _ h => sameName_iff.2 (sameName_iff.1 h).symm) here there (sameName_iff.2 same)

theorem Unambiguous.eq_of_physicalName {id : BoardId} (clear : catalog.Unambiguous id)
    {a b : Wiring} (here : a ∈ catalog.wirings id) (there : b ∈ catalog.wirings id)
    (wired : a.physicalName = some pin) (wired' : b.physicalName = some pin) : a = b := by
  have pins := clear.pins
  rw [physicalNames_eq] at pins
  exact eq_of_nodup_filterMap pins here there wired wired'

/-- Two chip pins are wired to positions of one name. -/
def Meet (catalog : Catalog) (source target : BoardId) (pin pin' : String) : Prop :=
  ∃ a ∈ catalog.wirings source, ∃ b ∈ catalog.wirings target,
    a.physicalName = some pin ∧ b.physicalName = some pin' ∧
      Text.lower b.constraintName = Text.lower a.constraintName

theorem Meet.symm (meet : catalog.Meet source target pin pin') :
    catalog.Meet target source pin' pin := by
  obtain ⟨a, here, b, there, wired, wired', same⟩ := meet
  exact ⟨b, there, a, here, wired', wired, same.symm⟩

theorem meet_of_mem_pinPairs (h : (pin, pin') ∈ catalog.pinPairs source target {}) :
    catalog.Meet source target pin pin' := by
  rw [pinPairs_eq] at h
  obtain ⟨a, here, pair⟩ := List.mem_filterMap.1 h
  simp only [pairWiring?, Option.bind_eq_bind, Option.bind_eq_some_iff, Option.pure_def,
    Option.some.injEq, Prod.mk.injEq] at pair
  obtain ⟨_, wired, b, found, _, wired', rfl, rfl⟩ := pair
  have there := List.mem_reverse.1 (List.mem_of_find?_eq_some found)
  have same := List.find?_some found
  rw [Moves.destination_empty] at same
  exact ⟨a, here, b, there, wired, wired', sameName_iff.1 same⟩

theorem Meet.mem_pinPairs (clear : catalog.Unambiguous target)
    (meet : catalog.Meet source target pin pin') :
    (pin, pin') ∈ catalog.pinPairs source target {} := by
  obtain ⟨a, here, b, there, wired, wired', same⟩ := meet
  let named (position : Wiring) : Bool := sameName position.constraintName a.constraintName
  have found : (catalog.wirings target).reverse.find? named = some b :=
    -- no other position has this name
    find?_reverse_of_only there (sameName_iff.2 same) fun c member same' =>
      clear.eq_of_constraintName member there ((sameName_iff.1 same').trans same.symm)
  rw [pinPairs_eq]
  refine List.mem_filterMap.2 ⟨a, here, ?_⟩
  simp only [pairWiring?, wired, Moves.destination_empty, Option.bind_eq_bind, Option.bind_some]
  rw [show (catalog.wirings target).reverse.find? _ = some b from found]
  simp [wired']

/-- The pairs of two unambiguous boards are the pins that meet. -/
theorem getElem?_pinMap_iff (clear : catalog.Unambiguous source)
    (clear' : catalog.Unambiguous target) :
    (catalog.pinMap source target {})[pin]? = some pin' ↔ catalog.Meet source target pin pin' := by
  constructor
  · exact fun there => meet_of_mem_pinPairs (mem_pinPairs_of_getElem? there)
  · intro meet
    have member := meet.mem_pinPairs clear'
    rw [getElem?_pinMap]
    cases h : (catalog.pinPairs source target {}).reverse.find? (·.1 == pin) with
    | none =>
      exact absurd (beq_self_eq_true pin)
        (List.find?_eq_none.1 h (pin, pin') (List.mem_reverse.2 member))
    | some pair =>
      obtain ⟨key, value⟩ := pair
      have same : key = pin := by simpa using List.find?_some h
      subst same
      -- both pairs come from the one position of the pin, and so lead to one counterpart
      obtain ⟨a, here, b, there, wired, wired', named⟩ :=
        meet_of_mem_pinPairs (List.mem_reverse.1 (List.mem_of_find?_eq_some h))
      obtain ⟨a', here', b', there', wiredA', wiredB', named'⟩ := meet
      cases clear.eq_of_physicalName here here' wired wiredA'
      cases clear'.eq_of_constraintName there there' (named.trans named'.symm)
      exact wired'.symm.trans wiredB'

theorem getElem?_pinMap_symm (clear : catalog.Unambiguous source)
    (clear' : catalog.Unambiguous target)
    (there : (catalog.pinMap source target {})[pin]? = some pin') :
    (catalog.pinMap target source {})[pin']? = some pin :=
  (getElem?_pinMap_iff clear' clear).2 ((getElem?_pinMap_iff clear clear').1 there).symm

end Catalog

namespace Constraint

open Text

/-- Where every pin that is replaced is put back, the two maps together change nothing. -/
theorem transform_transform {map back : PinMap} (tokens : map.Tokens) {text : String}
    (undone : ∀ line ∈ linesOf text, ∀ pin, locPin? line = some pin →
      ∃ pin', map[pin]? = some pin' ∧ back[pin']? = some pin) :
    transform back (transform map text) = transform {} text := by
  have kept : ∀ line ∈ linesOf text, transformLine (map.andThen back) line = line := by
    refine fun line member => transformLine_eq_self fun pin found => ?_
    obtain ⟨pin', there, home⟩ := undone line member pin found
    rw [PinMap.image_andThen]
    simp [PinMap.image, there, home]
  rw [← transform_andThen tokens, transform_eq_join, transform_eq_join {}, transformLine_empty,
    List.map_congr_left kept, List.map_id', List.map_id]

/-- A file whose pins all have counterparts comes back as it was, up to its line terminators. -/
theorem transform_pinMap_pinMap (catalog : Catalog) (source target : BoardId)
    (clear : catalog.Unambiguous source) (clear' : catalog.Unambiguous target)
    (sources : ∀ pin ∈ catalog.physicalNames source, IsToken pin.toList)
    (targets : ∀ pin ∈ catalog.physicalNames target, IsToken pin.toList) (text : String)
    (covered : ∀ line ∈ linesOf text, ∀ pin, locPin? line = some pin →
      pin ∈ catalog.pinMap source target {}) :
    transform (catalog.pinMap target source {}) (transform (catalog.pinMap source target {}) text) =
      transform {} text := by
  have tokens : (catalog.pinMap source target {}).Tokens := by
    intro pin pin' there
    obtain ⟨here, there⟩ :=
      Catalog.mem_physicalNames_of_mem_pinPairs (Catalog.mem_pinPairs_of_getElem? there)
    exact ⟨sources pin here, targets pin' there⟩
  refine transform_transform tokens fun line member pin found => ?_
  have known := covered line member pin found
  rw [Std.TreeMap.mem_iff_isSome_getElem?, Option.isSome_iff_exists] at known
  obtain ⟨pin', there⟩ := known
  exact ⟨pin', there, Catalog.getElem?_pinMap_symm clear clear' there⟩

theorem transform_pinMap_pinMap_shifted :
    shifted.Unambiguous 0 ∧ shifted.Unambiguous 1 ∧
      (∀ pin ∈ shifted.physicalNames 0, IsToken pin.toList) ∧
      (∀ pin ∈ shifted.physicalNames 1, IsToken pin.toList) ∧
      (∀ line ∈ linesOf "NETcLOC=\"P9\" LOC=\"P2\"\r\nNET a LOC = \"P1\";\r# b",
        ∀ pin, locPin? line = some pin → pin ∈ shifted.pinMap 0 1 {}) ∧
      transform (shifted.pinMap 1 0 {}) (transform (shifted.pinMap 0 1 {})
          "NETcLOC=\"P9\" LOC=\"P2\"\r\nNET a LOC = \"P1\";\r# b") =
        "NETcLOC=\"P9\" LOC=\"P2\"\nNET a LOC = \"P1\";\n# b\n" := by
  have names : shifted.physicalNames 0 = ["P1", "P2"] := rfl
  have names' : shifted.physicalNames 1 = ["P2", "P3"] := rfl
  have clear : shifted.Unambiguous 0 := ⟨by decide +kernel, by decide⟩
  have clear' : shifted.Unambiguous 1 := ⟨by decide +kernel, by decide⟩
  have sources : ∀ pin ∈ shifted.physicalNames 0, IsToken pin.toList := by
    rw [names]
    decide
  have targets : ∀ pin ∈ shifted.physicalNames 1, IsToken pin.toList := by
    rw [names']
    decide
  have covered : ∀ line ∈ linesOf "NETcLOC=\"P9\" LOC=\"P2\"\r\nNET a LOC = \"P1\";\r# b",
      ∀ pin ∈ locPin? line, pin ∈ shifted.pinMap 0 1 {} := by
    decide +kernel
  refine ⟨clear, clear', sources, targets, covered, ?_⟩
  rw [transform_pinMap_pinMap shifted 0 1 clear clear' sources targets _ covered]
  decide +kernel

end Constraint

end Pinout
