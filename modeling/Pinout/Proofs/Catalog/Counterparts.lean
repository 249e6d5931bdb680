import Pinout.Proofs.Catalog.Pairing
import Pinout.Proofs.Last

/-! # Counterparts

The counterpart of a position is looked up on the other board under the name that the position is
moved to, and of several positions of one name the last one is it, connected or not. A pin map
follows the last position of a chip pin that has a connected counterpart. So names can be swapped,
and an unconnected position hides those of its name before it.
-/

namespace Pinout

namespace Moves

theorem find?_congr (moves : Moves) {name name' : String} (same : sameName name name' = true) :
    moves.find? name = moves.find? name' := by
  rw [NameIndex.find?, NameIndex.find?, sameName_iff.1 same]

theorem destination_of_find? {moves : Moves} {name target : String}
    (moved : moves.find? name = some target) : moves.destination name = target := by
  rw [destination, moved, Option.getD_some]

end Moves

def Bus.wiredTo (name : String) (pins : List (Option String)) : Bus :=
  { name, slots := pins.map fun pin => ⟨{ name := pin }, []⟩ }

namespace Catalog

variable (catalog : Catalog) (source target : BoardId) (moves : Moves)

/-- A position and the last one of the target under the name that it is moved to. -/
def IsCounterpart (a b : PinView) : Prop :=
  IsLast (sameName ·.constraintName (moves.destination a.constraintName)) (catalog.pins target) b

def counterpart? (a : PinView) : Option PinView :=
  (catalog.pins target).reverse.find? fun b =>
    sameName b.constraintName (moves.destination a.constraintName)

/-- The chip pin of the counterpart, if there is one and it is connected. -/
def partner? (a : PinView) : Option String :=
  (catalog.counterpart? target moves a).bind (·.physicalName)

theorem isCounterpart_iff {a b : PinView} :
    catalog.IsCounterpart target moves a b ↔ catalog.counterpart? target moves a = some b :=
  isLast_iff_find? fun _ => Iff.rfl

theorem pairPin?_eq (a : PinView) :
    pairPin? (catalog.byConstraintName target) moves a =
      a.physicalName.bind fun pin => (catalog.partner? target moves a).map (pin, ·) := by
  rw [pairPin?, find?_byConstraintName, partner?, counterpart?]
  cases a.physicalName with
  | none => rfl
  | some pin =>
    cases (catalog.pins target).reverse.find? _ with
    | none => rfl
    | some b => cases h : b.physicalName <;> simp [h]

/-- Whether a position is wired to a chip pin and has a connected counterpart. -/
def leads (pin : String) (a : PinView) : Bool :=
  a.physicalName == some pin && (catalog.partner? target moves a).isSome

/-- A pin map follows the last position that leads on from a chip pin. -/
theorem getElem?_pinMap_eq_partner? (pin : String) :
    (catalog.pinMap source target moves)[pin]? =
      ((catalog.pins source).reverse.find? (catalog.leads target moves pin)).bind
        (catalog.partner? target moves) := by
  have same (a : PinView) :
      (pairPin? (catalog.byConstraintName target) moves a).any (·.1 == pin) =
        catalog.leads target moves pin a := by
    rw [pairPin?_eq, leads]
    cases a.physicalName with
    | none => rfl
    | some pin' => cases catalog.partner? target moves a <;> simp
  rw [getElem?_pinMap, pinPairs, ← List.filterMap_reverse, List.find?_filterMap, funext same]
  cases found : (catalog.pins source).reverse.find? (catalog.leads target moves pin) with
  | none => rfl
  | some a =>
    have here := List.find?_some found
    rw [leads, Bool.and_eq_true, beq_iff_eq] at here
    rw [Option.bind_some, Option.bind_some, pairPin?_eq, here.1, Option.bind_some, Option.map_map]
    exact Option.map_id'

theorem leads_iff {pin : String} {a : PinView} :
    catalog.leads target moves pin a = true ↔ a.physicalName = some pin ∧
      ∃ b, catalog.IsCounterpart target moves a b ∧ b.physicalName ≠ none := by
  rw [leads, Bool.and_eq_true, beq_iff_eq, partner?]
  simp only [isCounterpart_iff]
  cases catalog.counterpart? target moves a <;> simp [Option.isSome_iff_ne_none]

/-- A pin map follows the last position of a chip pin that has a connected counterpart, to the chip
pin of that counterpart. A name that is moved is looked up once, whatever the name it is moved to is
moved to itself, and a chip pin whose positions have unconnected counterparts only is left out. -/
theorem pinMap_follows_last :
    (∀ pin pin' : String, (catalog.pinMap source target moves)[pin]? = some pin' ↔
      ∃ a b, IsLast (fun a => a.physicalName = some pin ∧
          ∃ b, catalog.IsCounterpart target moves a b ∧ b.physicalName ≠ none)
          (catalog.pins source) a ∧
        catalog.IsCounterpart target moves a b ∧ b.physicalName = some pin') ∧
    (∀ name name', moves.find? name = some name' → ∀ a b, sameName a.constraintName name →
      (catalog.IsCounterpart target moves a b ↔
        IsLast (sameName ·.constraintName name') (catalog.pins target) b)) ∧
    ∀ pin, (∀ a ∈ catalog.pins source, a.physicalName = some pin →
        ∃ b, catalog.IsCounterpart target moves a b ∧ b.physicalName = none) →
      (catalog.pinMap source target moves)[pin]? = none := by
  refine ⟨fun pin pin' => ?_, fun name name' moved a b same => ?_, fun pin hidden => ?_⟩
  · have follows (a : PinView) : catalog.leads target moves pin a = true ↔ _ :=
      catalog.leads_iff target moves
    rw [getElem?_pinMap_eq_partner?, Option.bind_eq_some_iff]
    simp only [isLast_iff_find? follows]
    simp only [isCounterpart_iff, partner?, Option.bind_eq_some_iff, exists_and_left]
  · rw [IsCounterpart, Moves.destination_of_find? ((moves.find?_congr same).trans moved)]
  · rw [getElem?_pinMap_eq_partner?]
    cases found : (catalog.pins source).reverse.find? (catalog.leads target moves pin) with
    | none => rfl
    | some a =>
      -- a position that leads on has a connected counterpart and no other one
      obtain ⟨wired, b, here, connected⟩ :=
        (catalog.leads_iff target moves).1 (List.find?_some found)
      obtain ⟨b', there, open'⟩ :=
        hidden a (List.mem_reverse.1 (List.mem_of_find?_eq_some found)) wired
      rw [isCounterpart_iff] at here there
      cases here.symm.trans there
      exact absurd open' connected

/-- Two boards, the second of which has `B` twice, the last time with an unconnected position. -/
def doubled : Catalog :=
  { entries := #[
      { board := { names := ["old"], buses := [.wiredTo "A" [some "P1", some "P2"],
          .wiredTo "B" [some "P3", some "P4"]] } },
      { board := { names := ["new"], buses := [.wiredTo "A" [some "Q1", some "Q2"],
          .wiredTo "B" [some "Q3", some "Q4"], .wiredTo "b" [some "Q5", none]] } }] }

/-- Where `A` and `B` are swapped, `B` leads to the first positions and `A` to the last ones. -/
theorem pinMap_follows_last_swapped :
    let moves := (Moves.addDirective {} "A->B,B->A").1
    moves.find? "a0" = some "B0" ∧ moves.find? "B0" = some "A0" ∧
      (doubled.pinMap 0 1 moves)["P1"]? = some "Q5" ∧
      (doubled.pinMap 0 1 moves)["P3"]? = some "Q1" ∧
      (doubled.pinMap 0 1 moves)["P2"]? = none := by
  intro moves
  obtain ⟨-, -, hidden⟩ := pinMap_follows_last doubled 0 1 moves
  have unconnected : ∀ a ∈ doubled.pins 0, a.physicalName = some "P2" →
      ∃ b ∈ doubled.counterpart? 1 moves a, b.physicalName = none := by decide +kernel
  refine ⟨by decide +kernel, by decide +kernel, by decide +kernel, by decide +kernel, ?_⟩
  refine hidden "P2" fun a member wired => ?_
  obtain ⟨b, there, open'⟩ := unconnected a member wired
  exact ⟨b, (isCounterpart_iff ..).2 there, open'⟩

end Catalog

end Pinout
