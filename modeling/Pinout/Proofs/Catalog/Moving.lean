import Pinout.Proofs.Catalog.Headers
import Pinout.Proofs.Constraint.Selection
import Pinout.Proofs.Moves

/-! # Pins of a moved bus

A directive moves the pins of a bus that have a number, and the pin of a bus that has no other one
is called like the bus, without a number. So a bus of several pins is moved pin by pin, and one of a
single pin stays.
-/

namespace Pinout

def Bus.chipPin? (bus : Bus) (index : Nat) : Option String :=
  bus.slots[index]?.bind (·.bottom.name)

namespace Catalog

variable {catalog : Catalog} {source target : BoardId} {moves : Moves}

theorem sameName_of_busNamed? {id : BoardId} {name : String} {bus : BusView}
    (found : catalog.busNamed? id name = some bus) : sameName bus.bus.name name := by
  rw [busNamed?, busIndex?, bind_lastIndex?] at found
  have agrees := List.find?_some found
  exact sameName_iff.2 (beq_iff_eq.1 agrees).symm

def viewAt (catalog : Catalog) (bus : BusView) (index : Nat) (slot : Slot) : PinView :=
  catalog.pinView bus bus.bus.slots.length index slot

theorem exists_viewAt {id : BoardId} {bus : BusView} (member : bus ∈ catalog.buses id)
    {index : Nat} {pin : String} (wired : bus.bus.chipPin? index = some pin) :
    ∃ slot, index < bus.bus.slots.length ∧ catalog.viewAt bus index slot ∈ catalog.pins id ∧
      (catalog.viewAt bus index slot).physicalName = some pin := by
  obtain ⟨slot, here, connected⟩ := Option.bind_eq_some_iff.1 wired
  refine ⟨slot, (List.getElem?_eq_some_iff.1 here).1, ?_, connected⟩
  exact List.mem_flatMap.2 ⟨bus, member,
    List.mem_map.2 ⟨(slot, index), List.mem_zipIdx_iff_getElem?.2 here, rfl⟩⟩

theorem lower_constraintName_viewAt {bus : BusView} (unaliased : bus.bus.Unaliased) (index : Nat)
    (slot : Slot) :
    Text.lower (catalog.viewAt bus index slot).constraintName =
      Text.lower bus.bus.name ++ if 1 < bus.bus.slots.length then toString index else "" :=
  catalog.lower_constraintName_pinView unaliased _ index slot

/-- Where all positions have different names, the one that has the name is the counterpart. -/
theorem counterpart?_eq_of_mem
    (distinct : (catalog.pins target).Pairwise fun a b =>
      ¬ sameName a.constraintName b.constraintName) {a b : PinView}
    (member : b ∈ catalog.pins target)
    (same : sameName b.constraintName (moves.destination a.constraintName)) :
    catalog.counterpart? target moves a = some b := by
  have symm (a b : PinView) (h : sameName a.constraintName b.constraintName) :
      sameName b.constraintName a.constraintName := sameName_iff.2 (sameName_iff.1 h).symm
  refine find?_reverse_of_only member same fun c member' same' => ?_
  refine eq_of_pairwise_not distinct symm member' member ?_
  exact sameName_iff.2 ((sameName_iff.1 same').trans (sameName_iff.1 same).symm)

/-- Where a directive for a whole bus moves a position of it. -/
theorem destination_viewAt {x y : String} (side : Moves.NamesSide x) (side' : Moves.NamesSide y)
    {bus : BusView} (named : sameName bus.bus.name x) (unaliased : bus.bus.Unaliased)
    {index : Nat} (small : index < 16) (slot : Slot) :
    (Moves.addDirective {} (Moves.busDirective x y)).1.destination
        (catalog.viewAt bus index slot).constraintName =
      if 1 < bus.bus.slots.length then y ++ toString index
      else (catalog.viewAt bus index slot).constraintName := by
  have lower := catalog.lower_constraintName_viewAt unaliased index slot
  rw [sameName_iff.1 named] at lower
  split
  · next several =>
    rw [if_pos several, ← Text.lower_append_toString] at lower
    exact Moves.destination_of_find?
      (Moves.find?_bus_of_lt side side' small (sameName_iff.2 lower.symm))
  · next alone =>
    rw [if_neg alone, String.append_empty] at lower
    have unmoved (k : Nat) :
        ¬ sameName (x ++ toString k) (catalog.viewAt bus index slot).constraintName := by
      intro same
      exact not_sameName_append_toString x k (sameName_iff.2 ((sameName_iff.1 same).trans lower))
    rw [Moves.destination, Moves.find?_bus_of_forall side side' unmoved, Option.getD_none]

/-- A moved position meets the one of its place on the other bus, one of a single pin only where the
buses have one name. -/
theorem sameName_destination_viewAt {x y : String} (side : Moves.NamesSide x)
    (side' : Moves.NamesSide y) {a b : BusView} (named : sameName a.bus.name x)
    (named' : sameName b.bus.name y) (size : a.bus.slots.length = b.bus.slots.length)
    (unaliased : a.bus.Unaliased) (unaliased' : b.bus.Unaliased)
    (meet : 1 < a.bus.slots.length ∨ sameName x y) {index : Nat} (small : index < 16)
    (slot slot' : Slot) :
    sameName (catalog.viewAt b index slot').constraintName
      ((Moves.addDirective {} (Moves.busDirective x y)).1.destination
        (catalog.viewAt a index slot).constraintName) := by
  have lower := catalog.lower_constraintName_viewAt unaliased index slot
  have lower' := catalog.lower_constraintName_viewAt unaliased' index slot'
  rw [sameName_iff.1 named] at lower
  rw [sameName_iff.1 named', ← size] at lower'
  rw [destination_viewAt side side' named unaliased small, sameName_iff, lower']
  by_cases several : 1 < a.bus.slots.length
  · rw [if_pos several, if_pos several, Text.lower_append_toString]
  · rw [if_neg several, if_neg several, lower, if_neg several,
      sameName_iff.1 (meet.resolve_left several)]

/-- A directive for a whole bus is accepted and moves every position of the bus that has a number
to the position of that number on the other bus. A bus of a single pin stays, so it only meets the
other one if that has the same name. -/
theorem pinMap_moves_bus {x y : String} (side : Moves.NamesSide x) (side' : Moves.NamesSide y)
    {a b : BusView} (found : catalog.busNamed? source x = some a)
    (found' : catalog.busNamed? target y = some b)
    (size : a.bus.slots.length = b.bus.slots.length) (small : a.bus.slots.length ≤ 16)
    (unaliased : a.bus.Unaliased) (unaliased' : b.bus.Unaliased)
    (distinct : (catalog.pins target).Pairwise fun a b =>
      ¬ sameName a.constraintName b.constraintName)
    (single : (catalog.physicalNames source).Nodup) :
    let added := Moves.addDirective {} (Moves.busDirective x y)
    added.2 = .ok () ∧
      (1 < a.bus.slots.length ∨ sameName x y →
        ∀ index pin pin', a.bus.chipPin? index = some pin → b.bus.chipPin? index = some pin' →
          (catalog.pinMap source target added.1)[pin]? = some pin') ∧
      (a.bus.slots.length = 1 → ∀ pin, a.bus.chipPin? 0 = some pin →
        (catalog.pinMap source target added.1)[pin]? =
          (catalog.pinMap source target {})[pin]?) := by
  intro added
  have member := mem_buses_of_busNamed? found
  have member' := mem_buses_of_busNamed? found'
  have named := sameName_of_busNamed? found
  have named' := sameName_of_busNamed? found'
  have accepted : added.2 = .ok () := congrArg Prod.snd (Moves.addDirective_bus side side')
  refine ⟨accepted, fun meet index pin pin' wired wired' => ?_, fun alone pin wired => ?_⟩
  · obtain ⟨slot, inside, here, connected⟩ := exists_viewAt member wired
    obtain ⟨slot', -, there, connected'⟩ := exists_viewAt member' wired'
    have same := catalog.sameName_destination_viewAt side side' named named' size unaliased
      unaliased' meet (Nat.lt_of_lt_of_le inside small) slot slot'
    rw [getElem?_pinMap_of_mem single here connected, partner?,
      counterpart?_eq_of_mem distinct there same, Option.bind_some, connected']
  · obtain ⟨slot, inside, here, connected⟩ := exists_viewAt member wired
    have stays := catalog.destination_viewAt side side' named unaliased (Nat.zero_lt_succ 15) slot
    rw [if_neg (by omega)] at stays
    rw [getElem?_pinMap_of_mem single here connected, getElem?_pinMap_of_mem single here connected,
      partner?, partner?, counterpart?, counterpart?, stays, Moves.destination_empty]

/-- A board with three pins on `A`, and one with as many on `B`, one of them unconnected. -/
def facing : Catalog :=
  { entries := #[
      { board := { names := ["old"], buses := [.wiredTo "CLK" [some "P9"],
          .wiredTo "A" [some "P1", some "P2", some "P3"]] } },
      { board := { names := ["new"], buses := [.wiredTo "A" [some "Q4", some "Q5"],
          .wiredTo "B" [some "Q1", none, some "Q3"]] } }] }

theorem pinMap_moves_bus_facing :
    let moves := (Moves.addDirective {} (Moves.busDirective "a" "b")).1
    (facing.pinMap 0 1 moves)["P1"]? = some "Q1" ∧
      (facing.pinMap 0 1 moves)["P3"]? = some "Q3" := by
  have found : facing.busNamed? 0 "a" =
      some ⟨⟨0, 1⟩, .wiredTo "A" [some "P1", some "P2", some "P3"]⟩ := by decide +kernel
  have found' : facing.busNamed? 1 "b" =
      some ⟨⟨1, 1⟩, .wiredTo "B" [some "Q1", none, some "Q3"]⟩ := by decide +kernel
  obtain ⟨-, moved, -⟩ := pinMap_moves_bus (by decide +kernel) (by decide +kernel) found found'
    (by decide) (by decide) (by decide) (by decide) (by decide +kernel) (by decide +kernel)
  exact ⟨moved (.inl (by decide)) 0 "P1" "Q1" rfl rfl,
    moved (.inl (by decide)) 2 "P3" "Q3" rfl rfl⟩

/-- A board with one pin on `X`, and one with one pin on `Y`. -/
def lone : Catalog :=
  { entries := #[{ board := { names := ["S"], buses := [.wiredTo "X" [some "P1"]] } },
      { board := { names := ["D"], buses := [.wiredTo "Y" [some "Q1"]] } }] }

/-- However distinct all names and pins are, `X->Y` does not move the only pin of `X`. -/
theorem pinMap_leaves_single_pin :
    Moves.NamesSide "X" ∧ Moves.NamesSide "Y" ∧
      lone.busNamed? 0 "X" = some ⟨⟨0, 0⟩, .wiredTo "X" [some "P1"]⟩ ∧
      lone.busNamed? 1 "Y" = some ⟨⟨1, 0⟩, .wiredTo "Y" [some "Q1"]⟩ ∧
      (∀ id < 2, (∀ bus ∈ lone.buses id, bus.bus.Unaliased) ∧ (lone.physicalNames id).Nodup ∧
        (lone.pins id).Pairwise fun a b => ¬ sameName a.constraintName b.constraintName) ∧
      (lone.pinMap 0 1 (Moves.addDirective {} (Moves.busDirective "X" "Y")).1)["P1"]? ≠
        some "Q1" := by
  refine ⟨?_, ?_, ?_, ?_, ?_, ?_⟩ <;> decide +kernel

end Catalog

end Pinout
