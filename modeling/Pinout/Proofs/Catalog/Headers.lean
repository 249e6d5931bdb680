import Mathlib.Data.List.Induction
import Mathlib.Data.List.Sigma
import Pinout.Proofs.Catalog.Counterparts
import Pinout.Proofs.Constraint.Restoring
import Pinout.Proofs.Text.Lower

/-! # Boards mapped to themselves

The name that two boards meet by is that of a bus with an index glued to it, and that of a bus alone
where the bus has one pin. So a position of `A` and one of `A1` may have one name, and a board that
is mapped to itself then loses or misplaces the chip pin of the earlier one. Nothing else can go
wrong.
-/

namespace Pinout

/-! ## Numbers behind names -/

/-- Whether a name is another one with a number behind it, in any spelling. -/
def IsNumbered (name base : String) : Prop :=
  ∃ n : Nat, sameName name (base ++ toString n)

theorem isNumbered_iff {name base : String} :
    IsNumbered name base ↔
      ∃ n, (Text.lower name).toList = (Text.lower base).toList ++ Nat.toDigits 10 n := by
  simp only [IsNumbered, sameName_iff, Text.lower_append_toString, ← String.toList_inj,
    String.toList_append, Text.toList_toString]

/-- A number ends in a digit. -/
theorem IsNumbered.getLast?_isDigit {name base : String} (numbered : IsNumbered name base) :
    (Text.lower name).toList.getLast?.any Char.isDigit = true := by
  obtain ⟨n, same⟩ := isNumbered_iff.1 numbered
  have last := List.getLast_mem (Nat.toDigits_ne_nil (n := n) (b := 10))
  rw [same, List.getLast?_append_of_ne_nil _ Nat.toDigits_ne_nil,
    List.getLast?_eq_some_getLast Nat.toDigits_ne_nil, Option.any_some]
  exact Nat.isDigit_of_mem_toDigits (by decide) (Nat.le_refl 10) last

/-- What a number begins with is a number. -/
theorem exists_toDigits_of_append {front back : List Char} {n : Nat} (nonempty : front ≠ [])
    (number : front ++ back = Nat.toDigits 10 n) : ∃ m, front = Nat.toDigits 10 m := by
  induction back using List.reverseRecOn generalizing n with
  | nil => exact ⟨n, by rw [← number, List.append_nil]⟩
  | append_singleton back c ih =>
    rw [← List.append_assoc, Nat.toDigits_eq_if (by decide)] at number
    split at number
    · -- a number of one digit begins with no other one
      have length := congrArg List.length number
      have := List.length_pos_of_ne_nil nonempty
      simp only [List.length_append, List.length_singleton] at length
      omega
    · exact ih (List.append_inj_left' number rfl)

namespace PinView

def indexText (view : PinView) : String :=
  if 1 < view.busSize then toString view.ref.index else ""

theorem lower_indexed (view : PinView) (base : String) :
    Text.lower (view.indexed base) = Text.lower base ++ view.indexText := by
  rw [indexed, indexText]
  split
  · exact Text.lower_append_toString base _
  · exact String.append_empty.symm

/-- A name that goes on like an index behind another name is that name with a number behind it. -/
theorem isNumbered_of_indexText {view : PinView} {name base : String} {front back : List Char}
    (other : Text.lower name ≠ Text.lower base)
    (longer : (Text.lower name).toList = (Text.lower base).toList ++ front)
    (index : view.indexText.toList = front ++ back) : IsNumbered name base := by
  have nonempty : front ≠ [] := by
    rintro rfl
    rw [List.append_nil, String.toList_inj] at longer
    exact other longer
  rw [indexText] at index
  split at index
  · rw [Text.toList_toString] at index
    obtain ⟨n, rfl⟩ := exists_toDigits_of_append nonempty index.symm
    exact isNumbered_iff.2 ⟨n, longer⟩
  · exact absurd (List.append_eq_nil_iff.1 index.symm).1 nonempty

end PinView

def Bus.Unaliased (bus : Bus) : Prop :=
  ∀ name ∈ bus.aliasName, name = ""

instance (bus : Bus) : Decidable bus.Unaliased :=
  inferInstanceAs (Decidable (∀ name ∈ bus.aliasName, name = ""))

theorem Bus.Unaliased.outputName_eq {bus : Bus} (unaliased : bus.Unaliased) :
    bus.outputName = bus.name := by
  rw [outputName]
  split
  · next name here =>
    rw [unaliased name here]
    rfl
  · rfl

namespace Catalog

variable {catalog : Catalog} {id : BoardId}

/-! ## Names of positions -/

theorem lower_constraintName_pinView (catalog : Catalog) {bus : BusView}
    (unaliased : bus.bus.Unaliased) (size index : Nat) (slot : Slot) :
    Text.lower (catalog.pinView bus size index slot).constraintName =
      Text.lower bus.bus.name ++ (catalog.pinView bus size index slot).indexText := by
  rw [PinView.constraintName, PinView.lower_indexed, ← unaliased.outputName_eq]
  rfl

theorem lower_constraintName {bus : BusView} (unaliased : bus.bus.Unaliased) {view : PinView}
    (member : view ∈ catalog.pinsOf bus) :
    Text.lower view.constraintName = Text.lower bus.bus.name ++ view.indexText := by
  obtain ⟨⟨slot, index⟩, -, rfl⟩ := List.mem_map.1 member
  exact catalog.lower_constraintName_pinView unaliased _ index slot

/-- The positions of one bus have different names. -/
theorem pairwise_pinsOf (bus : BusView) :
    (catalog.pinsOf bus).Pairwise fun a b => ¬ sameName a.constraintName b.constraintName := by
  by_cases several : 1 < bus.bus.slots.length
  · have indices := List.pairwise_map.1 (List.nodup_zipIdx_map_snd bus.bus.slots)
    rw [pinsOf, List.pairwise_map]
    refine indices.imp fun {a b} different same => different ?_
    have named (a : Slot × Nat) :
        (catalog.pinView bus bus.bus.slots.length a.2 a.1).constraintName =
          bus.bus.outputName ++ toString a.2 := if_pos several
    rw [named, named] at same
    exact (sameName_append_toString_iff _).1 same
  · have short : (catalog.pinsOf bus).length ≤ 1 := by
      rw [pinsOf, List.length_map, List.length_zipIdx]
      exact Nat.le_of_not_lt several
    cases single : catalog.pinsOf bus with
    | nil => exact .nil
    | cons a others =>
      rw [single, List.length_cons] at short
      have noOthers : others = [] := List.length_eq_zero_iff.1 (by omega)
      rw [noOthers]
      exact List.pairwise_singleton _ a

/-- Positions of two buses have different names where neither bus is called like the other one,
nor like that with a number behind it. -/
theorem not_sameName_of_mem_pinsOf {bus bus' : BusView} {a b : PinView}
    (unaliased : bus.bus.Unaliased) (unaliased' : bus'.bus.Unaliased)
    (distinct : ¬ sameName bus.bus.name bus'.bus.name)
    (unnumbered : ¬ IsNumbered bus.bus.name bus'.bus.name)
    (unnumbered' : ¬ IsNumbered bus'.bus.name bus.bus.name)
    (member : a ∈ catalog.pinsOf bus) (member' : b ∈ catalog.pinsOf bus') :
    ¬ sameName a.constraintName b.constraintName := by
  intro same
  rw [sameName_iff, lower_constraintName unaliased member, lower_constraintName unaliased' member',
    ← String.toList_inj, String.toList_append, String.toList_append,
    List.append_eq_append_iff] at same
  rw [sameName_iff] at distinct
  -- the longer name is the shorter one with the beginning of an index behind it
  rcases same with ⟨front, longer, index⟩ | ⟨front, longer, index⟩
  · exact unnumbered' (PinView.isNumbered_of_indexText (Ne.symm distinct) longer index)
  · exact unnumbered (PinView.isNumbered_of_indexText distinct longer index)

theorem pairwise_constraintName
    (distinct : (catalog.buses id).Pairwise fun a b => ¬ sameName a.bus.name b.bus.name)
    (unaliased : ∀ view ∈ catalog.buses id, view.bus.Unaliased)
    (unnumbered : ∀ a ∈ catalog.buses id, ∀ b ∈ catalog.buses id,
      ¬ IsNumbered a.bus.name b.bus.name) :
    (catalog.pins id).Pairwise fun a b => ¬ sameName a.constraintName b.constraintName := by
  refine List.pairwise_flatMap.2 ⟨fun bus _ => pairwise_pinsOf bus, ?_⟩
  refine distinct.imp_of_mem fun here there apart a member b member' => ?_
  exact not_sameName_of_mem_pinsOf (unaliased _ here) (unaliased _ there) apart
    (unnumbered _ here _ there) (unnumbered _ there _ here) member member'

/-! ## Maps from a board to itself -/

/-- A chip pin of one position only is followed from there. -/
theorem getElem?_pinMap_of_mem {source target : BoardId} {moves : Moves}
    (single : (catalog.physicalNames source).Nodup) {a : PinView} (member : a ∈ catalog.pins source)
    {pin : String} (wired : a.physicalName = some pin) :
    (catalog.pinMap source target moves)[pin]? = catalog.partner? target moves a := by
  rw [getElem?_pinMap_eq_partner?]
  cases found : (catalog.pins source).reverse.find? (catalog.leads target moves pin) with
  | none =>
    have missed := List.find?_eq_none.1 found a (List.mem_reverse.2 member)
    rw [leads, wired, beq_self_eq_true, Bool.true_and, Option.not_isSome_iff_eq_none] at missed
    exact missed.symm
  | some b =>
    obtain ⟨wired', -⟩ := (catalog.leads_iff target moves).1 (List.find?_some found)
    have member' := List.mem_reverse.1 (List.mem_of_find?_eq_some found)
    rw [eq_of_nodup_filterMap single member' member wired' wired, Option.bind_some]

/-- Every one of the chip pins is mapped to itself, and nothing else is mapped. -/
def IsIdentity (map : Constraint.PinMap) (pins : List String) : Prop :=
  ∀ pin pin' : String, map[pin]? = some pin' ↔ pin ∈ pins ∧ pin' = pin

theorem isIdentity_pinMap_iff (single : (catalog.physicalNames id).Nodup) :
    IsIdentity (catalog.pinMap id id {}) (catalog.physicalNames id) ↔
      ∀ a ∈ catalog.pins id, ∀ pin, a.physicalName = some pin →
        catalog.partner? id {} a = some pin := by
  constructor
  · intro identity a member pin wired
    rw [← getElem?_pinMap_of_mem single member wired, identity]
    exact ⟨List.mem_filterMap.2 ⟨a, member, wired⟩, rfl⟩
  · intro own pin pin'
    constructor
    · intro there
      have here := (mem_physicalNames_of_mem_pinPairs (mem_pinPairs_of_getElem? there)).1
      obtain ⟨a, member, wired⟩ := List.mem_filterMap.1 here
      rw [getElem?_pinMap_of_mem single member wired, own a member pin wired] at there
      exact ⟨here, (Option.some.inj there).symm⟩
    · rintro ⟨here, rfl⟩
      obtain ⟨a, member, wired⟩ := List.mem_filterMap.1 here
      rw [getElem?_pinMap_of_mem single member wired, own a member pin' wired]

/-- With distinct chip pins, a board that is mapped to itself without moves keeps every chip pin
exactly where no connected position has the name of a later one. So it does where the buses have
distinct names and no alias, and none is called like another one with a number behind it. -/
theorem pinMap_self_iff (single : (catalog.physicalNames id).Nodup) :
    (IsIdentity (catalog.pinMap id id {}) (catalog.physicalNames id) ↔
      (catalog.pins id).Pairwise fun a b =>
        a.physicalName.isSome → ¬ sameName b.constraintName a.constraintName) ∧
    ((catalog.buses id).Pairwise (fun a b => ¬ sameName a.bus.name b.bus.name) →
      (∀ view ∈ catalog.buses id, view.bus.Unaliased) →
      (∀ a ∈ catalog.buses id, ∀ b ∈ catalog.buses id, ¬ IsNumbered a.bus.name b.bus.name) →
      IsIdentity (catalog.pinMap id id {}) (catalog.physicalNames id)) := by
  have own : IsIdentity (catalog.pinMap id id {}) (catalog.physicalNames id) ↔
      (catalog.pins id).Pairwise fun a b =>
        a.physicalName.isSome → ¬ sameName b.constraintName a.constraintName := by
    let named (a b : PinView) : Bool := sameName b.constraintName a.constraintName
    have last := last_keeps_own_iff named (fun a => sameName_iff.2 rfl) single
    simpa only [isIdentity_pinMap_iff single, partner?, counterpart?, Moves.destination_empty]
      using last
  refine ⟨own, fun distinct unaliased unnumbered => own.2 ?_⟩
  refine (pairwise_constraintName distinct unaliased unnumbered).imp fun apart _ same => apart ?_
  exact sameName_iff.2 (sameName_iff.1 same).symm

/-- A board with `CLK` and `A`, and one that has `b` besides. -/
def inherited : Catalog :=
  { entries := #[
      { board := { names := ["old"], buses := [.wiredTo "CLK" [some "P1"],
          .wiredTo "A" [some "P2", none, some "P3"]] } },
      { board := { names := ["new"], buses := [.wiredTo "b" [some "P4", some "P5"]] }
        parent := some 0 }] }

theorem pinMap_self_iff_inherited :
    IsIdentity (inherited.pinMap 1 1 {}) (inherited.physicalNames 1) ∧
      inherited.physicalNames 1 = ["P1", "P2", "P3", "P4", "P5"] := by
  have digitless : ∀ view ∈ inherited.buses 1,
      (Text.lower view.bus.name).toList.getLast?.any Char.isDigit = false := by decide +kernel
  have single : (inherited.physicalNames 1).Nodup := by decide +kernel
  obtain ⟨-, keeps⟩ := pinMap_self_iff single
  refine ⟨keeps (by decide +kernel) (by decide +kernel) fun a member b _ numbered => ?_,
    by decide +kernel⟩
  exact Bool.false_ne_true ((digitless a member).symm.trans numbered.getLast?_isDigit)

/-- A board with two pins on `A` and one on `A1`. -/
def glued : Catalog :=
  { entries := #[{ board := { names := ["B"], buses := [.wiredTo "A" [some "P1", some "P2"],
      .wiredTo "A1" [some "P3"]] } }] }

/-- Distinct names of buses without aliases are not enough: the second pin of `A` is sent to that
of `A1`. -/
theorem pinMap_self_misplaces :
    (glued.buses 0).Pairwise (fun a b => ¬ sameName a.bus.name b.bus.name) ∧
      (∀ view ∈ glued.buses 0, view.bus.Unaliased) ∧ (glued.physicalNames 0).Nodup ∧
      (glued.pinMap 0 0 {})["P2"]? = some "P3" ∧
      ¬ IsIdentity (glued.pinMap 0 0 {}) (glued.physicalNames 0) := by
  have misplaced : (glued.pinMap 0 0 {})["P2"]? = some "P3" := by decide +kernel
  refine ⟨by decide +kernel, by decide +kernel, by decide +kernel, misplaced, fun identity => ?_⟩
  exact absurd ((identity "P2" "P3").1 misplaced).2 (by decide)

end Catalog

end Pinout
