import Mathlib.Data.List.Nodup
import Mathlib.Data.List.Pairwise

/-! # Last and only members of a list

Where several members of a list are alike the last one counts, so lists are searched from the end.
A member that is like no other one is found wherever it stands.
-/

namespace Pinout

variable {α β : Type}

def IsLast (p : α → Prop) (as : List α) (a : α) : Prop :=
  ∃ before after, as = before ++ a :: after ∧ p a ∧ ∀ b ∈ after, ¬ p b

theorem isLast_iff_find? {p : α → Prop} {q : α → Bool} (same : ∀ a, q a = true ↔ p a)
    {as : List α} {a : α} : IsLast p as a ↔ as.reverse.find? q = some a := by
  simp only [List.find?_eq_some_iff_append, IsLast, ← same]
  constructor
  · rintro ⟨before, after, rfl, here, others⟩
    refine ⟨here, after.reverse, before.reverse, by simp, fun b member => ?_⟩
    simpa using others b (List.mem_reverse.1 member)
  · rintro ⟨here, after, before, split, others⟩
    refine ⟨before.reverse, after.reverse, ?_, here, fun b member => ?_⟩
    · rw [← List.reverse_reverse as, split]
      simp
    · simpa using others b (List.mem_reverse.1 member)

theorem IsLast.unique {p : α → Prop} {as : List α} {a b : α} (last : IsLast p as a)
    (last' : IsLast p as b) : a = b := by
  classical
  have same (c : α) : decide (p c) = true ↔ p c := decide_eq_true_iff
  exact Option.some.inj (((isLast_iff_find? same).1 last).symm.trans ((isLast_iff_find? same).1 last'))

/-- The last member among those of several lists is in the last list that has one. -/
theorem isLast_flatMap_iff {p : β → Prop} [DecidablePred p] {f : α → List β} {as : List α} {b : β} :
    IsLast p (as.flatMap f) b ↔ ∃ a, IsLast (fun a => ∃ b ∈ f a, p b) as a ∧ IsLast p (f a) b := by
  have same (b : β) : decide (p b) = true ↔ p b := decide_eq_true_iff
  have none (a : α) :
      (f a).reverse.find? (fun b => decide (p b)) = none ↔ ¬ ∃ b ∈ f a, p b := by
    simp
  simp only [isLast_iff_find? same, List.reverse_flatMap, List.find?_flatMap, Function.comp_apply,
    List.findSome?_eq_some_iff, none]
  constructor
  · rintro ⟨after, a, before, split, here, others⟩
    refine ⟨a, ⟨before.reverse, after.reverse, ?_, ?_, ?_⟩, here⟩
    · rw [← List.reverse_reverse as, split]
      simp
    · exact ⟨b, List.mem_reverse.1 (List.mem_of_find?_eq_some here),
        (same b).1 (List.find?_some (p := fun b => decide (p b)) here)⟩
    · exact fun a' member => others a' (List.mem_reverse.1 member)
  · rintro ⟨a, ⟨before, after, rfl, -, others⟩, here⟩
    exact ⟨after.reverse, a, before.reverse, by simp, here,
      fun a' member => others a' (List.mem_reverse.1 member)⟩

theorem find?_reverse_cons_of_mem {p : α → Bool} (a : α) {b : α} {as : List α} (member : b ∈ as)
    (here : p b = true) : (a :: as).reverse.find? p = as.reverse.find? p := by
  rw [List.reverse_cons, List.find?_append, Option.or_of_isSome]
  exact List.find?_isSome.2 ⟨b, List.mem_reverse.2 member, here⟩

theorem find?_reverse_of_only {p : α → Bool} {as : List α} {a : α} (member : a ∈ as)
    (here : p a = true) (only : ∀ b ∈ as, p b = true → b = a) :
    as.reverse.find? p = some a := by
  cases found : as.reverse.find? p with
  | none => exact absurd here (List.find?_eq_none.1 found a (List.mem_reverse.2 member))
  | some b =>
    have member' := List.mem_reverse.1 (List.mem_of_find?_eq_some found)
    rw [only b member' (List.find?_some found)]

/-- Members of a list that differ pairwise in some respect are equal where they agree in it. -/
theorem eq_of_pairwise_not {r : α → α → Prop} {as : List α}
    (apart : as.Pairwise fun a b => ¬ r a b) (symm : ∀ a b, r a b → r b a) {a b : α}
    (here : a ∈ as) (there : b ∈ as) (h : r a b) : a = b := by
  have : Std.Symm fun a b => ¬ r a b := ⟨fun a b h h' => h (symm b a h')⟩
  by_contra different
  exact apart.forall here there different h

/-- Members of a list for which one value is kept are equal where no value is kept twice. -/
theorem eq_of_nodup_filterMap {f : α → Option β} {as : List α} (nodup : (as.filterMap f).Nodup)
    {a a' : α} {b : β} (here : a ∈ as) (there : a' ∈ as) (kept : f a = some b)
    (kept' : f a' = some b) : a = a' := by
  rw [List.Nodup, List.pairwise_filterMap] at nodup
  let agree (a a' : α) : Prop := ∃ b, f a = some b ∧ f a' = some b
  refine eq_of_pairwise_not (r := agree) (nodup.imp ?_) ?_ here there ⟨b, kept, kept'⟩
  · rintro a a' apart ⟨b, here, there⟩
    exact apart b here b there rfl
  · rintro a a' ⟨b, here, there⟩
    exact ⟨b, there, here⟩

section

variable {f : α → Option β} (named : α → α → Bool) (self : ∀ a, named a a = true)
include self

theorem first_keeps_own_iff {a : α} {as : List α} (nodup : ((a :: as).filterMap f).Nodup) :
    (∀ b, f a = some b → ((a :: as).reverse.find? (named a)).bind f = some b) ↔
      ∀ a' ∈ as, (f a).isSome → ¬ named a a' := by
  constructor
  · intro own a' member kept same
    obtain ⟨b, here⟩ := Option.isSome_iff_exists.1 kept
    rw [List.filterMap_cons_some here, List.nodup_cons] at nodup
    have there := own b here
    rw [find?_reverse_cons_of_mem a member same] at there
    obtain ⟨last, found, here'⟩ := Option.bind_eq_some_iff.1 there
    have behind := List.mem_reverse.1 (List.mem_of_find?_eq_some found)
    exact nodup.1 (List.mem_filterMap.2 ⟨last, behind, here'⟩)
  · intro apart b here
    have missed : as.reverse.find? (named a) = none :=
      List.find?_eq_none.2 fun a' member =>
        apart a' (List.mem_reverse.1 member) (Option.isSome_iff_exists.2 ⟨b, here⟩)
    rw [List.reverse_cons, List.find?_append, missed, Option.none_or, List.find?_singleton, self,
      if_pos rfl, Option.bind_some, here]

/-- Where no value is kept twice, every value is kept by the last member called like its own one
exactly where no member with a value has a later one called like it. -/
theorem last_keeps_own_iff {as : List α} (nodup : (as.filterMap f).Nodup) :
    (∀ a ∈ as, ∀ b, f a = some b → (as.reverse.find? (named a)).bind f = some b) ↔
      as.Pairwise fun a a' => (f a).isSome → ¬ named a a' := by
  induction as with
  | nil => simp
  | cons a as ih =>
    have nodup' : (as.filterMap f).Nodup :=
      nodup.sublist ((List.sublist_cons_self a as).filterMap f)
    rw [List.forall_mem_cons, List.pairwise_cons, first_keeps_own_iff named self nodup, ← ih nodup']
    refine and_congr_right fun _ => forall₂_congr fun a' member => ?_
    rw [find?_reverse_cons_of_mem a member (self a')]

end

end Pinout
