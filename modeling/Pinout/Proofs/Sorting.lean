import Mathlib.Data.List.Basic

/-! # Stable rearrangements

A list is rearranged stably by a key when the keys do not fall and members with one key stay in the
order they had. Nothing else is left open, so sorting and leaving out members may change places.
-/

namespace Pinout

variable {α : Type}

/-- The second list is the first one in the order of a key, members with one key as they were. -/
structure StablySorted (key : α → String) (as bs : List α) : Prop where
  perm : bs.Perm as
  ordered : bs.Pairwise fun a b => key a ≤ key b
  stable (k : String) : bs.filter (key · = k) = as.filter (key · = k)

namespace StablySorted

variable {key : α → String} {as bs cs : List α}

/-- Lists in the order of a key are equal if they are so key by key. -/
theorem eq_of_ordered (ordered : bs.Pairwise fun a b => key a ≤ key b)
    (ordered' : cs.Pairwise fun a b => key a ≤ key b)
    (same : ∀ k, bs.filter (key · = k) = cs.filter (key · = k)) : bs = cs := by
  -- a member of one list is found in the other one, under its key
  have move {as bs : List α} (same : ∀ k, as.filter (key · = k) = bs.filter (key · = k)) {a : α}
      (member : a ∈ as) : a ∈ bs := by
    have inside : a ∈ as.filter (key · = key a) := List.mem_filter.2 ⟨member, by simp⟩
    rw [same] at inside
    exact (List.mem_filter.1 inside).1
  induction bs generalizing cs with
  | nil =>
    cases cs with
    | nil => rfl
    | cons c cs => exact absurd (move (fun k => (same k).symm) List.mem_cons_self) List.not_mem_nil
  | cons b bs ih =>
    cases cs with
    | nil => exact absurd (move same List.mem_cons_self) List.not_mem_nil
    | cons c cs =>
      obtain ⟨least, rest⟩ := List.pairwise_cons.1 ordered
      obtain ⟨least', rest'⟩ := List.pairwise_cons.1 ordered'
      have lower : key b ≤ key c := by
        rcases List.mem_cons.1 (move (fun k => (same k).symm) List.mem_cons_self) with rfl | member
        · exact String.le_refl _
        · exact least c member
      have upper : key c ≤ key b := by
        rcases List.mem_cons.1 (move same List.mem_cons_self) with rfl | member
        · exact String.le_refl _
        · exact least' b member
      have keys : key b = key c := String.le_antisymm lower upper
      have heads := same (key b)
      simp only [List.filter_cons, keys, decide_true, ↓reduceIte, List.cons.injEq] at heads
      obtain ⟨rfl, -⟩ := heads
      refine congrArg (b :: ·) (ih rest rest' fun k => ?_)
      have both := same k
      simp only [List.filter_cons] at both
      split at both
      · exact (List.cons.inj both).2
      · exact both

theorem unique (sorted : StablySorted key as bs) (sorted' : StablySorted key as cs) : bs = cs :=
  eq_of_ordered sorted.ordered sorted'.ordered fun k => (sorted.stable k).trans (sorted'.stable k).symm

theorem filter (sorted : StablySorted key as bs) (p : α → Bool) :
    StablySorted key (as.filter p) (bs.filter p) where
  perm := sorted.perm.filter p
  ordered := sorted.ordered.filter p
  stable k := by rw [List.filter_comm, sorted.stable k, List.filter_comm]

end StablySorted

theorem stablySorted_mergeSort (key : α → String) (as : List α) :
    StablySorted key as (as.mergeSort fun a b => key a ≤ key b) := by
  have trans (a b c : α) (h : decide (key a ≤ key b) = true) (h' : decide (key b ≤ key c) = true) :
      decide (key a ≤ key c) = true :=
    decide_eq_true (String.le_trans (of_decide_eq_true h) (of_decide_eq_true h'))
  have total (a b : α) : (decide (key a ≤ key b) || decide (key b ≤ key a)) = true := by
    simpa using String.le_total (key a) (key b)
  refine ⟨List.mergeSort_perm .., ?_, fun k => ?_⟩
  · exact (List.pairwise_mergeSort trans total as).imp of_decide_eq_true
  · -- members with one key are in order as they stand, so they are found in this order again
    have level : (as.filter (key · = k)).Pairwise fun a b => decide (key a ≤ key b) = true := by
      refine List.pairwise_of_forall_mem_list fun a member b member' => ?_
      have here := of_decide_eq_true (List.mem_filter.1 member).2
      have there := of_decide_eq_true (List.mem_filter.1 member').2
      exact decide_eq_true (here ▸ there ▸ String.le_refl _)
    have kept := (List.sublist_mergeSort trans total level List.filter_sublist).filter (key · = k)
    simp only [List.filter_filter, Bool.and_self] at kept
    refine (kept.eq_of_length_le ?_).symm
    exact Nat.le_of_eq ((List.mergeSort_perm as _).filter _).length_eq

end Pinout
