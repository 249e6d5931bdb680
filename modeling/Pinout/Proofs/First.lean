import Mathlib.Data.List.Induction
import Mathlib.Data.List.Nodup

/-! # First members of a list

Where several members of a list have one key, the first of them is kept. So the keys that are left
stand in the order in which they first appear.
-/

namespace Pinout

variable {α β : Type}

def IsFirst (p : α → Prop) (as : List α) (a : α) : Prop :=
  ∃ before after, as = before ++ a :: after ∧ p a ∧ ∀ b ∈ before, ¬ p b

theorem IsFirst.mem {p : α → Prop} {as : List α} {a : α} (first : IsFirst p as a) : a ∈ as := by
  obtain ⟨before, after, rfl, -⟩ := first
  simp

theorem isFirst_cons_iff {p : α → Prop} {as : List α} {a b : α} :
    IsFirst p (b :: as) a ↔ p b ∧ a = b ∨ ¬ p b ∧ IsFirst p as a := by
  constructor
  · rintro ⟨before, after, split, here, others⟩
    cases before with
    | nil =>
      cases split
      exact .inl ⟨here, rfl⟩
    | cons c before =>
      cases split
      obtain ⟨apart, others⟩ := List.forall_mem_cons.1 others
      exact .inr ⟨apart, before, after, rfl, here, others⟩
  · rintro (⟨here, rfl⟩ | ⟨apart, before, after, rfl, here, others⟩)
    · exact ⟨[], as, rfl, here, nofun⟩
    · exact ⟨b :: before, after, rfl, here, List.forall_mem_cons.2 ⟨apart, others⟩⟩

theorem isFirst_iff_find? {p : α → Prop} [DecidablePred p] {as : List α} {a : α} :
    IsFirst p as a ↔ as.find? (p ·) = some a := by
  simp only [IsFirst, List.find?_eq_some_iff_append, decide_eq_true_iff, Bool.not_eq_true',
    decide_eq_false_iff_not]
  exact ⟨fun ⟨before, after, split, here, others⟩ => ⟨here, before, after, split, others⟩,
    fun ⟨here, before, after, split, others⟩ => ⟨before, after, split, here, others⟩⟩

theorem IsFirst.unique {p : α → Prop} {as : List α} {a b : α} (first : IsFirst p as a)
    (first' : IsFirst p as b) : a = b := by
  classical exact Option.some.inj ((isFirst_iff_find?.1 first).symm.trans (isFirst_iff_find?.1 first'))

/-- Members that are not as described can be left out. -/
theorem isFirst_filter_iff {p : α → Prop} {q : α → Bool} (kept : ∀ a, p a → q a = true)
    {as : List α} {a : α} : IsFirst p (as.filter q) a ↔ IsFirst p as a := by
  induction as with
  | nil => exact Iff.rfl
  | cons b as ih =>
    by_cases here : q b = true
    · rw [List.filter_cons_of_pos here, isFirst_cons_iff, isFirst_cons_iff, ih]
    · have apart : ¬ p b := fun described => here (kept b described)
      simp [List.filter_cons_of_neg here, isFirst_cons_iff, ih, apart]

/-- What appears earlier among the values of the members appears earlier in the list. -/
theorem findIdx_lt_of_idxOf_filterMap_lt [BEq β] {f : α → Option β} {as : List α} {x y : β}
    (earlier : (as.filterMap f).idxOf x < (as.filterMap f).idxOf y) :
    as.findIdx (f · == some x) < as.findIdx (f · == some y) := by
  induction as with
  | nil => cases earlier
  | cons a as ih =>
    rw [List.findIdx_cons, List.findIdx_cons]
    cases value : f a with
    | none =>
      rw [List.filterMap_cons_none value] at earlier
      exact Nat.succ_lt_succ (ih earlier)
    | some b =>
      rw [List.filterMap_cons_some value, List.idxOf_cons, List.idxOf_cons] at earlier
      rw [Option.some_beq_some, Option.some_beq_some]
      cases here : b == x with
      | true =>
        cases there : b == y with
        | true => simp [here, there] at earlier
        | false => exact Nat.succ_pos _
      | false =>
        cases there : b == y with
        | true => simp [there] at earlier
        | false =>
          rw [here, there] at earlier
          exact Nat.succ_lt_succ (ih (Nat.lt_of_succ_lt_succ earlier))

theorem mem_of_mem_eraseDupsBy {r : α → α → Bool} {as : List α} {a : α}
    (member : a ∈ as.eraseDupsBy r) : a ∈ as := by
  -- erasing shortens the tail, so the induction is on the length
  induction h : as.length using Nat.strongRecOn generalizing as with
  | ind n ih =>
    cases as with
    | nil => exact member
    | cons b as =>
      rw [List.eraseDupsBy_cons] at member
      rcases List.mem_cons.1 member with rfl | member
      · exact List.mem_cons_self
      · have shorter := List.length_filter_le (fun c => r c b = false) as
        rw [List.length_cons] at h
        have kept := ih _ (by omega) member rfl
        exact List.mem_cons_of_mem b (List.mem_filter.1 kept).1

theorem eraseDupsBy_map (f : α → β) (r : β → β → Bool) (as : List α) :
    (as.map f).eraseDupsBy r = (as.eraseDupsBy fun a b => r (f a) (f b)).map f := by
  induction h : as.length using Nat.strongRecOn generalizing as with
  | ind n ih =>
    cases as with
    | nil => rfl
    | cons a as =>
      rw [List.map_cons, List.eraseDupsBy_cons, List.eraseDupsBy_cons, List.map_cons,
        List.filter_map]
      have shorter : (as.filter fun b => r (f b) (f a) = false).length < n := by
        have := List.length_filter_le (fun b => r (f b) (f a) = false) as
        simp only [List.length_cons] at h
        omega
      exact congrArg _ (ih _ shorter _ rfl)

section

variable [BEq β] [LawfulBEq β]

theorem eraseDups_concat (bs : List β) (b : β) :
    (bs ++ [b]).eraseDups =
      if b ∈ bs.eraseDups then bs.eraseDups else bs.eraseDups ++ [b] := by
  rw [List.eraseDups_append]
  by_cases member : b ∈ bs <;> simp [List.removeAll, List.eraseDups_cons, member]

/-- What is left stands in the order in which it first appeared. -/
theorem pairwise_eraseDups (bs : List β) :
    bs.eraseDups.Pairwise fun x y => bs.idxOf x < bs.idxOf y := by
  induction bs using List.reverseRecOn with
  | nil => exact .nil
  | append_singleton bs b ih =>
    have place {c : β} (member : c ∈ bs.eraseDups) : (bs ++ [b]).idxOf c = bs.idxOf c :=
      List.idxOf_append_of_mem (List.mem_eraseDups.1 member)
    have before : bs.eraseDups.Pairwise fun x y => (bs ++ [b]).idxOf x < (bs ++ [b]).idxOf y :=
      ih.imp_of_mem fun here there earlier => by rwa [place here, place there]
    rw [eraseDups_concat]
    split
    · exact before
    · next fresh =>
      -- a new member first appears behind all others
      refine List.pairwise_append.2 ⟨before, List.pairwise_singleton .., fun c member d last => ?_⟩
      have absent : b ∉ bs := fun inside => fresh (List.mem_eraseDups.2 inside)
      rw [List.mem_singleton.1 last, place member, List.idxOf_append_of_notMem absent,
        List.idxOf_cons_self, Nat.add_zero]
      exact List.idxOf_lt_length_of_mem (List.mem_eraseDups.1 member)

theorem nodup_eraseDups (bs : List β) : bs.eraseDups.Nodup :=
  (pairwise_eraseDups bs).imp fun earlier same => Nat.ne_of_lt earlier (congrArg bs.idxOf same)

theorem eraseDups_of_nodup {bs : List β} (distinct : bs.Nodup) : bs.eraseDups = bs := by
  induction bs using List.reverseRecOn with
  | nil => rfl
  | append_singleton bs b ih =>
    rw [← List.concat_eq_append, List.nodup_concat] at distinct
    rw [eraseDups_concat, ih distinct.2, if_neg distinct.1]

/-- Where the first member of each key is kept, keys stand in the order in which they first
appeared. -/
theorem pairwise_eraseDupsBy (key : α → β) (as : List α) :
    (as.eraseDupsBy fun a b => key a == key b).Pairwise fun a b =>
      (as.map key).idxOf (key a) < (as.map key).idxOf (key b) := by
  have keys := pairwise_eraseDups (as.map key)
  rw [List.eraseDups, eraseDupsBy_map] at keys
  exact List.pairwise_map (f := key).1 keys

/-- Where the first member of each key is kept, it is kept as it is. -/
theorem mem_eraseDupsBy_iff (key : α → β) {as : List α} {a : α} :
    a ∈ as.eraseDupsBy (fun a b => key a == key b) ↔ IsFirst (key · = key a) as a := by
  -- erasing shortens the tail, so the induction is on the length
  induction h : as.length using Nat.strongRecOn generalizing as with
  | ind n ih =>
    cases as with
    | nil => simp [IsFirst]
    | cons b as =>
      have shorter := List.length_filter_le (fun c => (key c == key b) = false) as
      rw [List.length_cons] at h
      rw [List.eraseDupsBy_cons, List.mem_cons, ih _ (by omega) rfl, isFirst_cons_iff]
      by_cases same : key b = key a
      · -- of the other members none has the key
        have missed : ¬ IsFirst (key · = key a)
            (as.filter fun c => (key c == key b) = false) a := fun first => by
          simpa [same] using (List.mem_filter.1 first.mem).2
        rw [or_iff_left missed]
        simp [same]
      · have differs : a ≠ b := fun h => same (congrArg key h.symm)
        rw [isFirst_filter_iff fun c here => by simpa [here] using Ne.symm same]
        simp [same, differs]

/-- A member behind a list is kept unless its key is there already. -/
theorem eraseDupsBy_concat (key : α → β) (as : List α) (a : α) :
    (as ++ [a]).eraseDupsBy (fun a b => key a == key b) =
      if (as.eraseDupsBy fun a b => key a == key b).any (key · == key a) then
        as.eraseDupsBy fun a b => key a == key b
      else
        (as.eraseDupsBy fun a b => key a == key b) ++ [a] := by
  -- erasing shortens the tail, so the induction is on the length
  induction h : as.length using Nat.strongRecOn generalizing as with
  | ind n ih =>
    cases as with
    | nil => simp [List.eraseDupsBy_cons]
    | cons b as =>
      have shorter := List.length_filter_le (fun c => (key c == key b) = false) as
      rw [List.length_cons] at h
      rw [List.cons_append, List.eraseDupsBy_cons, List.eraseDupsBy_cons, List.filter_append,
        List.any_cons]
      by_cases same : key b = key a
      · simp [same]
      · have other : [a].filter (fun c => (key c == key b) = false) = [a] :=
          List.filter_cons_of_pos (by simp [Ne.symm same])
        rw [other, ih _ (by omega) _ rfl, beq_false_of_ne same, Bool.false_or]
        split <;> rfl

theorem exists_mem_eraseDupsBy (key : α → β) {as : List α} {a : α} (member : a ∈ as) :
    ∃ b ∈ as.eraseDupsBy (fun a b => key a == key b), key b = key a := by
  have kept : key a ∈ (as.map key).eraseDups := List.mem_eraseDups.2 (List.mem_map_of_mem member)
  rw [List.eraseDups, eraseDupsBy_map] at kept
  exact List.mem_map.1 kept

end

end Pinout
