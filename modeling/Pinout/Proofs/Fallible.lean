import Mathlib.Data.List.Forall2

/-! # Lists worked off member by member

A list of steps that may fail is worked off up to the first failure.
-/

namespace Pinout

variable {ε α β γ : Type}

/-- A relation that is a function relates lists as mapping does. -/
theorem forall₂_iff_map_eq {r : α → β → Prop} {f : α → β}
    (same : ∀ a b, r a b ↔ f a = b) {as : List α} {bs : List β} :
    List.Forall₂ r as bs ↔ as.map f = bs := by
  have function : r = fun a b => f a = b := funext fun a => funext fun b => propext (same a b)
  rw [function, ← List.forall₂_map_left_iff (R := (· = ·)), List.forall₂_eq_eq_eq]

theorem mapM_eq_ok_iff {f : α → Except ε β} {as : List α} {bs : List β} :
    as.mapM f = .ok bs ↔ List.Forall₂ (fun a b => f a = .ok b) as bs := by
  induction as generalizing bs with
  | nil =>
    rw [List.forall₂_nil_left_iff]
    exact ⟨fun h => (Except.ok.inj h).symm, fun h => by rw [h]; rfl⟩
  | cons a as ih =>
    rw [List.mapM_cons, List.forall₂_cons_left_iff]
    cases first : f a with
    | error error =>
      constructor
      · exact nofun
      · rintro ⟨b, bs, here, -⟩
        cases here
    | ok b =>
      cases others : as.mapM f with
      | error error =>
        constructor
        · exact nofun
        · rintro ⟨b', bs', -, rest, -⟩
          cases others.symm.trans (ih.2 rest)
      | ok bs' =>
        constructor
        · intro h
          exact ⟨b, bs', rfl, ih.1 others, (Except.ok.inj h).symm⟩
        · rintro ⟨b', bs'', here, rest, rfl⟩
          cases here
          cases others.symm.trans (ih.2 rest)
          rfl

/-- Some member fails if and only if the list does. -/
theorem mapM_eq_error_iff {f : α → Except ε β} {as : List α} :
    (∃ error, as.mapM f = .error error) ↔ ∃ a ∈ as, ∃ error, f a = .error error := by
  induction as with
  | nil =>
    constructor
    · rintro ⟨error, h⟩
      cases h
    · rintro ⟨a, member, -⟩
      cases member
  | cons a as ih =>
    rw [List.mapM_cons, List.exists_mem_cons_iff, ← ih]
    cases first : f a with
    | error error => exact ⟨fun _ => .inl ⟨error, rfl⟩, fun _ => ⟨error, rfl⟩⟩
    | ok b =>
      cases others : as.mapM f with
      | error error => exact ⟨fun _ => .inr ⟨error, rfl⟩, fun _ => ⟨error, rfl⟩⟩
      | ok bs =>
        constructor
        · rintro ⟨error, h⟩
          cases h
        · rintro (⟨error, h⟩ | ⟨error, h⟩) <;> cases h

theorem mem_iff_of_mapM {f : α → Except ε β} {as : List α} {bs : List β} (h : as.mapM f = .ok bs)
    {b : β} : b ∈ bs ↔ ∃ a ∈ as, f a = .ok b := by
  induction mapM_eq_ok_iff.1 h with
  | nil => simp
  | cons here rest ih =>
    rw [List.mem_cons, List.exists_mem_cons_iff, ih (mapM_eq_ok_iff.2 rest), here,
      Except.ok.injEq, eq_comm]

theorem mapM_map (f : α → Except ε β) (g : β → γ) (as : List α) :
    as.mapM (fun a => (f a).map g) = (as.mapM f).map (List.map g) := by
  induction as with
  | nil => rfl
  | cons a as ih =>
    rw [List.mapM_cons, List.mapM_cons, ih]
    cases f a with
    | error error => rfl
    | ok b => cases as.mapM f <;> rfl

end Pinout
