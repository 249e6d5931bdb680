import Pinout.Proofs.Text.Fields

/-! # Pieces of a text

A separator cuts a text into pieces that do not hold it, and into no others. Blanks at the ends of a
text stand at an end of a piece, so pieces that are trimmed do not show whether the text was. The
first arrow of a text is the one that no other stands in front of.
-/

namespace Pinout.Text

theorem trimStart_cons (c : Char) (cs : List Char) :
    trimStart (c :: cs) = if isBlank c then trimStart cs else c :: cs :=
  List.dropWhile_cons

theorem trimEnd_cons (c : Char) (cs : List Char) :
    trimEnd (c :: cs) = if trimEnd cs = [] ∧ isBlank c then [] else c :: trimEnd cs := by
  simp only [trimEnd, List.reverse_cons, List.dropWhile_append, List.isEmpty_iff,
    List.reverse_eq_nil_iff]
  by_cases empty : cs.reverse.dropWhile isBlank = []
  · by_cases blank : isBlank c <;> simp [empty, blank]
  · simp [empty]

/-- It does not matter which end is trimmed first. -/
theorem trim_eq (cs : List Char) : trim cs = trimStart (trimEnd cs) := by
  rw [trim]
  induction cs with
  | nil => rfl
  | cons c cs ih =>
    cases blank : isBlank c with
    | true =>
      have front : trimStart (trimEnd (c :: cs)) = trimStart (trimEnd cs) := by
        rw [trimEnd_cons]
        split
        · next empty => rw [empty.1]
        · rw [trimStart_cons, if_pos blank]
      rw [trimStart_cons, if_pos blank, ih, front]
    | false => simp [trimStart_cons, trimEnd_cons, blank]

theorem trim_trimEnd (cs : List Char) : trim (trimEnd cs) = trim cs := by
  rw [trim_eq, trimEnd_trimEnd, trim_eq]

/-- The pieces of a text between the occurrences of a separator. -/
structure Pieces (separator : Char) (pieces : List (List Char)) (cs : List Char) : Prop where
  nonempty : pieces ≠ []
  whole : [separator].intercalate pieces = cs
  apart : ∀ piece ∈ pieces, separator ∉ piece

variable {separator : Char} {cs : List Char}

theorem splitAt_eq_splitOn (separator : Char) (cs : List Char) :
    splitAt separator cs = cs.splitOn separator := by
  induction cs with
  | nil => rfl
  | cons c cs ih =>
    rw [splitAt, ih, List.splitOn_eq_splitOnP, List.splitOn_eq_splitOnP,
      List.splitOnP_cons_eq_if_modifyHead]
    simp only [beq_iff_eq]

theorem notMem_of_mem_splitAt {piece : List Char} (member : piece ∈ splitAt separator cs) :
    separator ∉ piece := by
  induction cs generalizing piece with
  | nil =>
    rw [List.mem_singleton.1 member]
    exact List.not_mem_nil
  | cons c cs ih =>
    rw [splitAt] at member
    split at member
    · rcases List.mem_cons.1 member with rfl | member
      · exact List.not_mem_nil
      · exact ih member
    · next other =>
      cases split : splitAt separator cs with
      | nil =>
        rw [split] at member
        cases member
      | cons first pieces =>
        rw [split, List.modifyHead_cons] at member
        rcases List.mem_cons.1 member with rfl | member
        · have absent : separator ∉ first := ih (split ▸ List.mem_cons_self)
          exact List.not_mem_cons_of_ne_of_not_mem (Ne.symm other) absent
        · exact ih (split ▸ List.mem_cons_of_mem first member)

/-- A text is cut in one way. -/
theorem pieces_iff {pieces : List (List Char)} :
    Pieces separator pieces cs ↔ splitAt separator cs = pieces := by
  constructor
  · rintro ⟨nonempty, rfl, apart⟩
    rw [splitAt_eq_splitOn, List.splitOn_intercalate separator apart nonempty]
  · rintro rfl
    refine ⟨?_, ?_, fun piece => notMem_of_mem_splitAt⟩
    · rw [splitAt_eq_splitOn]
      exact List.splitOn_ne_nil separator cs
    · rw [splitAt_eq_splitOn, List.intercalate_splitOn]

section

variable (visible : isBlank separator = false)
include visible

theorem map_trim_splitAt_trimStart (cs : List Char) :
    (splitAt separator (trimStart cs)).map trim = (splitAt separator cs).map trim := by
  induction cs with
  | nil => rfl
  | cons c cs ih =>
    rw [trimStart_cons]
    split
    · next blank =>
      have other : c ≠ separator := by
        rintro rfl
        rw [visible] at blank
        cases blank
      have front (piece : List Char) : trim (c :: piece) = trim piece := by
        rw [trim, trimStart_cons, if_pos blank, trim]
      rw [ih, splitAt, if_neg other]
      cases splitAt separator cs with
      | nil => rfl
      | cons first pieces => rw [List.modifyHead_cons, List.map_cons, List.map_cons, front]
    · rfl

theorem map_trimEnd_splitAt_trimEnd (cs : List Char) :
    (splitAt separator (trimEnd cs)).map trimEnd = (splitAt separator cs).map trimEnd := by
  induction cs with
  | nil => rfl
  | cons c cs ih =>
    have longer {pieces pieces' : List (List Char)} (same : pieces.map trimEnd = pieces'.map trimEnd) :
        (pieces.modifyHead (c :: ·)).map trimEnd = (pieces'.modifyHead (c :: ·)).map trimEnd := by
      cases pieces with
      | nil =>
        cases List.map_eq_nil_iff.1 same.symm
        rfl
      | cons piece pieces =>
        obtain ⟨piece', pieces', rfl, here, others⟩ := List.map_eq_cons_iff.1 same.symm
        simp only [List.modifyHead_cons, List.map_cons, trimEnd_cons, here, others]
    rw [trimEnd_cons]
    split
    · next empty =>
      have other : c ≠ separator := by
        rintro rfl
        rw [visible] at empty
        cases empty.2
      -- all of the text is blank, so it is one piece
      rw [empty.1] at ih
      rw [splitAt, splitAt, if_neg other, ← longer ih]
      simp [splitAt, trimEnd, empty.2]
    · rw [splitAt, splitAt]
      split
      · rw [List.map_cons, List.map_cons, ih]
      · exact longer ih

/-- Where items are trimmed, the blanks around a list do not matter. -/
theorem items_trim (cs : List Char) : items separator (trim cs) = items separator cs := by
  have trims : trim = trimStart ∘ trimEnd := funext trim_eq
  have back := congrArg (List.map trimStart) (map_trimEnd_splitAt_trimEnd visible (trimStart cs))
  rw [List.map_map, List.map_map, ← trims] at back
  rw [items, items, trim, back, map_trim_splitAt_trimStart visible]

end

theorem splitArrow?_eq_none_iff : splitArrow? cs = none ↔ ¬ ['-', '>'] <:+: cs := by
  constructor
  · intro none arrow
    fun_induction splitArrow? cs with
    | case1 => cases arrow.length_le
    | case2 => cases none
    | case3 c cs noArrow ih =>
      rcases List.infix_cons_iff.1 arrow with front | behind
      · obtain ⟨rest, split⟩ := front
        cases split
        exact noArrow rest rfl rfl
      · exact ih (Option.map_eq_none_iff.1 none) behind
  · intro noArrow
    induction cs with
    | nil => rfl
    | cons c cs ih =>
      rw [List.infix_cons_iff, not_or] at noArrow
      rw [splitArrow?_cons noArrow.1, ih noArrow.2, Option.map_none]

theorem splitArrow?_eq_some_iff {before after : List Char} :
    splitArrow? cs = some (before, after) ↔
      cs = before ++ '-' :: '>' :: after ∧ ¬ ['-', '>'] <:+: before := by
  constructor
  · intro arrow
    fun_induction splitArrow? cs generalizing before with
    | case1 => cases arrow
    | case2 cs =>
      cases arrow
      exact ⟨rfl, by simp⟩
    | case3 c cs noArrow ih =>
      obtain ⟨⟨before, after⟩, behind, same⟩ := Option.map_eq_some_iff.1 arrow
      cases same
      obtain ⟨rfl, noArrow'⟩ := ih behind
      refine ⟨rfl, ?_⟩
      rw [List.infix_cons_iff, not_or]
      refine ⟨?_, noArrow'⟩
      rintro ⟨rest, split⟩
      obtain ⟨rfl, rfl⟩ := List.cons.inj split
      exact noArrow _ rfl rfl
  · rintro ⟨rfl, noArrow⟩
    exact splitArrow?_append noArrow after

/-- Of a text with an arrow, each end is trimmed on its side. -/
theorem trim_append_arrow (before after : List Char) :
    trim (before ++ '-' :: '>' :: after) = trimStart before ++ '-' :: '>' :: trimEnd after := by
  have front : trimStart (before ++ '-' :: '>' :: after) =
      (trimStart before ++ ['-']) ++ '>' :: after := by
    rw [trimStart_append_cons (by decide), List.append_assoc]
    rfl
  rw [trim, front, trimEnd_append_cons (by decide), List.append_assoc]
  rfl

theorem trim_isInfix (cs : List Char) : trim cs <:+: cs :=
  (trimEnd_isPrefix _).isInfix.trans (List.dropWhile_suffix _).isInfix

end Pinout.Text
