import Mathlib.Data.List.Infix
import Pinout.Text.Fields

/-! # Texts that lists and arrows leave whole

A text without blanks at its ends is not trimmed, and one without a separator is one part. Of a text
with several arrows the first one counts, so what stands before an arrow is found again if it has no
arrow itself.
-/

namespace Pinout.Text

theorem trimEnd_isPrefix (cs : List Char) : trimEnd cs <+: cs := by
  rw [trimEnd, ← List.reverse_suffix, List.reverse_reverse]
  exact List.dropWhile_suffix _

theorem trim_eq_self_iff {cs : List Char} : trim cs = cs ↔ trimStart cs = cs ∧ trimEnd cs = cs := by
  constructor
  · intro whole
    have front : trimStart cs <:+ cs := List.dropWhile_suffix _
    have back := (trimEnd_isPrefix (trimStart cs)).length_le
    rw [← trim, whole] at back
    have same := front.eq_of_length_le back
    rw [trim, same] at whole
    exact ⟨same, whole⟩
  · rintro ⟨front, back⟩
    rw [trim, front, back]

theorem trimStart_eq_self_iff {cs : List Char} :
    trimStart cs = cs ↔ ∀ c ∈ cs.head?, isBlank c = false := by
  cases cs with
  | nil => simp [trimStart]
  | cons c cs =>
    have first : (∀ d ∈ (c :: cs).head?, isBlank d = false) ↔ isBlank c = false := by simp
    rw [first, trimStart, List.dropWhile_cons]
    cases isBlank c with
    | false => simp
    | true =>
      -- without its first character the text is not as long
      have shorter := (List.dropWhile_suffix isBlank (l := cs)).length_le
      refine iff_of_false (fun same => ?_) (by decide)
      have length := congrArg List.length same
      simp only [if_true, List.length_cons] at length
      omega

theorem trimEnd_eq_self_iff {cs : List Char} :
    trimEnd cs = cs ↔ ∀ c ∈ cs.getLast?, isBlank c = false := by
  rw [trimEnd, List.reverse_eq_iff, ← List.head?_reverse]
  exact trimStart_eq_self_iff

theorem trim_of_visible {cs : List Char} (visible : ∀ c ∈ cs, isBlank c = false) : trim cs = cs :=
  trim_eq_self_iff.2
    ⟨trimStart_eq_self_iff.2 fun c first => visible c (List.mem_of_mem_head? first),
      trimEnd_eq_self_iff.2 fun c last => visible c (List.mem_of_getLast? last)⟩

theorem isBlank_of_mem_head?_trimStart {cs : List Char} {c : Char}
    (first : c ∈ (trimStart cs).head?) : isBlank c = false := by
  have visible := List.head?_dropWhile_not isBlank cs
  rw [trimStart] at first
  rw [Option.mem_def.1 first] at visible
  exact visible

theorem trim_trimStart (cs : List Char) : trim (trimStart cs) = trim cs := by
  have same : trimStart (trimStart cs) = trimStart cs :=
    trimStart_eq_self_iff.2 fun _ => isBlank_of_mem_head?_trimStart
  rw [trim, same, trim]

theorem trimEnd_trimEnd (cs : List Char) : trimEnd (trimEnd cs) = trimEnd cs := by
  rw [trimEnd_eq_self_iff]
  intro c last
  rw [trimEnd, List.getLast?_reverse] at last
  exact isBlank_of_mem_head?_trimStart last

theorem trim_trim (cs : List Char) : trim (trim cs) = trim cs := by
  refine trim_eq_self_iff.2 ⟨trimStart_eq_self_iff.2 fun c first => ?_,
    trimEnd_eq_self_iff.2 fun c last => ?_⟩
  · obtain ⟨rest, whole⟩ := trimEnd_isPrefix (trimStart cs)
    have kept : c ∈ (trimStart cs).head? := by
      rw [← whole, List.head?_append]
      exact Option.or_eq_some_iff.2 (.inl first)
    exact isBlank_of_mem_head?_trimStart kept
  · exact trimEnd_eq_self_iff.1 (trimEnd_trimEnd (trimStart cs)) c last

/-- Trimming at the beginning stops in front of a character that is not blank. -/
theorem trimStart_append_cons {c : Char} (visible : isBlank c = false) (front back : List Char) :
    trimStart (front ++ c :: back) = trimStart front ++ c :: back := by
  have stops : (c :: back).dropWhile isBlank = c :: back :=
    List.dropWhile_cons_of_neg (by simp [visible])
  rw [trimStart, List.dropWhile_append, stops, trimStart]
  split
  · next empty => rw [List.isEmpty_iff.1 empty, List.nil_append]
  · rfl

theorem trim_subset (cs : List Char) : trim cs ⊆ cs := fun _ member =>
  (List.dropWhile_suffix _).subset ((trimEnd_isPrefix (trimStart cs)).subset member)

theorem trimStart_append {front : List Char} (nonempty : front ≠ []) (trimmed : trim front = front)
    (back : List Char) : trimStart (front ++ back) = front ++ back := by
  have same : front.dropWhile isBlank = front := (trim_eq_self_iff.1 trimmed).1
  rw [trimStart, List.dropWhile_append, same, if_neg (by simpa using nonempty)]

theorem trimEnd_append {back : List Char} (nonempty : back ≠ []) (trimmed : trim back = back)
    (front : List Char) : trimEnd (front ++ back) = front ++ back := by
  have same : (back.reverse.dropWhile isBlank) = back.reverse :=
    List.reverse_eq_iff.1 (trim_eq_self_iff.1 trimmed).2
  rw [trimEnd, List.reverse_append, List.dropWhile_append, same, if_neg (by simpa using nonempty),
    ← List.reverse_append, List.reverse_reverse]

/-- Trimming at the end stops in front of a character that is not blank. -/
theorem trimEnd_append_cons {c : Char} (visible : isBlank c = false) (front back : List Char) :
    trimEnd (front ++ c :: back) = front ++ c :: trimEnd back := by
  have stops : (c :: front.reverse).dropWhile isBlank = c :: front.reverse :=
    List.dropWhile_cons_of_neg (by simp [visible])
  have reversed : (front ++ c :: back).reverse = back.reverse ++ c :: front.reverse := by simp
  rw [trimEnd, reversed, List.dropWhile_append, trimEnd]
  split
  · next empty => simp [stops, List.isEmpty_iff.1 empty]
  · simp

variable {separator : Char} {cs : List Char}

theorem splitAt_of_notMem (absent : separator ∉ cs) : splitAt separator cs = [cs] := by
  induction cs with
  | nil => rfl
  | cons c cs ih =>
    obtain ⟨other, absent⟩ := List.ne_and_not_mem_of_not_mem_cons absent
    rw [splitAt, if_neg (Ne.symm other), ih absent]
    rfl

theorem splitOnce?_of_notMem (absent : separator ∉ cs) : splitOnce? separator cs = none := by
  induction cs with
  | nil => rfl
  | cons c cs ih =>
    obtain ⟨other, absent⟩ := List.ne_and_not_mem_of_not_mem_cons absent
    rw [splitOnce?, if_neg (Ne.symm other), ih absent]
    rfl

theorem splitOnce?_append {before : List Char} (absent : separator ∉ before) (after : List Char) :
    splitOnce? separator (before ++ separator :: after) = some (before, after) := by
  induction before with
  | nil => exact if_pos rfl
  | cons c before ih =>
    obtain ⟨other, absent⟩ := List.ne_and_not_mem_of_not_mem_cons absent
    rw [List.cons_append, splitOnce?, if_neg (Ne.symm other), ih absent]
    rfl

structure CutAt (separator : Char) (before after cs : List Char) : Prop where
  whole : cs = before ++ separator :: after
  first : separator ∉ before

theorem splitOnce?_eq_none_iff : splitOnce? separator cs = none ↔ separator ∉ cs := by
  refine ⟨fun none member => ?_, splitOnce?_of_notMem⟩
  obtain ⟨before, after, rfl, absent⟩ := List.eq_append_cons_of_mem member
  cases (splitOnce?_append absent after).symm.trans none

theorem splitOnce?_eq_some_iff {before after : List Char} :
    splitOnce? separator cs = some (before, after) ↔ CutAt separator before after cs := by
  constructor
  · intro split
    have member : separator ∈ cs := by
      by_contra absent
      cases (splitOnce?_of_notMem absent).symm.trans split
    obtain ⟨front, back, rfl, absent⟩ := List.eq_append_cons_of_mem member
    cases (splitOnce?_append absent back).symm.trans split
    exact ⟨rfl, absent⟩
  · rintro ⟨rfl, absent⟩
    exact splitOnce?_append absent after

theorem items_of_notMem (absent : separator ∉ cs) (trimmed : trim cs = cs) (nonempty : cs ≠ []) :
    items separator cs = [cs] := by
  have kept : cs.isEmpty = false := by simpa using nonempty
  rw [items, splitAt_of_notMem absent, List.map_singleton, trimmed, List.filter_singleton, kept]
  rfl

theorem splitArrow?_cons {c : Char} (noArrow : ¬ ['-', '>'] <+: c :: cs) :
    splitArrow? (c :: cs) = (splitArrow? cs).map fun (before, after) => (c :: before, after) := by
  rw [splitArrow?]
  rintro rest rfl rfl
  exact noArrow (List.prefix_append ['-', '>'] rest)

theorem splitArrow?_append {before : List Char} (noArrow : ¬ ['-', '>'] <:+: before)
    (after : List Char) :
    splitArrow? (before ++ '-' :: '>' :: after) = some (before, after) := by
  induction before with
  | nil => rfl
  | cons c before ih =>
    rw [List.infix_cons_iff, not_or] at noArrow
    have next : ¬ ['-', '>'] <+: c :: (before ++ '-' :: '>' :: after) := by
      -- what follows the last character begins an arrow, so it does not end one
      cases before with
      | nil => simp
      | cons d before => simpa using noArrow.1
    rw [List.cons_append, splitArrow?_cons next, ih noArrow.2]
    rfl

end Pinout.Text
