import Pinout.Proofs.BusRange.Bounds
import Pinout.Proofs.Text.Fields

/-! # Ranges as they are displayed

A displayed range is read back with its bounds, whatever they are, and with its name trimmed. Names
in front of a bracket and names of whole buses are trimmed when they are first read. A name in front
of the letter of a half is not, so it is not read back if it ends in a blank.
-/

namespace Pinout.BusRange

open Text

/-- The first pin of the half that a letter behind a name chooses. -/
def halfStart? (c : Char) : Option Int64 :=
  if c = 'l' ∨ c = 'L' then some 0 else if c = 'h' ∨ c = 'H' then some 8 else none

theorem ofBare_concat (front : List Char) (c : Char) :
    ofBare (front ++ [c]) =
      match halfStart? c with
      | some first => ⟨.ofList front, first, first + 7⟩
      | none => whole (.ofList (front ++ [c])) := by
  rw [ofBare, List.getLast?_concat, List.dropLast_concat]
  split
  · next half => cases half; rfl
  · next half => cases half; rfl
  · next half => cases half; rfl
  · next half => cases half; rfl
  · next l L h H =>
    have none : halfStart? c = none := by
      simp_all [halfStart?]
    rw [none]

theorem parse_of_notMem {source : String} (noBracket : '[' ∉ trim source.toList) :
    parse source = .ok (ofBare (trim source.toList)) := by
  rw [parse, splitOnce?_of_notMem noBracket]

theorem visible_of_mem_decimalChars {c : Char} (member : c ∈ decimalChars) :
    isBlank c = false := by
  have all : decimalChars.all (!isBlank ·) = true := by decide
  simpa using List.all_eq_true.1 all c member

theorem parseBound_toString (text : String) (bound : Int64) :
    parseBound text (toString bound.toInt).toList = .ok bound := by
  have visible : ∀ c ∈ (toString bound.toInt).toList, isBlank c = false := fun _ member =>
    visible_of_mem_decimalChars (mem_decimalChars_of_mem_toString bound.toInt member)
  rw [parseBound, trim_of_visible visible, bound?_toString]

theorem notMem_toString {c : Char} (other : c ∉ decimalChars) (bound : Int64) :
    c ∉ (toString bound.toInt).toList :=
  fun member => other (mem_decimalChars_of_mem_toString bound.toInt member)

/-- A displayed range is read with its name trimmed. -/
theorem parse_display {range : BusRange} (noBracket : '[' ∉ range.name.toList) :
    parse range.display = .ok { range with name := trimmed range.name } := by
  obtain ⟨name, first, last⟩ := range
  let inner := (toString first.toInt).toList ++ ':' :: (toString last.toInt).toList
  have chars : (display ⟨name, first, last⟩).toList = name.toList ++ '[' :: (inner ++ [']']) := by
    simp [display, inner]
  have trimmed : trim (display ⟨name, first, last⟩).toList =
      trimStart name.toList ++ '[' :: (inner ++ [']']) := by
    rw [chars, trim, trimStart_append_cons rfl, List.append_cons, ← List.append_assoc,
      trimEnd_append_cons rfl]
    rfl
  have absent : '[' ∉ trimStart name.toList := fun member =>
    noBracket ((List.dropWhile_suffix _).subset member)
  have noClosing : ']' ∉ inner := by
    have absent := notMem_toString (c := ']') (by decide)
    rw [List.mem_append, List.mem_cons]
    rintro (member | colon | member)
    · exact absent first member
    · cases colon
    · exact absent last member
  have noColon : ':' ∉ (toString first.toInt).toList := notMem_toString (by decide) first
  rw [parse, trimmed, splitOnce?_append absent]
  simp only [splitOnce?_append noClosing, inner, splitOnce?_append noColon, parseBound_toString,
    trim_trimStart]
  rfl

/-- A text without a bracket that has a blank in front of the letter of a half. -/
def HalfApart (source : String) : Prop :=
  '[' ∉ trim source.toList ∧
    ∃ front half, trim source.toList = front ++ [half] ∧ (halfStart? half).isSome = true ∧
      front.getLast?.any isBlank = true

theorem name_of_bracket {source : String} {range : BusRange} {name rest : List Char}
    (bracket : splitOnce? '[' (trim source.toList) = some (name, rest))
    (reads : parse source = .ok range) : range.name = .ofList (trim name) := by
  simp only [parse, bracket, bind, Except.bind] at reads
  split at reads
  · cases reads
  · split at reads
    · cases reads
    · split at reads
      · cases reads
      · split at reads
        · cases reads
        · cases reads
          rfl

theorem trimmed_ofList_iff {cs : List Char} : trimmed (.ofList cs) = .ofList cs ↔ trim cs = cs := by
  rw [trimmed, String.toList_ofList, String.ofList_inj]

/-- A text that is read has no bracket, or its name stands in front of the first one. -/
theorem reads_cases {source : String} {range : BusRange} (reads : parse source = .ok range) :
    ('[' ∉ trim source.toList ∧ range = ofBare (trim source.toList)) ∨
      ∃ name rest, trim source.toList = name ++ '[' :: rest ∧ '[' ∉ name ∧
        range.name = .ofList (trim name) := by
  cases bracket : splitOnce? '[' (trim source.toList) with
  | none =>
    have noBracket := splitOnce?_eq_none_iff.1 bracket
    rw [parse_of_notMem noBracket] at reads
    cases reads
    exact .inl ⟨noBracket, rfl⟩
  | some parts =>
    obtain ⟨name, rest⟩ := parts
    obtain ⟨split, absent⟩ := splitOnce?_eq_some_iff.1 bracket
    exact .inr ⟨name, rest, split, absent, name_of_bracket bracket reads⟩

theorem name_ofBare_isPrefix (cs : List Char) : (ofBare cs).name.toList <+: cs := by
  cases cs using List.reverseRecOn with
  | nil => exact List.prefix_rfl
  | append_singleton front c =>
    rw [ofBare_concat]
    split
    · rw [String.toList_ofList]
      exact List.prefix_append front [c]
    · rw [whole, String.toList_ofList]

theorem noBracket_of_reads {source : String} {range : BusRange} (reads : parse source = .ok range) :
    '[' ∉ range.name.toList := by
  rcases reads_cases reads with ⟨absent, rfl⟩ | ⟨name, rest, -, absent, same⟩
  · exact fun member => absent ((name_ofBare_isPrefix _).subset member)
  · rw [same, String.toList_ofList]
    exact fun member => absent ((trim_subset name) member)

/-- What stands in front of the last character of a trimmed text is trimmed unless it ends in a
blank. -/
theorem trim_front_iff {front : List Char} {c : Char} (whole : trim (front ++ [c]) = front ++ [c]) :
    trim front = front ↔ ¬ front.getLast?.any isBlank = true := by
  have start : trimStart front = front := by
    rw [trimStart_eq_self_iff]
    intro b first
    apply trimStart_eq_self_iff.1 (trim_eq_self_iff.1 whole).1
    rw [List.head?_append]
    exact Option.or_eq_some_iff.2 (.inl first)
  rw [trim, start, trimEnd_eq_self_iff]
  cases front.getLast? <;> simp

theorem trimmed_ofBare_iff {cs : List Char} (whole : trim cs = cs) :
    trimmed (ofBare cs).name = (ofBare cs).name ↔
      ¬ ∃ front half, cs = front ++ [half] ∧ (halfStart? half).isSome = true ∧
        front.getLast?.any isBlank = true := by
  cases cs using List.reverseRecOn with
  | nil =>
    refine iff_of_true (trimmed_ofList_iff.2 whole) ?_
    rintro ⟨front, half, split, -⟩
    exact List.append_ne_nil_of_right_ne_nil front (List.cons_ne_nil half []) split.symm
  | append_singleton front c =>
    have only (front' : List Char) (half : Char) :
        front ++ [c] = front' ++ [half] ↔ front = front' ∧ c = half := by
      simp [← List.concat_eq_append, List.concat_inj]
    have here : (∃ front' half, front ++ [c] = front' ++ [half] ∧ (halfStart? half).isSome = true ∧
        front'.getLast?.any isBlank = true) ↔
          (halfStart? c).isSome = true ∧ front.getLast?.any isBlank = true := by
      simp [only, and_assoc]
    rw [here, ofBare_concat]
    cases halfStart? c with
    | none => exact iff_of_true (trimmed_ofList_iff.2 whole) fun half => by cases half.1
    | some first => simpa using trimmed_ofList_iff.trans (trim_front_iff whole)

theorem trimmed_name_iff {source : String} {range : BusRange} (reads : parse source = .ok range) :
    trimmed range.name = range.name ↔ ¬ HalfApart source := by
  rcases reads_cases reads with ⟨absent, rfl⟩ | ⟨name, rest, split, absent, same⟩
  · rw [HalfApart, and_iff_right absent]
    exact trimmed_ofBare_iff (trim_trim source.toList)
  · have bracket : '[' ∈ trim source.toList := by
      rw [split]
      exact List.mem_append_right _ List.mem_cons_self
    rw [same, trimmed_ofList_iff]
    exact iff_of_true (trim_trim name) fun apart => apart.1 bracket

theorem display_again {source : String} {range : BusRange} (reads : parse source = .ok range) :
    parse range.display = .ok range ↔ ¬ HalfApart source := by
  rw [parse_display (noBracket_of_reads reads), ← trimmed_name_iff reads, Except.ok.injEq]
  obtain ⟨name, first, last⟩ := range
  simp

/-- Whatever text a range was read from, it is read again as it is displayed, unless the text has
a blank in front of the letter of a half: then the blanks behind the name are lost. -/
theorem parse_display_again (source : String) (range : BusRange)
    (reads : parse source = .ok range) :
    parse range.display = .ok { range with name := trimmed range.name } ∧
      (parse range.display = .ok range ↔ ¬ HalfApart source) :=
  ⟨parse_display (noBracket_of_reads reads), display_again reads⟩

/-- Blanks inside a name and what stands behind the bracket do not matter. -/
theorem parse_display_again_inner :
    parse " A b [ -3 : 5 ] x" = .ok ⟨"A b", -3, 5⟩ ∧ ¬ HalfApart " A b [ -3 : 5 ] x" ∧
      parse (display ⟨"A b", -3, 5⟩) = .ok ⟨"A b", -3, 5⟩ := by
  have reads : parse " A b [ -3 : 5 ] x" = .ok ⟨"A b", -3, 5⟩ := by decide +kernel
  have again := (parse_display_again _ _ reads).1
  exact ⟨reads, (parse_display_again _ _ reads).2.1 again, again⟩

/-- A blank in front of the letter of a half is displayed and not read again. -/
theorem display_loses_blank :
    parse "A L" = .ok ⟨"A ", 0, 7⟩ ∧ display ⟨"A ", 0, 7⟩ = "A [0:7]" ∧
      parse "A [0:7]" = .ok ⟨"A", 0, 7⟩ ∧
      ¬ ∀ source range, parse source = .ok range → parse range.display = .ok range := by
  have reads : parse "A L" = .ok ⟨"A ", 0, 7⟩ := by decide +kernel
  have again : parse (display ⟨"A ", 0, 7⟩) = .ok ⟨"A", 0, 7⟩ := by decide +kernel
  refine ⟨reads, by decide +kernel, by decide +kernel, fun all => ?_⟩
  exact absurd (again.symm.trans (all _ _ reads)) (by decide +kernel)

end Pinout.BusRange
