import Pinout.Definition.Reading
import Pinout.Proofs.Text.Spans

/-! # The line of an excerpt

An excerpt shows the line on which its offset lies, whatever ends the lines of the text, apart from
one case: behind the carriage return of a pair it shows an empty line. That is so on the line feed
of the pair and at the end of a text that ends in one.
-/

namespace Pinout.Definition

open Text

namespace Excerpt

variable {limit position : Nat} {found : Nat × List Char} {line terminator rest : List Char}

theorem lineFrom_of_le (h : limit ≤ position) (cs : List Char) :
    lineFrom limit found position cs = found := by
  cases cs with
  | nil => rfl
  | cons c cs => rw [lineFrom, if_neg (Nat.not_lt.2 h)]

/-- Nothing is found inside a line. -/
theorem lineFrom_append (h : OneLine line) (rest : List Char) :
    lineFrom limit found position (line ++ rest) =
      lineFrom limit found (position + byteLength line) rest := by
  induction line generalizing position with
  | nil => rfl
  | cons c line ih =>
    obtain ⟨notBreak, h⟩ := List.forall_mem_cons.1 h
    rw [List.cons_append, lineFrom, byteLength_cons, ← Nat.add_assoc, ← ih h]
    split
    · simp [notBreak]
    · next reached =>
      -- the limit is reached inside the line, so it is at its end
      exact (lineFrom_of_le (by omega) _).symm

theorem lineFrom_of_oneLine (h : OneLine line) :
    lineFrom limit found position line = found := by
  rw [← List.append_nil line, lineFrom_append h, lineFrom]

theorem utf8Size_of_isBreak {c : Char} (h : isBreak c = true) : c.utf8Size = 1 := by
  rcases isBreak_iff.1 h with rfl | rfl <;> rfl

theorem lineFrom_cons_of_isBreak {c : Char} (h : isBreak c = true) (inside : position < limit)
    (cs : List Char) :
    lineFrom limit found position (c :: cs) =
      lineFrom limit (position + 1, cs) (position + 1) cs := by
  rw [lineFrom, if_pos inside, if_pos h, utf8Size_of_isBreak h]

/-- A search that goes on behind a terminator begins anew there, and one that ends inside of it has
found the line feed. -/
theorem lineFrom_terminator (ends : terminator ∈ terminators) (inside : position < limit)
    (rest : List Char) :
    lineFrom limit found position (terminator ++ rest) =
      if limit < position + byteLength terminator then (position + 1, '\n' :: rest)
      else
        lineFrom limit (position + byteLength terminator, rest) (position + byteLength terminator)
          rest := by
  rcases pair_or_single ends with rfl | ⟨c, isBreak, rfl⟩
  · have size : byteLength ['\r', '\n'] = 2 := rfl
    rw [size, List.cons_append, lineFrom_cons_of_isBreak rfl inside]
    split
    · exact lineFrom_of_le (by omega) _
    · exact lineFrom_cons_of_isBreak rfl (by omega) rest
  · have size : byteLength [c] = 1 := utf8Size_of_isBreak isBreak
    rw [size, if_neg (Nat.not_lt.2 inside)]
    exact lineFrom_cons_of_isBreak isBreak inside rest

/-- What is shown of a span when the offset lies some way into it. -/
def shown : Nat × Span → List Char
  | (position, span) =>
    if span.terminator = ['\r', '\n'] ∧ byteLength span.line < position then [] else span.line

/-- The line from the last terminator on is what is shown of the span. -/
theorem takeWhile_lineFrom {cs : List Char} {spans : List Span} (spanned : Spanned cs spans)
    (start offset : Nat) :
    (lineFrom (min (start + offset) (start + byteLength cs - 1)) (start, cs) start cs).2.takeWhile
        (!isBreak ·) =
      ((spanAt offset spans).map shown).getD [] := by
  induction spanned generalizing start offset with
  | nil => rfl
  | @last line oneLine _ =>
    -- no terminator is found, and all that is left is the line
    rw [lineFrom_of_oneLine oneLine]
    exact takeWhile_of_oneLine oneLine
  | @next line terminator rest more oneLine ends whole others ih =>
    have ended : more = [] ↔ byteLength rest = 0 :=
      others.eq_nil_iff.trans byteLength_eq_zero_iff.symm
    have size : byteLength (Span.text ⟨line, terminator⟩) =
        byteLength line + byteLength terminator :=
      byteLength_append line terminator
    rw [lineFrom_append oneLine, byteLength_append, byteLength_append]
    by_cases here : more = [] ∨ offset < byteLength (Span.text ⟨line, terminator⟩)
    · rw [spanAt_here here]
      rw [ended, size] at here
      rcases pair_or_single ends with rfl | ⟨c, isBreak, rfl⟩
      · have two : byteLength ['\r', '\n'] = 2 := rfl
        by_cases inside : offset ≤ byteLength line
        · rw [lineFrom_of_le (by omega), takeWhile_append_terminator oneLine ends]
          simp [shown, Nat.not_lt.2 inside]
        · -- the search ends between the two characters
          rw [lineFrom_terminator ends (by omega), if_pos (by omega)]
          simp [shown, inside, Text.isBreak]
      · -- a terminator of one character is never in front of the limit here
        have one : byteLength [c] = 1 := utf8Size_of_isBreak isBreak
        rw [lineFrom_of_le (by omega), takeWhile_append_terminator oneLine ends]
        simp [shown]
    · have later := ih (start + byteLength line + byteLength terminator)
        (offset - byteLength (Span.text ⟨line, terminator⟩))
      have nonempty := byteLength_pos (terminator_ne_nil _ ends)
      rw [spanAt_later here, ← later]
      rw [ended, size] at here
      -- the limit lies as far behind the next line as it did behind this one
      have same : start + byteLength line + byteLength terminator +
            (offset - (byteLength line + byteLength terminator)) = start + offset ∧
          start + byteLength line + byteLength terminator + byteLength rest - 1 =
            start + (byteLength line + (byteLength terminator + byteLength rest)) - 1 := by
        omega
      rw [size, same.1, same.2, lineFrom_terminator ends (by omega), if_neg (by omega)]

theorem line_eq (source : String) (offset : Nat) :
    (Excerpt.of source offset).line =
      if behindReturn offset source.toList then [] else lineAt offset source.toList := by
  have found := takeWhile_lineFrom (spanned_spans source.toList) 0 offset
  simp only [Nat.zero_add] at found
  -- an offset behind the end counts as the end, but the limit is in front of it anyway
  have limit : min (min offset (byteLength source.toList)) (byteLength source.toList - 1) =
      min offset (byteLength source.toList - 1) := by
    omega
  simp only [Excerpt.of, limit, found]
  cases here : spanAt offset (spans source.toList) with
  | none => simp [behindReturn, lineAt, here]
  | some pair => simp [behindReturn, lineAt, shown, here]

/-- An excerpt shows the line on which its offset lies, but behind the carriage return of a pair it
shows nothing. The spans of a text have its lines and make it up, and an offset lies as far into its
span as it is behind the spans in front. -/
theorem line_of (source : String) (offset : Nat) :
    (Excerpt.of source offset).line =
        (if behindReturn offset source.toList then [] else lineAt offset source.toList) ∧
      (spans source.toList).map (·.line) = lines source.toList ∧
      (spans source.toList).flatMap Span.text = source.toList ∧
      ∀ position span, spanAt offset (spans source.toList) = some (position, span) →
        ∃ before more, spans source.toList = before ++ span :: more ∧
          offset = byteLength (before.flatMap Span.text) + position ∧
          (more = [] ∨ position < byteLength span.text) :=
  have spanned := spanned_spans source.toList
  ⟨line_eq source offset, spanned.lines_eq, spanned.text_eq, fun _ _ => spanAt_spec⟩

/-- At the end of a text that ends in a pair, a diagnostic does not show the line that it shows when
only a line feed ends it. -/
theorem line_of_ended_pair :
    (read "One\r\n").fault.map (·.offset) = some 5 ∧
      lineAt 5 "One\r\n".toList = "One".toList ∧ (Excerpt.of "One\r\n" 5).line = [] ∧
      (read "One\n").fault.map (·.offset) = some 4 ∧ (Excerpt.of "One\n" 4).line = "One".toList := by
  decide +kernel

end Excerpt

end Pinout.Definition
