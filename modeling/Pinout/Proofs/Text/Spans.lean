import Pinout.Proofs.Text.Lines
import Pinout.Text.Utf8

/-! # Lines with their terminators

A span is a line together with what ends it, so the spans of a text make it up, and every offset
lies on one of them. An offset on a terminator lies on the line that it ends, and so does the offset
at the end of a text.
-/

namespace Pinout.Text

/-- A line with what ends it, which is nothing at the end of a text. -/
structure Span where
  line : List Char
  terminator : List Char
deriving Repr, DecidableEq

def Span.text (span : Span) : List Char :=
  span.line ++ span.terminator

def spans : List Char → List Span
  | [] => []
  | '\r' :: '\n' :: cs => ⟨[], ['\r', '\n']⟩ :: spans cs
  | c :: cs =>
    if isBreak c then
      ⟨[], [c]⟩ :: spans cs
    else
      match spans cs with
      | [] => [⟨[c], []⟩]
      | span :: more => { span with line := c :: span.line } :: more

/-- A text is made up of lines with their terminators. -/
inductive Spanned : List Char → List Span → Prop where
  | nil : Spanned [] []
  | last {line : List Char} (oneLine : OneLine line) (nonempty : line ≠ []) :
    Spanned line [⟨line, []⟩]
  | next {line terminator rest : List Char} {more : List Span} (oneLine : OneLine line)
    (ends : terminator ∈ terminators) (whole : terminator = ['\r'] → rest.head? ≠ some '\n')
    (others : Spanned rest more) : Spanned (line ++ (terminator ++ rest)) (⟨line, terminator⟩ :: more)

theorem spanned_spans (cs : List Char) : Spanned cs (spans cs) := by
  fun_induction spans cs with
  | case1 => exact .nil
  | case2 cs ih =>
    have ends : ['\r', '\n'] ∈ terminators := by decide
    exact .next (List.forall_mem_nil _) ends nofun ih
  | case3 c cs noPair isBreak ih =>
    have ends : [c] ∈ terminators := by
      rcases isBreak_iff.1 isBreak with rfl | rfl <;> decide
    refine .next (List.forall_mem_nil _) ends ?_ ih
    -- a carriage return with a line feed behind it is the case of a pair
    rintro ⟨⟩ feed
    cases cs with
    | nil => cases feed
    | cons d cs =>
      cases feed
      exact noPair cs rfl rfl
  | case4 c cs _ notBreak none ih =>
    rw [none] at ih
    cases ih
    exact .last (by simpa [OneLine] using notBreak) (List.cons_ne_nil c [])
  | case5 c cs _ notBreak span more found ih =>
    have first : isBreak c = false := Bool.eq_false_iff.2 notBreak
    -- the first line behind the character goes on with it in front
    rw [found] at ih
    cases ih with
    | last oneLine => exact .last (List.forall_mem_cons.2 ⟨first, oneLine⟩) (List.cons_ne_nil c cs)
    | @next line terminator rest more oneLine ends whole others =>
      exact .next (List.forall_mem_cons.2 ⟨first, oneLine⟩) ends whole others

theorem segments_of_oneLine {line : List Char} (h : OneLine line) : segments line = [line] := by
  induction line with
  | nil => rfl
  | cons c line ih =>
    obtain ⟨notBreak, h⟩ := List.forall_mem_cons.1 h
    rw [segments_cons_of_not_isBreak notBreak, ih h]
    rfl

theorem lines_append_terminator {line terminator : List Char} (h : OneLine line)
    (ends : terminator ∈ terminators) {rest : List Char}
    (whole : terminator = ['\r'] → rest.head? ≠ some '\n') :
    lines (line ++ (terminator ++ rest)) = line :: lines rest := by
  have nonempty := segments_ne_nil rest
  rw [lines_eq, lines_eq, segments_append_terminator h ends whole, List.getLast?_cons,
    List.dropLast_cons_of_ne_nil nonempty, List.getLast?_eq_some_getLast nonempty, Option.getD_some]
  split <;> rfl

theorem Spanned.lines_eq {cs : List Char} {spans : List Span} (spanned : Spanned cs spans) :
    spans.map (·.line) = lines cs := by
  induction spanned with
  | nil => rfl
  | @last line oneLine nonempty =>
    rw [Text.lines_eq, segments_of_oneLine oneLine, List.getLast?_singleton, if_neg (by simpa)]
    rfl
  | next oneLine ends whole _ ih =>
    rw [lines_append_terminator oneLine ends whole, ← ih]
    rfl

theorem Spanned.eq_nil_iff {cs : List Char} {spans : List Span} (spanned : Spanned cs spans) :
    spans = [] ↔ cs = [] := by
  cases spanned with
  | nil => simp
  | last _ nonempty => simp [nonempty]
  | next _ ends => simp [terminator_ne_nil _ ends]

theorem Spanned.text_eq {cs : List Char} {spans : List Span} (spanned : Spanned cs spans) :
    spans.flatMap Span.text = cs := by
  induction spanned with
  | nil => rfl
  | last => simp [Span.text]
  | next _ _ _ _ ih => rw [List.flatMap_cons, ih, Span.text, List.append_assoc]

/-- The span on which an offset lies, and how far into it. The last one has the offset at the end. -/
def spanAt (offset : Nat) : List Span → Option (Nat × Span)
  | [] => none
  | [span] => some (offset, span)
  | span :: more =>
    if offset < byteLength span.text then some (offset, span)
    else spanAt (offset - byteLength span.text) more

section

variable {offset : Nat} {span : Span} {more : List Span}

theorem spanAt_here (h : more = [] ∨ offset < byteLength span.text) :
    spanAt offset (span :: more) = some (offset, span) := by
  cases more with
  | nil => rfl
  | cons => exact if_pos (h.resolve_left nofun)

theorem spanAt_later (h : ¬ (more = [] ∨ offset < byteLength span.text)) :
    spanAt offset (span :: more) = spanAt (offset - byteLength span.text) more := by
  cases more with
  | nil => exact absurd (.inl rfl) h
  | cons => exact if_neg fun here => h (.inr here)

end

/-- An offset lies as far into its span as it is behind the spans in front. -/
theorem spanAt_spec {offset position : Nat} {span : Span} {spans : List Span}
    (found : spanAt offset spans = some (position, span)) :
    ∃ before more, spans = before ++ span :: more ∧
      offset = byteLength (before.flatMap Span.text) + position ∧
      (more = [] ∨ position < byteLength span.text) := by
  induction spans generalizing offset with
  | nil => cases found
  | cons first more ih =>
    by_cases here : more = [] ∨ offset < byteLength first.text
    · rw [spanAt_here here] at found
      cases found
      exact ⟨[], more, rfl, (Nat.zero_add position).symm, here⟩
    · rw [spanAt_later here] at found
      obtain ⟨before, others, rfl, place, inside⟩ := ih found
      refine ⟨first :: before, others, rfl, ?_, inside⟩
      rw [List.flatMap_cons, byteLength_append, Nat.add_assoc, ← place]
      omega

def lineAt (offset : Nat) (cs : List Char) : List Char :=
  match spanAt offset (spans cs) with
  | none => []
  | some (_, span) => span.line

/-- Whether an offset lies behind the carriage return of a line that ends in a pair. -/
def behindReturn (offset : Nat) (cs : List Char) : Bool :=
  match spanAt offset (spans cs) with
  | none => false
  | some (position, span) => span.terminator = ['\r', '\n'] ∧ byteLength span.line < position

end Pinout.Text
