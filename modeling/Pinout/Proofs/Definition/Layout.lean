import Pinout.Proofs.Definition.Joining
import Pinout.Proofs.Text.Lines

/-! # Layout between lexemes

Blanks and comments between lexemes change nothing but places. A comment is the only lexeme that
goes on in layout behind it, and takes no more than layout with it. There is one word that layout
takes away: an `ns` apart from a number becomes the unit of that number where a word ends behind it.
It was apart because of a letter that begins no lexeme, so lexing ends there, and the complaint about
what is left is the same for either reading.
-/

namespace Pinout.Definition

open Text

/-- Blanks, or a comment with the end of its line. -/
inductive IsLayout : List Char → Prop where
  | blanks {text : List Char} (all : text.all isBlank = true) : IsLayout text
  | comment {text terminator : List Char} (line : OneLine text) (ends : terminator ∈ terminators) :
    IsLayout ('#' :: text ++ terminator)

namespace IsLayout

variable {layout : List Char}

theorem beginsLayout {c : Char} {cs : List Char} (h : IsLayout (c :: cs)) :
    beginsLayout c = true := by
  cases h with
  | blanks all => exact Bool.or_eq_true_iff.2 (.inl (Bool.and_eq_true_iff.1 all).1)
  | comment => rfl

/-- Where the line ends that layout begins on, only blanks are left of it. -/
theorem blank_dropWhile (h : IsLayout layout) :
    (layout.dropWhile (!isBreak ·)).all isBlank = true := by
  cases h with
  | blanks all =>
    rw [List.all_eq_true] at all ⊢
    exact fun c member => all c ((List.dropWhile_sublist _).subset member)
  | @comment text terminator line ends =>
    have line : OneLine ('#' :: text) := List.forall_mem_cons.2 ⟨rfl, line⟩
    rw [dropWhile_append_of_oneLine line, ← List.append_nil terminator, dropWhile_terminator ends,
      List.append_nil]
    exact blank_terminator _ ends

/-- Layout at the beginning of a text is passed over. -/
theorem scan_append (h : IsLayout layout) (rest : List Char) :
    scan (layout ++ rest) = scan rest := by
  cases h with
  | blanks all => exact scan_blanks all rest
  | @comment text terminator line ends =>
    rw [List.cons_append, List.cons_append, List.append_assoc, scan_comment,
      dropWhile_append_of_oneLine line, dropWhile_terminator ends,
      scan_blanks (blank_terminator _ ends)]

end IsLayout

/-! ## Layout behind lexemes -/

variable {front : List Lexeme} {rest layout : List Char}

/-- A comment is a mark and what is left of its line. -/
theorem Lexed.comment_spec {comment : Lexeme} (lexed : Lexed [comment] rest)
    (isComment : comment.kind = .comment) :
    ∃ line, comment.text = '#' :: line ∧ OneLine line ∧ begins (!isBreak ·) rest = false := by
  obtain ⟨c, line, text, opens, -⟩ := lexed.exists_cons
  have here := (firstMatch?_eq_some_iff.1 (lexed_cons_iff.1 lexed).1).2
  rw [isComment, textOf_nil, List.nil_append, text] at here
  have mark : c = '#' := by
    by_contra other
    simp [Kind.match?, comment?, other] at here
  subst mark
  simp only [Kind.match?, comment?, List.cons_append, List.length_cons, Nat.add_comm 1,
    Option.some.injEq, Nat.add_right_cancel_iff] at here
  obtain ⟨inside, stops⟩ := runLength_append_iff.1 here
  exact ⟨line, text, fun c member => by simpa using List.all_eq_true.1 inside c member, stops⟩

/-- A comment goes on in layout behind it up to the end of its line. -/
theorem Lexed.scan_comment_layout {comment : Lexeme} (lexed : Lexed (front ++ [comment]) rest)
    (isComment : comment.kind = .comment) (isLayout : IsLayout layout) :
    scan (textOf (front ++ [comment]) ++ (layout ++ rest)) =
      (words (front ++ [comment]) ++ (scan rest).1, (scan rest).2) := by
  obtain ⟨before, behind⟩ := lexed_append_iff.1 lexed
  obtain ⟨line, text, oneLine, stops⟩ := behind.comment_spec isComment
  have texts (rest : List Char) : textOf (front ++ [comment]) ++ rest =
      textOf front ++ ('#' :: (line ++ rest)) := by
    simp [text]
  rw [textOf_cons, text] at before
  -- the mark is still behind the other lexemes, and its line reaches to the same end
  rw [texts, before.scan_replace (.of_opener (by decide) (by decide) front _ _), scan_comment,
    dropWhile_append_of_oneLine oneLine, dropWhile_append_of_begins stops,
    scan_blanks isLayout.blank_dropWhile, words_append, words_cons, isComment]
  simp [words, Kind.isLayout]

/-- Layout behind lexemes leaves their words and what follows as they are, unless a number takes a
unit. -/
theorem Lexed.scan_layout (lexed : Lexed front rest)
    (apart : ∀ before number after, front = before ++ number :: after → number.kind = .number →
      textOf after ≠ ['n', 's']) (isLayout : IsLayout layout) :
    scan (textOf front ++ (layout ++ rest)) = (words front ++ (scan rest).1, (scan rest).2) := by
  cases layout with
  | nil => exact lexed.scan_eq
  | cons c cs =>
    -- a comment at the end may take some of the layout, and other lexemes stay as they are
    by_cases ended : ∃ before comment, front = before ++ [comment] ∧ comment.kind = .comment
    · obtain ⟨before, comment, rfl, isComment⟩ := ended
      exact lexed.scan_comment_layout isComment isLayout
    · have noComment : ∀ before comment, front = before ++ [comment] → comment.kind ≠ .comment :=
        fun before comment split isComment => ended ⟨before, comment, split, isComment⟩
      have follows : Follows front rest (c :: (cs ++ rest)) :=
        .layout isLayout.beginsLayout (cs ++ rest) apart (.inr noComment)
      rw [List.cons_append, lexed.scan_replace follows, ← List.cons_append, isLayout.scan_append]

/-- Lexing ends behind a unit that is lexed apart from the number in front. -/
theorem Lexed.scan_behind_unit {number unit : Lexeme} (lexed : Lexed [number, unit] rest)
    (isNumber : number.kind = .number) (isUnit : unit.text = ['n', 's']) :
    scan rest = ([], rest) := by
  obtain ⟨found, behind⟩ := lexed_cons_iff.1 lexed
  have here := (firstMatch?_eq_some_iff.1 found).2
  rw [isNumber, textOf_cons, isUnit] at here
  have goesOn : begins Unicode.isWord rest = true := by
    rw [← Bool.not_eq_false]
    intro ends
    have longer := Option.some.inj (here.symm.trans (number?_unit here ends))
    omega
  cases rest with
  | nil => cases goesOn
  | cons c cs =>
    have isWord : Unicode.isWord c = true := goesOn
    have notRest : isIdentifierRest c = false := (behind.unit_spec isUnit).2
    -- what goes on with a word but not with a name is no ASCII character
    have beyond : ¬ c.toNat < 0x80 := fun ascii => by
      cases notRest.symm.trans (isIdentifierRest_of_isWord ascii isWord)
    have notBlank : isBlank c = false := by
      rw [Bool.eq_false_iff]
      intro blank
      cases isWord.symm.trans (not_isWord (Bool.or_eq_true_iff.2 (.inl blank)))
    refine scan_of_none ?_
    cases next : firstMatch? (c :: cs) with
    | none => rfl
    | some pair =>
      have matched := (firstMatch?_eq_some_iff.1 next).2
      exact absurd (opener_of_beyond beyond notBlank) (opener_ne matched)

/-! ## What a reader says -/

/-- The complaint about words that were not taken, or about what was left of the text. -/
def Place.complaint? (place : Place) (left : List Lexeme) (unread : List Char) :
    Option Complaint :=
  match left, place with
  | [], .betweenBoards => if unread.isEmpty then none else some .unrecognizedInput
  | _, place => some place.missing

/-- The boards and the complaint that are due to some words and to what is left behind them. -/
def verdict (scanned : List Lexeme × List Char) : List Board × Option Complaint :=
  let outcome := run {} scanned.1
  (outcome.1.boards.reverse, outcome.1.place.complaint? outcome.2 scanned.2)

theorem read_verdict (source : String) :
    ((read source).boards, (read source).fault.map (·.complaint)) =
      verdict (scan source.toList) := by
  have stalled := Lexer.stalled_lexemes (Lexer.ofSource source)
  rw [scan_toList, verdict, words, run_unplaced]
  simp only [read, endOf, Option.map_map]
  generalize run {} ((Lexer.ofSource source).lexemes.1.filter (!·.kind.isLayout)) = outcome
  generalize (Lexer.ofSource source).lexemes.2 = final at stalled ⊢
  obtain ⟨⟨boards, place⟩, left⟩ := outcome
  cases left with
  | cons lexeme left => rfl
  | nil =>
    -- only behind complete boards it matters whether the lexer has stalled
    cases place with
    | betweenBoards =>
      cases h : final.rest with
      | nil => simp [faultAt?, Place.complaint?, stalled.2 h]
      | cons c cs =>
        have stalls : final.stalled = true := by
          rw [← Bool.not_eq_false, stalled, h]
          exact List.cons_ne_nil c cs
        simp [faultAt?, Place.complaint?, stalls, Diagnostic.ofSource]
    | _ => rfl

/-- A number opens something, and a name behind it completes nothing. -/
theorem run_unit (state : State) {number unit : Lexeme} (isNumber : number.kind = .number)
    (isName : unit.kind = .identifier) (text : List Char) (unread : List Char) :
    let outcome := run state [number, unit]
    let outcome' := run state [⟨.number, 0, text⟩]
    outcome.1.boards = outcome'.1.boards ∧
      outcome.1.place.complaint? outcome.2 unread =
        outcome'.1.place.complaint? outcome'.2 unread := by
  obtain ⟨boards, place⟩ := state
  -- both are stuck in front of the number, or what misses behind it misses behind the name as well
  cases place <;>
    simp [run, step, nextBus, nextAssignment, Kind.isName, isNumber, isName, Place.complaint?,
      Place.missing, Holder.missing]

/-- Where lexing ends behind it, a number draws the same complaint with its unit and without. -/
theorem verdict_unit (front : List Lexeme) {number unit : Lexeme} (isNumber : number.kind = .number)
    (isName : unit.kind = .identifier) (text unread : List Char) :
    verdict (front ++ [number, unit], unread) = verdict (front ++ [⟨.number, 0, text⟩], unread) := by
  simp only [verdict, run_append_eq]
  generalize run {} front = outcome
  obtain ⟨state, left⟩ := outcome
  cases left with
  | nil =>
    obtain ⟨boards, complaint⟩ := run_unit state isNumber isName text unread
    exact Prod.ext (congrArg List.reverse boards) complaint
  | cons lexeme left => rfl

/-! ## Layout in a text -/

/-- A place between lexemes cuts them in two. -/
theorem exists_split_of_mem_offsets {lexer : Lexer} {offset : Nat}
    (member : offset ∈ lexer.offsets) :
    ∃ front back, lexer.lexemes.1 = front ++ back ∧
      offset = lexer.offset + byteLength (textOf front) := by
  rcases List.mem_append.1 member with inside | last
  · obtain ⟨lexeme, found, rfl⟩ := List.mem_map.1 inside
    obtain ⟨front, back, split⟩ := List.append_of_mem found
    exact ⟨front, lexeme :: back, split, offset_of_split split⟩
  · cases List.mem_singleton.1 last
    exact ⟨_, [], (List.append_nil _).symm, offset_lexemes lexer⟩

/-- Layout behind lexemes changes neither the boards nor the complaint. -/
theorem Lexed.verdict_layout (lexed : Lexed front rest) (isLayout : IsLayout layout) :
    verdict (scan (textOf front ++ (layout ++ rest))) = verdict (scan (textOf front ++ rest)) := by
  rcases lexed.apart_or_unit with apart | ⟨before, number, unit, rfl, isNumber, isUnit⟩
  · rw [lexed.scan_layout apart isLayout, lexed.scan_eq]
  · have behind := (lexed_append_iff.1 lexed).2
    have isName := ((lexed_cons_iff.1 behind).2.unit_spec isUnit).1
    have ends := behind.scan_behind_unit isNumber isUnit
    cases layout with
    | nil => rfl
    | cons c cs =>
      -- the number takes the unit, and lexing ends behind it as it did behind the name
      have wordEnds : begins Unicode.isWord (c :: cs ++ rest) = false :=
        not_isWord isLayout.beginsLayout
      rw [lexed.scan_unit isNumber isUnit wordEnds, lexed.scan_eq, isLayout.scan_append, ends,
        List.append_nil, List.append_nil, words_append, words_append]
      have apart : words [number, unit] = [number.unplaced, unit.unplaced] := by
        simp [words, isNumber, isName, Kind.isLayout]
      have isNumber : number.unplaced.kind = .number := isNumber
      have isName : unit.unplaced.kind = .identifier := isName
      rw [apart]
      exact (verdict_unit (words before) isNumber isName _ rest).symm

theorem agree_of_verdict {source source' : String}
    (same : verdict (scan source.toList) = verdict (scan source'.toList)) :
    (read source).boards = (read source').boards ∧
      (read source).fault.map (·.message) = (read source').fault.map (·.message) := by
  rw [← read_verdict, ← read_verdict, Prod.mk.injEq] at same
  refine ⟨same.1, ?_⟩
  have messages := congrArg (Option.map Complaint.message) same.2
  rwa [Option.map_map, Option.map_map] at messages

/-- Blanks and comments between lexemes, in front of them or where they end change neither the boards
nor the complaint, but only where it stands. -/
theorem read_insert_layout (source : String) {before after layout : List Char}
    (split : source.toList = before ++ after)
    (boundary : byteLength before ∈ (Lexer.ofSource source).offsets) (isLayout : IsLayout layout) :
    let changed := read (.ofList (before ++ layout ++ after))
    changed.boards = (read source).boards ∧
      changed.fault.map (·.message) = (read source).fault.map (·.message) := by
  obtain ⟨front, back, lexemes, offset⟩ := exists_split_of_mem_offsets boundary
  obtain ⟨text, lexed⟩ : source.toList =
      textOf (Lexer.ofSource source).lexemes.1 ++ (endOf source).rest ∧
        Lexed (Lexer.ofSource source).lexemes.1 (endOf source).rest :=
    lexed_lexemes (Lexer.ofSource source)
  rw [lexemes] at text lexed
  rw [textOf_append, List.append_assoc] at text
  obtain ⟨rfl, rfl⟩ := append_inj_of_byteLength (split.symm.trans text)
    (offset.trans (Nat.zero_add _))
  have same := (lexed_append_iff.1 lexed).1.verdict_layout isLayout
  refine agree_of_verdict ?_
  rw [String.toList_ofList, List.append_assoc, same, text]

/-- A number and a name behind it that is no unit, because a letter follows that begins nothing. -/
def letterBehindUnit : String :=
  "A \x7b B : 12nsé \x7d"

/-- Behind a comment `ns` becomes the unit, so there is a word less, and the complaint is the same. -/
theorem read_insert_layout_letterBehindUnit :
    let before := "A \x7b B : 12ns".toList
    let layout := '#' :: "\x7d << \"".toList ++ ['\r', '\n']
    let changed := read (.ofList (before ++ layout ++ "é \x7d".toList))
    letterBehindUnit.toList = before ++ "é \x7d".toList ∧
      byteLength before ∈ (Lexer.ofSource letterBehindUnit).offsets ∧ IsLayout layout ∧
      changed.boards = (read letterBehindUnit).boards ∧
      changed.fault.map (·.message) = (read letterBehindUnit).fault.map (·.message) := by
  intro before layout changed
  have split : letterBehindUnit.toList = before ++ "é \x7d".toList := by decide +kernel
  have boundary : byteLength before ∈ (Lexer.ofSource letterBehindUnit).offsets := by
    decide +kernel
  have isLayout : IsLayout layout := .comment (by decide) (by decide)
  exact ⟨split, boundary, isLayout, read_insert_layout letterBehindUnit split boundary isLayout⟩

end Pinout.Definition
