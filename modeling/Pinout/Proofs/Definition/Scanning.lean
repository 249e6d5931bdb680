import Pinout.Proofs.Definition.Matching
import Pinout.Proofs.Definition.Reaching

/-! # Scanning

Whether a text is read without a fault depends on its words only, not on where they stand. `scan`
gives the words of a text without their offsets, and what is left where lexing ends. A piece of text
that is lexed alike in front of everything `Spells` its words; the lexemes of a text that was cut
off are found again as far as what follows them allows.
-/

namespace Pinout.Definition

open Text

/-- The lexemes that are not layout, wherever they stand. -/
def words (lexemes : List Lexeme) : List Lexeme :=
  (lexemes.filter (!·.kind.isLayout)).map Lexeme.unplaced

theorem words_append (before after : List Lexeme) :
    words (before ++ after) = words before ++ words after := by
  simp [words]

theorem words_cons (lexeme : Lexeme) (more : List Lexeme) :
    words (lexeme :: more) = words [⟨lexeme.kind, 0, lexeme.text⟩] ++ words more := by
  cases h : lexeme.kind.isLayout <;> simp [words, h, Lexeme.unplaced]

def textOf (lexemes : List Lexeme) : List Char :=
  lexemes.flatMap (·.text)

@[simp]
theorem textOf_nil : textOf [] = [] :=
  rfl

@[simp]
theorem textOf_cons (lexeme : Lexeme) (more : List Lexeme) :
    textOf (lexeme :: more) = lexeme.text ++ textOf more :=
  rfl

@[simp]
theorem textOf_append (before after : List Lexeme) :
    textOf (before ++ after) = textOf before ++ textOf after :=
  List.flatMap_append

/-! ## The words of a text -/

/-- The words of a text, wherever they stand, and what is left where lexing ends. -/
def scan (cs : List Char) : List Lexeme × List Char :=
  match _h : firstMatch? cs with
  | none => ([], cs)
  | some (kind, n) =>
    let (more, left) := scan (cs.drop n)
    (words [⟨kind, 0, cs.take n⟩] ++ more, left)
termination_by cs.length
decreasing_by
  have taken := Lexer.firstMatch?_pos _h
  cases cs with
  | nil =>
    rw [Lexer.firstMatch?_nil] at _h
    cases _h
  | cons c cs =>
    simp only [List.length_drop, List.length_cons]
    omega

theorem scan_of_none {cs : List Char} (h : firstMatch? cs = none) : scan cs = ([], cs) := by
  rw [scan]
  split <;> simp_all

@[simp]
theorem scan_nil : scan [] = ([], []) :=
  scan_of_none Lexer.firstMatch?_nil

theorem scan_of_some {cs : List Char} {kind : Kind} {n : Nat}
    (h : firstMatch? cs = some (kind, n)) :
    scan cs = (words [⟨kind, 0, cs.take n⟩] ++ (scan (cs.drop n)).1, (scan (cs.drop n)).2) := by
  rw [scan]
  split <;> simp_all

theorem scan_append {text rest : List Char} {kind : Kind}
    (h : firstMatch? (text ++ rest) = some (kind, text.length)) :
    scan (text ++ rest) = (words [⟨kind, 0, text⟩] ++ (scan rest).1, (scan rest).2) := by
  rw [scan_of_some h, List.take_left, List.drop_left]

/-- A comment takes the rest of its line. -/
theorem scan_comment (cs : List Char) : scan ('#' :: cs) = scan (cs.dropWhile (!isBreak ·)) := by
  have found : firstMatch? ('#' :: cs) = some (.comment, runLength (!isBreak ·) cs + 1) :=
    firstMatch?_of_match? (congrArg some (Nat.add_comm _ _)) nofun
  rw [scan_of_some found, List.drop_succ_cons, drop_runLength]
  rfl

theorem scan_rest (lexer : Lexer) :
    scan lexer.rest = (words lexer.lexemes.1, lexer.lexemes.2.rest) := by
  induction lexer using Lexer.lexemes.induct with
  | case1 lexer h =>
    rw [scan_of_none (Option.map_eq_none_iff.1 h), Lexer.lexemes_of_none h]
    rfl
  | case2 lexer lexeme behind h _ _ _ ih =>
    rw [Lexer.lexemes_of_some h]
    obtain ⟨⟨kind, n⟩, found, h⟩ := Option.map_eq_some_iff.1 h
    cases h
    rw [scan_of_some found, ih]
    exact Prod.ext (words_cons ⟨kind, lexer.offset, _⟩ _).symm rfl

theorem scan_toList (source : String) :
    scan source.toList = (words (Lexer.ofSource source).lexemes.1, (endOf source).rest) :=
  scan_rest (Lexer.ofSource source)

/-- A text is read without a fault if nothing is left of it and its words complete some boards. -/
theorem fault_eq_none_iff_scan (source : String) :
    (read source).fault = none ↔
      (scan source.toList).2 = [] ∧ ∃ boards, Completes {} (scan source.toList).1 boards := by
  simp only [fault_eq_none_iff, scan_toList, words, completes_unplaced, wordsOf]

theorem run_unplaced (state : State) (lexemes : List Lexeme) :
    run state (lexemes.map Lexeme.unplaced) =
      ((run state lexemes).1, (run state lexemes).2.map Lexeme.unplaced) := by
  fun_induction run state lexemes with
  | case1 state => rfl
  | case2 state lexeme rest next taken ih => simp only [List.map_cons, run, step_unplaced, taken, ih]
  | case3 state lexeme rest stuck => simp only [List.map_cons, run, step_unplaced, stuck]

theorem boards_read (source : String) :
    (read source).boards = (run {} (scan source.toList).1).1.boards.reverse := by
  rw [scan_toList, words, run_unplaced]
  rfl

/-- The boards that the words of a text complete are read. -/
theorem read_eq_of_scan {source : String} {lexemes : List Lexeme} {boards : List Board}
    (scanned : scan source.toList = (lexemes, [])) (completes : Completes {} lexemes boards) :
    read source = ⟨boards.reverse, none⟩ := by
  have fault : (read source).fault = none := by
    rw [fault_eq_none_iff_scan, scanned]
    exact ⟨rfl, boards, completes⟩
  have placed : Completes {} (wordsOf source) boards := by
    rw [scan_toList, Prod.mk.injEq] at scanned
    rw [← scanned.1] at completes
    exact completes_unplaced.1 completes
  rw [← boards_of_completes placed, ← fault]

/-! ## Words in their places -/

def Lexer.placedWords (lexer : Lexer) : List Lexeme × Lexer :=
  (lexer.lexemes.1.filter (!·.kind.isLayout), lexer.lexemes.2)

theorem scan_rest_eq (lexer : Lexer) :
    scan lexer.rest = (lexer.placedWords.1.map Lexeme.unplaced, lexer.placedWords.2.rest) :=
  scan_rest lexer

section

variable {offset : Nat} {current : Lexeme}

theorem placedWords_of_some {cs : List Char} {kind : Kind} {n : Nat}
    (found : firstMatch? cs = some (kind, n)) :
    (⟨offset, cs, current⟩ : Lexer).placedWords =
      let behind : Lexer := ⟨offset + byteLength (cs.take n), cs.drop n, current⟩
      ([⟨kind, offset, cs.take n⟩].filter (!·.kind.isLayout) ++ behind.placedWords.1,
        behind.placedWords.2) := by
  have taken : (⟨offset, cs, current⟩ : Lexer).next? = some (⟨kind, offset, cs.take n⟩,
      ⟨offset + byteLength (cs.take n), cs.drop n, current⟩) := by
    simp [Lexer.next?, found]
  simp only [Lexer.placedWords, Lexer.lexemes_of_some taken, ← List.filter_append,
    List.singleton_append]

theorem placedWords_append {text rest : List Char} {kind : Kind}
    (found : firstMatch? (text ++ rest) = some (kind, text.length)) :
    (⟨offset, text ++ rest, current⟩ : Lexer).placedWords =
      let behind : Lexer := ⟨offset + byteLength text, rest, current⟩
      ([⟨kind, offset, text⟩].filter (!·.kind.isLayout) ++ behind.placedWords.1,
        behind.placedWords.2) := by
  simp only [placedWords_of_some found, List.take_left, List.drop_left]

theorem placedWords_cons_of_isBlank {c : Char} (h : isBlank c = true) (cs : List Char) :
    (⟨offset, c :: cs, current⟩ : Lexer).placedWords =
      (⟨offset + c.utf8Size, cs, current⟩ : Lexer).placedWords := by
  have found : firstMatch? (c :: cs) = some (.blanks, runLength isBlank cs + 1) :=
    firstMatch?_of_match? (by simp [Kind.match?, run?, runLength_cons, h]) nofun
  rw [placedWords_of_some found]
  cases more : runLength isBlank cs with
  | zero => rfl
  | succ n =>
    -- the blanks behind the first one would be dropped alike
    have found : firstMatch? cs = some (.blanks, n + 1) :=
      firstMatch?_of_match? (by simp [Kind.match?, run?, more]) nofun
    rw [placedWords_of_some found, List.take_succ_cons, List.drop_succ_cons, byteLength_cons,
      Nat.add_assoc]
    rfl

theorem placedWords_blanks {text : List Char} (h : text.all isBlank = true) (rest : List Char) :
    (⟨offset, text ++ rest, current⟩ : Lexer).placedWords =
      (⟨offset + byteLength text, rest, current⟩ : Lexer).placedWords := by
  induction text generalizing offset with
  | nil => rfl
  | cons c text ih =>
    rw [List.all_cons, Bool.and_eq_true] at h
    rw [List.cons_append, placedWords_cons_of_isBlank h.1, ih h.2, byteLength_cons, Nat.add_assoc]

end

theorem scan_cons_of_isBlank {c : Char} (h : isBlank c = true) (cs : List Char) :
    scan (c :: cs) = scan cs := by
  rw [scan_rest_eq ⟨0, c :: cs, .endAt 0⟩, placedWords_cons_of_isBlank h, ← scan_rest_eq]

theorem scan_blanks {text : List Char} (h : text.all isBlank = true) (rest : List Char) :
    scan (text ++ rest) = scan rest := by
  rw [scan_rest_eq ⟨0, text ++ rest, .endAt 0⟩, placedWords_blanks h, ← scan_rest_eq]

/-! ## Spelling -/

/-- A text is lexed to some words whatever comes behind it. -/
def Spells (text : List Char) (lexemes : List Lexeme) : Prop :=
  ∀ rest, scan (text ++ rest) = (lexemes ++ (scan rest).1, (scan rest).2)

namespace Spells

theorem nil : Spells [] [] :=
  fun _ => rfl

theorem append {text text' : List Char} {lexemes lexemes' : List Lexeme}
    (h : Spells text lexemes) (h' : Spells text' lexemes') :
    Spells (text ++ text') (lexemes ++ lexemes') := by
  intro rest
  rw [List.append_assoc, h, h', List.append_assoc]

theorem flatMap {α : Type} {text : α → List Char} {lexemes : α → List Lexeme} {items : List α}
    (h : ∀ item ∈ items, Spells (text item) (lexemes item)) :
    Spells (items.flatMap text) (items.flatMap lexemes) := by
  induction items with
  | nil => exact nil
  | cons item items ih =>
    rw [List.forall_mem_cons] at h
    exact append h.1 (ih h.2)

theorem blanks (text : List Char) (h : text.all isBlank = true) : Spells text [] :=
  fun rest => scan_blanks h rest

theorem lexeme (kind : Kind) {text : List Char} (noBreak : kind ≠ .lineBreak)
    (h : ∀ rest, kind.match? (text ++ rest) = some text.length) :
    Spells text (words [⟨kind, 0, text⟩]) :=
  fun rest => scan_append (firstMatch?_of_match? (h rest) noBreak)

/-- A kind that is one word spells that word. -/
theorem mark (kind : Kind) {word : List Char} (noBreak : kind ≠ .lineBreak)
    (h : ∀ cs, kind.match? cs = word? word cs) : Spells word (words [⟨kind, 0, word⟩]) :=
  lexeme kind noBreak fun rest => (h _).trans (word?_eq_some_iff.2 ⟨rfl, rest, rfl⟩)

theorem quoted {text : List Char} (h : (text.all fun c => !(c == '"' || isBreak c)) = true) :
    Spells ('"' :: text ++ ['"']) [⟨.quoted, 0, '"' :: text ++ ['"']⟩] :=
  lexeme .quoted nofun fun rest => by
    simpa [Kind.match?] using quoted?_append h rest

theorem block {inner : List Char} (h : ¬['>', '>'] <:+: inner ++ ['>']) :
    Spells ('<' :: '<' :: inner ++ ['>', '>']) [⟨.block, 0, '<' :: '<' :: inner ++ ['>', '>']⟩] :=
  lexeme .block nofun fun rest => by
    simpa [Kind.match?] using block?_append h rest

theorem of_lexemes {lexemes : List Lexeme}
    (h : ∀ lexeme ∈ lexemes, Spells lexeme.text [lexeme]) : Spells (textOf lexemes) lexemes := by
  have spells := flatMap h
  rwa [List.flatMap_singleton'] at spells

theorem scan_eq {text : List Char} {lexemes : List Lexeme} (h : Spells text lexemes) :
    scan text = (lexemes, []) := by
  rw [← List.append_nil text, h, scan_nil, List.append_nil]

end Spells

/-! ## Lexemes in front of another text -/

/-- Some lexemes are found one behind the other in front of a text. -/
inductive Lexed : List Lexeme → List Char → Prop where
  | done (rest : List Char) : Lexed [] rest
  | next {lexeme : Lexeme} {more : List Lexeme} {rest : List Char}
      (found : firstMatch? (lexeme.text ++ (textOf more ++ rest)) =
        some (lexeme.kind, lexeme.text.length)) (others : Lexed more rest) :
      Lexed (lexeme :: more) rest

theorem lexed_cons_iff {lexeme : Lexeme} {more : List Lexeme} {rest : List Char} :
    Lexed (lexeme :: more) rest ↔
      firstMatch? (lexeme.text ++ (textOf more ++ rest)) =
        some (lexeme.kind, lexeme.text.length) ∧ Lexed more rest := by
  constructor
  · rintro ⟨⟩
    exact ⟨‹_›, ‹_›⟩
  · rintro ⟨found, others⟩
    exact .next found others

theorem lexed_append_iff {before after : List Lexeme} {rest : List Char} :
    Lexed (before ++ after) rest ↔ Lexed before (textOf after ++ rest) ∧ Lexed after rest := by
  induction before with
  | nil => exact (and_iff_right (.done _)).symm
  | cons lexeme before ih =>
    rw [List.cons_append, lexed_cons_iff, lexed_cons_iff, ih, textOf_append, List.append_assoc,
      and_assoc]

theorem Lexed.scan_eq {lexemes : List Lexeme} {rest : List Char} (lexed : Lexed lexemes rest) :
    scan (textOf lexemes ++ rest) = (words lexemes ++ (scan rest).1, (scan rest).2) := by
  induction lexed with
  | done => rfl
  | @next lexeme more rest found _ ih =>
    rw [textOf_cons, List.append_assoc, scan_append found, ih, words_cons lexeme, List.append_assoc]

theorem Lexed.text_ne_nil {lexemes : List Lexeme} {rest : List Char} (h : Lexed lexemes rest) :
    ∀ lexeme ∈ lexemes, lexeme.text ≠ [] := by
  induction h with
  | done => nofun
  | next found _ ih =>
    exact List.forall_mem_cons.2 ⟨List.length_pos_iff.1 (Lexer.firstMatch?_pos found), ih⟩

/-- The lexemes of a text are found in it one behind the other. -/
theorem lexed_lexemes (lexer : Lexer) :
    lexer.rest = textOf lexer.lexemes.1 ++ lexer.lexemes.2.rest ∧
      Lexed lexer.lexemes.1 lexer.lexemes.2.rest := by
  induction lexer using Lexer.lexemes.induct with
  | case1 lexer h =>
    rw [Lexer.lexemes_of_none h]
    exact ⟨rfl, .done _⟩
  | case2 lexer lexeme behind h _ _ _ ih =>
    obtain ⟨-, split, -⟩ := Lexer.next?_spec h
    rw [Lexer.lexemes_of_some h]
    refine ⟨by rw [textOf_cons, List.append_assoc, ← ih.1, split], .next ?_ ih.2⟩
    rw [← ih.1, ← split]
    obtain ⟨⟨kind, n⟩, found, h⟩ := Option.map_eq_some_iff.1 h
    cases h
    rw [found, List.length_take,
      Nat.min_eq_left (match?_le (firstMatch?_eq_some_iff.1 found).2)]

/-! ## Another text behind -/

/-- The unit of a number stays apart from it, whatever lexemes come between. -/
theorem unitLength_tail {rest rest' : List Char} (tail : List Char) (noN : rest'.head? ≠ some 'n')
    (noS : rest'.head? ≠ some 's') (same : rest'.head? = rest.head? ∨ tail ≠ ['n', 's'])
    (h : unitLength (tail ++ rest) = 0) : unitLength (tail ++ rest') = 0 := by
  rcases unitLength_cases (tail ++ rest') with none | ⟨-, behind, split⟩
  · exact none
  match tail with
  | [] => exact absurd (congrArg List.head? split) noN
  | [_] =>
    simp only [List.cons_append, List.nil_append, List.cons.injEq] at split
    exact absurd (congrArg List.head? split.2) noS
  | c :: d :: tail =>
    simp only [List.cons_append, List.cons.injEq] at split
    obtain ⟨rfl, rfl, -⟩ := split
    rw [List.cons_append, List.cons_append, unitLength_eq_zero_iff] at h ⊢
    cases tail with
    | nil =>
      rw [List.nil_append, begins] at h ⊢
      rwa [same.resolve_right (fun differs => differs rfl)]
    | cons c tail => exact h

theorem Lexed.exists_cons {lexeme : Lexeme} {more : List Lexeme} {rest : List Char}
    (lexed : Lexed (lexeme :: more) rest) :
    ∃ c cs, lexeme.text = c :: cs ∧ opener c = lexeme.kind.group ∧ opener c ≠ .endOfInput := by
  have here := (firstMatch?_eq_some_iff.1 (lexed_cons_iff.1 lexed).1).2
  obtain ⟨c, cs, text, opens⟩ := exists_cons_of_match? here
  rw [text] at here
  exact ⟨c, cs, text, opens, opener_ne here⟩

/-- No lexeme begins with a parenthesis or a point. -/
theorem Replaces.behind {lexemes : List Lexeme} {rest rest' : List Char}
    (replaces : Replaces rest rest') (lexed : Lexed lexemes rest) :
    Replaces (textOf lexemes ++ rest) (textOf lexemes ++ rest') := by
  cases lexemes with
  | nil => exact replaces
  | cons lexeme more =>
    obtain ⟨c, cs, text, -, opens⟩ := lexed.exists_cons
    simp only [textOf_cons, text, List.cons_append]
    refine ⟨.inl rfl, ?_, ?_⟩
    · rintro ⟨⟩
      exact opens rfl
    · rintro ⟨⟩
      exact opens rfl

/-- A text may follow some lexemes in place of another one without a change to their words. -/
structure Follows (lexemes : List Lexeme) (rest rest' : List Char) : Prop where
  replaces : Replaces rest rest'
  units : ∀ before number after, lexemes = before ++ number :: after → number.kind = .number →
    unitLength (textOf after ++ rest) = 0 → unitLength (textOf after ++ rest') = 0
  line : ∀ before comment, lexemes = before ++ [comment] → comment.kind = .comment →
    begins (!isBreak ·) rest = false → begins (!isBreak ·) rest' = false

namespace Follows

variable {lexeme : Lexeme} {lexemes : List Lexeme} {rest rest' : List Char}

theorem tail (follows : Follows (lexeme :: lexemes) rest rest') : Follows lexemes rest rest' where
  replaces := follows.replaces
  units before number after split :=
    follows.units (lexeme :: before) number after (congrArg (lexeme :: ·) split)
  line before comment split :=
    follows.line (lexeme :: before) comment (congrArg (lexeme :: ·) split)

/-- A text may follow that begins with the same character, where a lexeme begins that is no name. -/
theorem of_opener {c : Char} (opens : opener c ≠ .endOfInput) (noName : opener c ≠ .identifier)
    (lexemes : List Lexeme) (cs cs' : List Char) : Follows lexemes (c :: cs) (c :: cs') := by
  have other {d : Char} (h : opener d = .endOfInput ∨ opener d = .identifier) :
      (c :: cs').head? ≠ some d := by
    rintro ⟨⟩
    exact h.elim opens noName
  exact {
    replaces := ⟨.inl rfl, other (.inl rfl), other (.inl rfl)⟩
    units before number after _ _ :=
      unitLength_tail (textOf after) (other (.inr rfl)) (other (.inr rfl)) (.inl rfl)
    line _ _ _ _ := id }

/-- Layout may follow, unless a number takes a unit or a comment goes on. -/
theorem layout {c : Char} (begins : beginsLayout c = true) (cs : List Char)
    (apart : ∀ before number after, lexemes = before ++ number :: after → number.kind = .number →
      textOf after ≠ ['n', 's'])
    (line : isBreak c = true ∨ ∀ before comment, lexemes = before ++ [comment] →
      comment.kind ≠ .comment) : Follows lexemes rest (c :: cs) := by
  have other {d : Char} (h : beginsLayout d = false) : (c :: cs).head? ≠ some d := by
    rintro ⟨⟩
    cases h.symm.trans begins
  exact {
    replaces := ⟨.inr ⟨c, rfl, begins⟩, other (by decide), other (by decide)⟩
    units before number after split isNumber :=
      unitLength_tail (textOf after) (other (by decide)) (other (by decide))
        (.inr (apart before number after split isNumber))
    line before comment split isComment _ := by
      simpa [Definition.begins] using line.resolve_right fun others =>
        others before comment split isComment }

end Follows

/-- The words in front of a text are found in front of another one too. -/
theorem Lexed.placedWords_replace {lexemes : List Lexeme} {rest rest' : List Char}
    (lexed : Lexed lexemes rest) (follows : Follows lexemes rest rest')
    (offset : Nat) (current : Lexeme) :
    let behind : Lexer := ⟨offset + byteLength (textOf lexemes), rest', current⟩
    ∃ front, front.map Lexeme.unplaced = words lexemes ∧
      (⟨offset, textOf lexemes ++ rest', current⟩ : Lexer).placedWords =
        (front ++ behind.placedWords.1, behind.placedWords.2) := by
  induction lexed generalizing offset with
  | done => exact ⟨[], rfl, rfl⟩
  | @next lexeme more rest found others ih =>
    obtain ⟨noBreak, here⟩ := firstMatch?_eq_some_iff.1 found
    obtain ⟨front, same, later⟩ := ih follows.tail (offset + byteLength lexeme.text)
    rw [textOf_cons, List.append_assoc, byteLength_append, ← Nat.add_assoc, words_cons]
    by_cases isBlanks : lexeme.kind = .blanks
    · -- blanks may go on in the other text, but make no word
      rw [isBlanks] at here ⊢
      have blank := (runLength_append_iff.1 (runLength_of_run? here)).1
      exact ⟨front, same, (placedWords_blanks blank _).trans later⟩
    · have line (isComment : lexeme.kind = .comment) :
          begins (!isBreak ·) (textOf more ++ rest) = false →
            begins (!isBreak ·) (textOf more ++ rest') = false := by
        cases more with
        | nil => exact follows.line [] lexeme rfl isComment
        | cons next more =>
          obtain ⟨c, cs, text, -⟩ := others.exists_cons
          simp [textOf_cons, text, begins]
      have here := match?_replace (follows.replaces.behind others).endsLike
        (follows.units [] lexeme more rfl) line isBlanks here
      refine ⟨[⟨lexeme.kind, offset, lexeme.text⟩].filter (!·.kind.isLayout) ++ front, ?_, ?_⟩
      · rw [List.map_append, same]
        cases h : lexeme.kind.isLayout <;> simp [words, h, Lexeme.unplaced]
      · simp only [placedWords_append (firstMatch?_of_match? here noBreak), later,
          List.append_assoc]

theorem Lexed.scan_replace {lexemes : List Lexeme} {rest rest' : List Char}
    (lexed : Lexed lexemes rest) (follows : Follows lexemes rest rest') :
    scan (textOf lexemes ++ rest') = (words lexemes ++ (scan rest').1, (scan rest').2) := by
  obtain ⟨front, same, placed⟩ := lexed.placedWords_replace follows 0 (.endAt 0)
  rw [scan_rest_eq ⟨0, textOf lexemes ++ rest', .endAt 0⟩, placed,
    scan_rest_eq ⟨0 + byteLength (textOf lexemes), rest', .endAt 0⟩, List.map_append, same]

end Pinout.Definition
