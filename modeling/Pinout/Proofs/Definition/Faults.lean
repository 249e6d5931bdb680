import Mathlib.Data.List.Nodup
import Pinout.Proofs.Definition.Scanning

/-! # Where faults are reported

A fault stands at the first wrong place: what comes in front of it can be completed on another line,
and together with the lexeme that stands there it cannot. There is one exception. The word `ns`
behind a number is a name of its own where the word goes on, and a unit where it ends, so a line
feed behind it may take it away as the wrong place.
-/

namespace Pinout.Definition

open Text

variable {state : State} {lexeme : Lexeme} {lexemes : List Lexeme}

/-- The words that close what is open are their own spelling. -/
theorem spells_closing (place : Place) : Spells (textOf place.closing) place.closing := by
  refine .of_lexemes fun lexeme member => ?_
  have known : place.closing ⊆ [someName, someBlock, openingBrace, closingBrace] := by
    cases place <;> simp [Place.closing]
  have known := known member
  simp only [List.mem_cons, List.not_mem_nil, or_false] at known
  rcases known with rfl | rfl | rfl | rfl
  · exact .lexeme .quoted nofun fun _ => rfl
  · exact .lexeme .block nofun fun _ => rfl
  · exact .mark .openBrace nofun fun _ => rfl
  · exact .mark .closeBrace nofun fun _ => rfl

/-- A text that may go on on the next line so that it is read without a fault. -/
def Viable (text : List Char) : Prop :=
  ∃ more, (read (.ofList (text ++ '\n' :: more))).fault = none

def SpellsLine (text : List Char) (lexemes : List Lexeme) : Prop :=
  ∀ more, scan (text ++ '\n' :: more) = (lexemes ++ (scan more).1, (scan more).2)

theorem SpellsLine.viable_iff {text : List Char} (spells : SpellsLine text lexemes) :
    Viable text ↔ ∃ state, Reaches {} lexemes state := by
  constructor
  · rintro ⟨more, complete⟩
    obtain ⟨-, boards, completes⟩ := (fault_eq_none_iff_scan _).1 complete
    rw [String.toList_ofList, spells] at completes
    obtain ⟨state, reaches, -⟩ := reaches_append_iff.1 completes
    exact ⟨state, reaches⟩
  · rintro ⟨state, reaches⟩
    obtain ⟨boards, completes⟩ := completes_closing state
    refine ⟨textOf state.place.closing, (fault_eq_none_iff_scan _).2 ?_⟩
    rw [String.toList_ofList, spells, (spells_closing _).scan_eq]
    exact ⟨rfl, boards, reaches_append_iff.2 ⟨state, reaches, completes⟩⟩

/-! ## Cutting a text off -/

variable {rest : List Char}

/-- Lexemes stay where a line is cut off behind them, unless a number takes a unit. -/
theorem Lexed.spellsLine (lexed : Lexed lexemes rest)
    (apart : ∀ before number after, lexemes = before ++ number :: after → number.kind = .number →
      textOf after ≠ ['n', 's']) :
    SpellsLine (textOf lexemes) (words lexemes) := by
  intro more
  rw [lexed.scan_replace (.layout (by decide) more apart (.inl rfl)),
    scan_cons_of_isBlank (by decide)]

theorem match?_unit (rest : List Char) :
    ∃ n, Kind.identifier.match? ('n' :: 's' :: rest) = some n ∧ 2 ≤ n := by
  have start : isIdentifierStart 'n' = true := by decide
  have second : isIdentifierRest 's' = true := by decide
  simp only [Kind.match?, identifier?, start, if_true, runLength_cons, second]
  exact ⟨_, rfl, by omega⟩

/-- A unit that is lexed apart from the number in front is one lexeme. -/
theorem Lexed.eq_singleton (lexed : Lexed lexemes rest) (h : textOf lexemes = ['n', 's']) :
    ∃ unit, lexemes = [unit] ∧ unit.text = ['n', 's'] := by
  have texts := lexed.text_ne_nil
  cases lexed with
  | done => cases h
  | @next unit more _ found _ =>
    rw [textOf_cons] at h
    rw [← List.append_assoc, h] at found
    obtain ⟨n, identifier, long⟩ := match?_unit rest
    have same := found.symm.trans (firstMatch?_of_match? identifier nofun)
    have whole : unit.text.length = n := congrArg Prod.snd (Option.some.inj same)
    have total := congrArg List.length h
    rw [List.length_append, whole] at total
    cases more with
    | nil =>
      rw [textOf_nil, List.append_nil] at h
      exact ⟨unit, rfl, h⟩
    | cons lexeme more =>
      have := List.length_pos_iff.2 (texts lexeme (by simp))
      simp only [textOf_cons, List.length_append, List.length_cons, List.length_nil] at total
      omega

/-- A unit that is lexed apart is a name that ends behind it. -/
theorem Lexed.unit_spec {unit : Lexeme} (lexed : Lexed [unit] rest)
    (isUnit : unit.text = ['n', 's']) :
    unit.kind = .identifier ∧ begins isIdentifierRest rest = false := by
  have found := (lexed_cons_iff.1 lexed).1
  rw [isUnit, textOf_nil, List.nil_append] at found
  obtain ⟨n, identifier, -⟩ := match?_unit rest
  have same := Option.some.inj (found.symm.trans (firstMatch?_of_match? identifier nofun))
  cases (congrArg Prod.snd same : 2 = n)
  refine ⟨congrArg Prod.fst same, runLength_eq_zero_iff.1 ?_⟩
  have second : isIdentifierRest 's' = true := by decide
  simp only [Kind.match?, identifier?, runLength_cons, second, if_true,
    Option.ite_none_right_eq_some, Option.some.injEq] at identifier
  omega

/-- Where a word ends behind a unit, the number in front takes it. -/
theorem Lexed.scan_unit {front : List Lexeme} {number unit : Lexeme}
    (lexed : Lexed (front ++ [number, unit]) rest) (isNumber : number.kind = .number)
    (isUnit : unit.text = ['n', 's']) {rest' : List Char}
    (ends : begins Unicode.isWord rest' = false) :
    scan (textOf (front ++ [number, unit]) ++ rest') =
      (words (front ++ [⟨.number, number.offset, number.text ++ ['n', 's']⟩]) ++ (scan rest').1,
        (scan rest').2) := by
  obtain ⟨before, behind⟩ := lexed_append_iff.1 lexed
  obtain ⟨c, cs, text, opens, -⟩ := behind.exists_cons
  have here := (firstMatch?_eq_some_iff.1 (lexed_cons_iff.1 behind).1).2
  simp only [isNumber, textOf_cons, textOf_nil, isUnit, List.append_nil] at here before
  have taken : Kind.number.match? ((number.text ++ ['n', 's']) ++ rest') =
      some (number.text ++ ['n', 's']).length := by
    rw [List.append_assoc, List.length_append]
    exact number?_unit here ends
  have scanned := scan_append (firstMatch?_of_match? taken nofun)
  have texts : textOf (front ++ [number, unit]) ++ rest' =
      textOf front ++ (number.text ++ ['n', 's'] ++ rest') := by
    simp [isUnit]
  -- what comes in front sees the first figure of the number only
  have follows : Follows front (number.text ++ ['n', 's'] ++ rest)
      (number.text ++ ['n', 's'] ++ rest') := by
    rw [isNumber] at opens
    rw [text]
    exact .of_opener (by simp [opens, Kind.group]) (by simp [opens, Kind.group]) front _ _
  rw [texts, before.scan_replace follows, scanned, words_append, List.append_assoc]
  rfl

/-- Where a line is cut off behind a unit, the number in front takes it. -/
theorem Lexed.spellsLine_unit {front : List Lexeme} {number unit : Lexeme}
    (lexed : Lexed (front ++ [number, unit]) rest) (isNumber : number.kind = .number)
    (isUnit : unit.text = ['n', 's']) :
    SpellsLine (textOf (front ++ [number, unit]))
      (words (front ++ [⟨.number, number.offset, number.text ++ ['n', 's']⟩])) := by
  intro more
  rw [lexed.scan_unit isNumber isUnit rfl, scan_cons_of_isBlank (by decide)]

/-- Where a number is taken, another one could be taken. -/
theorem Reaches.number {front more : List Lexeme} {number : Lexeme}
    (reaches : Reaches {} (words (front ++ number :: more)) state)
    (isNumber : number.kind = .number) (offset : Nat) (text : List Char) :
    ∃ state', Reaches {} (words (front ++ [⟨.number, offset, text⟩])) state' := by
  rw [words_append, words_cons, isNumber] at reaches
  obtain ⟨middle, before, behind⟩ := reaches_append_iff.1 reaches
  obtain ⟨next, taken, -⟩ := reaches_cons_iff.1 behind
  have other : (step middle ⟨.number, 0, text⟩).isSome =
      (step middle ⟨.number, 0, number.text⟩).isSome :=
    step_isSome_congr rfl
  rw [show step middle ⟨.number, 0, number.text⟩ = some next from taken] at other
  obtain ⟨next', taken'⟩ := Option.isSome_iff_exists.1 other
  rw [words_append]
  exact ⟨next', reaches_append_iff.2 ⟨middle, before, reaches_cons_iff.2 ⟨next', taken', rfl⟩⟩⟩

/-- Either no number could take a unit, or lexemes end in a number and a unit. -/
theorem Lexed.apart_or_unit (lexed : Lexed lexemes rest) :
    (∀ before number after, lexemes = before ++ number :: after → number.kind = .number →
      textOf after ≠ ['n', 's']) ∨
      ∃ front number unit, lexemes = front ++ [number, unit] ∧ number.kind = .number ∧
        unit.text = ['n', 's'] := by
  by_cases apart : ∀ before number after, lexemes = before ++ number :: after →
      number.kind = .number → textOf after ≠ ['n', 's']
  · exact .inl apart
  · push Not at apart
    obtain ⟨front, number, after, rfl, isNumber, together⟩ := apart
    have behind := (lexed_cons_iff.1 (lexed_append_iff.1 lexed).2).2
    obtain ⟨unit, rfl, isUnit⟩ := behind.eq_singleton together
    exact .inr ⟨front, number, unit, rfl, isNumber, isUnit⟩

/-- What was taken can be completed. -/
theorem Lexed.viable (lexed : Lexed lexemes rest) (reaches : Reaches {} (words lexemes) state) :
    Viable (textOf lexemes) := by
  rcases lexed.apart_or_unit with apart | ⟨front, number, unit, rfl, isNumber, isUnit⟩
  · exact (lexed.spellsLine apart).viable_iff.2 ⟨state, reaches⟩
  · exact (lexed.spellsLine_unit isNumber isUnit).viable_iff.2 (reaches.number isNumber _ _)

/-- What was not taken can be completed only where it joins the number in front. -/
theorem Lexed.viable_concat_iff (lexed : Lexed (lexemes ++ [lexeme]) rest)
    (reaches : Reaches {} (words lexemes) state) (stuck : step state lexeme = none)
    (isWord : lexeme.kind.isLayout = false) :
    Viable (textOf (lexemes ++ [lexeme])) ↔
      lexeme.text = ['n', 's'] ∧
        ∃ front number, lexemes = front ++ [number] ∧ number.kind = .number := by
  constructor
  · intro viable
    rcases lexed.apart_or_unit with apart | ⟨front, number, unit, split, isNumber, isUnit⟩
    · obtain ⟨state', whole⟩ := (lexed.spellsLine apart).viable_iff.1 viable
      rw [words_append] at whole
      obtain ⟨middle, before, behind⟩ := reaches_append_iff.1 whole
      cases reaches.unique before
      -- the lexeme would have been taken
      have alone : words [lexeme] = [lexeme.unplaced] := by
        simp [words, isWord]
      rw [alone] at behind
      obtain ⟨next, taken, -⟩ := reaches_cons_iff.1 behind
      cases stuck.symm.trans taken
    · rw [List.append_cons front] at split
      obtain ⟨rfl, same⟩ := List.append_inj' split rfl
      cases same
      exact ⟨isUnit, front, number, rfl, isNumber⟩
  · rintro ⟨isUnit, front, number, rfl, isNumber⟩
    rw [List.append_assoc] at lexed ⊢
    exact (lexed.spellsLine_unit isNumber isUnit).viable_iff.2 (reaches.number isNumber _ _)

/-! ## The place of the fault -/

theorem offset_of_split {lexer : Lexer} {front back : List Lexeme}
    (split : lexer.lexemes.1 = front ++ lexeme :: back) :
    lexeme.offset = lexer.offset + byteLength (textOf front) := by
  induction lexer using Lexer.lexemes.induct generalizing front with
  | case1 lexer h =>
    rw [Lexer.lexemes_of_none h] at split
    cases front <;> cases split
  | case2 lexer first behind h _ _ _ ih =>
    obtain ⟨here, -, -, moved⟩ := Lexer.next?_spec h
    rw [Lexer.lexemes_of_some h] at split
    cases front with
    | nil =>
      cases split
      exact here
    | cons first front =>
      obtain ⟨rfl, behind⟩ := List.cons.inj split
      rw [ih behind, moved, textOf_cons, byteLength_append, Nat.add_assoc]

theorem offset_lexemes (lexer : Lexer) :
    lexer.lexemes.2.offset = lexer.offset + byteLength (textOf lexer.lexemes.1) := by
  induction lexer using Lexer.lexemes.induct with
  | case1 lexer h => rw [Lexer.lexemes_of_none h, textOf_nil, byteLength_nil, Nat.add_zero]
  | case2 lexer first behind h _ _ _ ih =>
    obtain ⟨-, -, -, moved⟩ := Lexer.next?_spec h
    rw [Lexer.lexemes_of_some h, textOf_cons, byteLength_append, ih, moved, Nat.add_assoc]

theorem offset_fault {source : String} {fault : Diagnostic}
    (h : (read source).fault = some fault) :
    fault.offset = nextOffset source (run {} (wordsOf source)).2 := by
  obtain ⟨⟨offset, complaint⟩, found, rfl⟩ := Option.map_eq_some_iff.1 h
  unfold wordsOf
  generalize run {} ((Lexer.ofSource source).lexemes.1.filter (!·.kind.isLayout)) = outcome
    at found ⊢
  obtain ⟨⟨boards, place⟩, left⟩ := outcome
  cases left with
  | cons lexeme left =>
    cases found
    rfl
  | nil =>
    cases place with
    | betweenBoards =>
      obtain ⟨-, same⟩ := Option.ite_none_right_eq_some.1 found
      cases same
      rfl
    | _ =>
      cases found
      rfl

theorem nodup_offsets (lexer : Lexer) : (lexer.lexemes.1.map (·.offset)).Nodup :=
  (List.pairwise_append.1 lexer.pairwise_offsets).1.imp Nat.ne_of_lt

/-- A lexeme stands in one place. -/
theorem eq_of_split {lexer : Lexer} {front back front' back' : List Lexeme}
    (split : lexer.lexemes.1 = front ++ lexeme :: back)
    (split' : lexer.lexemes.1 = front' ++ lexeme :: back') : front = front' := by
  have nodup := (nodup_offsets lexer).of_map
  rw [split, List.nodup_middle, List.nodup_cons, List.mem_append, not_or] at nodup
  exact ((List.append_cons_inj_of_notMem nodup.1.1 nodup.1.2).1 (split.symm.trans split')).1

theorem offset_lt_end {lexer : Lexer} (member : lexeme ∈ lexer.lexemes.1) :
    lexeme.offset < lexer.lexemes.2.offset :=
  (List.pairwise_append.1 lexer.pairwise_offsets).2.2 _ (List.mem_map_of_mem member) _
    (List.mem_singleton_self _)

/-- All that stands in front of a fault was taken, and a lexeme that stands there cannot be. -/
theorem fault_spec {source : String} {fault : Diagnostic} (h : (read source).fault = some fault) :
    ∃ front back state, (Lexer.ofSource source).lexemes.1 = front ++ back ∧
      Reaches {} (words front) state ∧ fault.offset = byteLength (textOf front) ∧
      ∀ lexeme ∈ (Lexer.ofSource source).lexemes.1, lexeme.offset = fault.offset →
        ∃ more, back = lexeme :: more ∧ step state lexeme = none ∧
          lexeme.kind.isLayout = false := by
  have offset := offset_fault h
  obtain ⟨taken, split, reaches, stuck⟩ := run_spec {} (wordsOf source)
  generalize run {} (wordsOf source) = outcome at *
  obtain ⟨state, left⟩ := outcome
  cases left with
  | nil =>
    -- the words were all taken, and the fault is behind all lexemes
    rw [List.append_nil] at split
    cases split
    refine ⟨_, [], state, (List.append_nil _).symm, reaches_unplaced.2 reaches, ?_, ?_⟩
    · rw [offset]
      exact (offset_lexemes _).trans (Nat.zero_add _)
    · intro lexeme member here
      have inside := offset_lt_end member
      rw [here, offset] at inside
      exact absurd inside (Nat.lt_irrefl _)
  | cons lexeme left =>
    obtain ⟨front, behind, whole, rfl, others⟩ := List.filter_eq_append_iff.1 split
    obtain ⟨layout, back, rfl, noWords, isWord, -⟩ := List.filter_eq_cons_iff.1 others
    have noWords : layout.filter (!·.kind.isLayout) = [] := List.filter_eq_nil_iff.2 noWords
    rw [← List.append_assoc] at whole
    have here := (offset_of_split whole).trans (Nat.zero_add _)
    refine ⟨front ++ layout, lexeme :: back, state, whole, ?_, offset.trans here, ?_⟩
    · rw [words, List.filter_append, noWords, List.append_nil]
      exact reaches_unplaced.2 reaches
    · intro other member there
      have member' : lexeme ∈ (Lexer.ofSource source).lexemes.1 := by
        rw [whole]
        simp
      cases List.inj_on_of_nodup_map (nodup_offsets _) member member' (there.trans offset)
      exact ⟨back, rfl, stuck lexeme left rfl, by simpa using isWord⟩

/-- A fault stands at the first wrong place. What comes in front of it can be completed on the next
line. A lexeme that stands there cannot be made part of it, unless it is a unit directly behind a
number. -/
theorem fault_at_first_wrong_place (source : String) (fault : Diagnostic)
    (h : (read source).fault = some fault) :
    ∃ before after, source.toList = before ++ after ∧ byteLength before = fault.offset ∧
      Viable before ∧
      ∀ lexeme ∈ (Lexer.ofSource source).lexemes.1, lexeme.offset = fault.offset →
        (Viable (before ++ lexeme.text) ↔
          lexeme.text = ['n', 's'] ∧ ∃ front number back, number.kind = .number ∧
            (Lexer.ofSource source).lexemes.1 = front ++ number :: lexeme :: back) := by
  obtain ⟨front, back, state, split, reaches, offset, standing⟩ := fault_spec h
  obtain ⟨whole, lexed⟩ := lexed_lexemes (Lexer.ofSource source)
  rw [split] at whole lexed
  have before := (lexed_append_iff.1 lexed).1
  rw [textOf_append, List.append_assoc] at whole
  refine ⟨textOf front, _, whole, offset.symm, before.viable reaches, fun lexeme member here => ?_⟩
  obtain ⟨back, rfl, stuck, isWord⟩ := standing lexeme member here
  rw [List.append_cons] at lexed
  have upTo := (lexed_append_iff.1 lexed).1.viable_concat_iff reaches stuck isWord
  rw [textOf_append, textOf_cons, textOf_nil, List.append_nil] at upTo
  rw [upTo]
  refine and_congr_right fun _ => ⟨?_, ?_⟩
  · rintro ⟨front, number, rfl, isNumber⟩
    exact ⟨front, number, back, isNumber, by rw [split, List.append_assoc]; rfl⟩
  · rintro ⟨front', number, back', isNumber, split'⟩
    rw [List.append_cons] at split'
    exact ⟨front', number, eq_of_split split split', isNumber⟩

theorem fault_at_first_wrong_place_brace :
    ∃ fault, (read "One \x7d").fault = some fault ∧ fault.offset = 4 ∧
      ∃ before after, "One \x7d".toList = before ++ after ∧ byteLength before = fault.offset ∧
        Viable before ∧
        ∀ lexeme ∈ (Lexer.ofSource "One \x7d").lexemes.1, lexeme.offset = fault.offset →
          (Viable (before ++ lexeme.text) ↔
            lexeme.text = ['n', 's'] ∧ ∃ front number back, number.kind = .number ∧
              (Lexer.ofSource "One \x7d").lexemes.1 = front ++ number :: lexeme :: back) := by
  have found : ∃ fault, (read "One \x7d").fault = some fault ∧ fault.offset = 4 := by
    decide +kernel
  obtain ⟨fault, h, offset⟩ := found
  exact ⟨fault, h, offset, fault_at_first_wrong_place "One \x7d" fault h⟩

/-- In front of a letter that begins nothing, `ns` cannot follow the number. On a line of its own
`12ns` is a name. -/
theorem viable_with_unit :
    ∃ fault, (read "12nsé").fault = some fault ∧ fault.offset = byteLength ['1', '2'] ∧
      ∃ lexeme ∈ (Lexer.ofSource "12nsé").lexemes.1,
        lexeme.offset = fault.offset ∧ Viable (['1', '2'] ++ lexeme.text) := by
  have found : ∃ fault, (read "12nsé").fault = some fault ∧ fault.offset = 2 := by
    decide +kernel
  obtain ⟨fault, h, offset⟩ := found
  have member : ⟨.identifier, 2, ['n', 's']⟩ ∈ (Lexer.ofSource "12nsé").lexemes.1 := by
    decide +kernel
  have complete :
      (read (.ofList (['1', '2'] ++ ['n', 's'] ++ '\n' :: ['{', '}']))).fault = none := by
    decide +kernel
  exact ⟨fault, h, offset, _, member, offset.symm, ['{', '}'], complete⟩

end Pinout.Definition
