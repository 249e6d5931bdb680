import Pinout.Definition.Lexer

/-! # Which lexeme stands at the beginning of a text

The first character of a lexeme tells its kind, except for the two words with an at sign, so the
order in which kinds are tried only decides between blanks and line terminators. How far a lexeme
reaches depends on what follows; `EndsLike` says in front of what it ends alike, and `Replaces` what
may follow in place of another text.
-/

namespace Pinout.Definition

open Text

/-! ## First characters -/

/-- The kind of the lexemes that begin with a character, that of header words for an at sign. -/
def opener (c : Char) : Kind :=
  if isBlank c then .blanks
  else if c = '#' then .comment
  else if isIdentifierStart c then .identifier
  else if c.isDigit then .number
  else if c = '@' then .headerWord
  else if c = ',' then .comma
  else if c = ':' then .colon
  else if c = '=' then .equals
  else if c = '"' then .quoted
  else if c = '<' then .block
  else if c = '{' then .openBrace
  else if c = '}' then .closeBrace
  else if c = '[' then .openBracket
  else if c = ']' then .closeBracket
  else .endOfInput

def Kind.group : Kind → Kind
  | .lineBreak => .blanks
  | .configWord => .headerWord
  | kind => kind

theorem isBlank_of_ascii {c : Char} (h : 0x20 < c.toNat) (h' : c.toNat < 0x80) :
    isBlank c = false := by
  simp [isBlank, h']
  omega

theorem toNat_of_isIdentifierStart {c : Char} (h : isIdentifierStart c = true) :
    c.toNat = 0x2D ∨ (0x41 ≤ c.toNat ∧ c.toNat ≤ 0x7A) := by
  simp only [isIdentifierStart, Bool.or_eq_true, beq_iff_eq] at h
  rcases h with (rfl | rfl) | letter
  · exact .inl rfl
  · exact .inr (by decide)
  · have code : (65 ≤ c.toNat ∧ c.toNat ≤ 90) ∨ (97 ≤ c.toNat ∧ c.toNat ≤ 122) :=
      (Bool.or_eq_true_iff.1 letter).imp of_decide_eq_true fun small =>
        (Bool.and_eq_true_iff.1 small).imp of_decide_eq_true of_decide_eq_true
    omega

theorem toNat_of_isDigit {c : Char} (h : c.isDigit = true) : 0x30 ≤ c.toNat ∧ c.toNat ≤ 0x39 := by
  simp only [Char.isDigit, Bool.and_eq_true, decide_eq_true_eq] at h
  exact h

theorem opener_of_isBlank {c : Char} (h : isBlank c = true) : opener c = .blanks := by
  simp [opener, h]

theorem opener_of_isIdentifierStart {c : Char} (h : isIdentifierStart c = true) :
    opener c = .identifier := by
  have code := toNat_of_isIdentifierStart h
  have notBlank : isBlank c = false := isBlank_of_ascii (by omega) (by omega)
  have noHash : c ≠ '#' := by
    rintro rfl
    cases h
  simp [opener, notBlank, noHash, h]

theorem opener_of_isDigit {c : Char} (h : c.isDigit = true) : opener c = .number := by
  have code := toNat_of_isDigit h
  have notBlank : isBlank c = false := isBlank_of_ascii (by omega) (by omega)
  have noHash : c ≠ '#' := by
    rintro rfl
    cases h
  have notStart : isIdentifierStart c = false := by
    rw [Bool.eq_false_iff]
    intro start
    have := toNat_of_isIdentifierStart start
    omega
  simp [opener, notBlank, noHash, notStart, h]

/-- Beyond ASCII only blanks begin a lexeme. -/
theorem opener_of_beyond {c : Char} (beyond : ¬ c.toNat < 0x80) (notBlank : isBlank c = false) :
    opener c = .endOfInput := by
  have other {d : Char} (ascii : d.toNat < 0x80) : c ≠ d := by
    rintro rfl
    exact beyond ascii
  have notStart : isIdentifierStart c = false := by
    rw [Bool.eq_false_iff]
    intro start
    have := toNat_of_isIdentifierStart start
    omega
  have notDigit : c.isDigit = false := by
    rw [Bool.eq_false_iff]
    intro digit
    have := toNat_of_isDigit digit
    omega
  simp [opener, notBlank, notStart, notDigit, other]

theorem head_of_run? {p : Char → Bool} {c : Char} {cs : List Char} {n : Nat}
    (h : run? p (c :: cs) = some n) : p c = true := by
  cases first : p c with
  | true => rfl
  | false => simp [run?, runLength, first] at h

theorem runLength_of_run? {p : Char → Bool} {cs : List Char} {n : Nat} (h : run? p cs = some n) :
    runLength p cs = n := by
  unfold run? at h
  split at h <;> cases h
  assumption

theorem word?_eq_some_iff {word cs : List Char} {n : Nat} :
    word? word cs = some n ↔ n = word.length ∧ ∃ rest, cs = word ++ rest := by
  simp only [word?, Option.ite_none_right_eq_some, List.isPrefixOf_iff_prefix, Option.some.injEq]
  constructor
  · rintro ⟨⟨rest, rfl⟩, rfl⟩
    exact ⟨rfl, rest, rfl⟩
  · rintro ⟨rfl, rest, rfl⟩
    exact ⟨List.prefix_append word rest, rfl⟩

theorem head_of_word? {first c : Char} {word cs : List Char} {n : Nat}
    (h : word? (first :: word) (c :: cs) = some n) : c = first := by
  obtain ⟨-, rest, same⟩ := word?_eq_some_iff.1 h
  exact (List.cons.inj same).1

/-- A lexeme begins with a character of its kind. -/
theorem opener_of_match? {kind : Kind} {c : Char} {cs : List Char} {n : Nat}
    (h : kind.match? (c :: cs) = some n) : opener c = kind.group := by
  cases kind with
  | endOfInput => cases h
  | blanks => exact opener_of_isBlank (head_of_run? h)
  | comment =>
    simp only [Kind.match?, comment?] at h
    split at h
    · next same =>
      cases (List.cons.inj same).1
      rfl
    · cases h
  | lineBreak =>
    simp only [Kind.match?, lineBreak?, Option.ite_none_right_eq_some] at h
    exact opener_of_isBlank (isBlank_of_isBreak h.1)
  | identifier =>
    simp only [Kind.match?, identifier?, Option.ite_none_right_eq_some] at h
    exact opener_of_isIdentifierStart h.1
  | number =>
    obtain ⟨whole, run, -⟩ := Option.map_eq_some_iff.1 h
    exact opener_of_isDigit (head_of_run? run)
  | quoted =>
    simp only [Kind.match?, quoted?] at h
    split at h
    · next same =>
      cases (List.cons.inj same).1
      rfl
    · cases h
  | block =>
    simp only [Kind.match?, block?] at h
    split at h
    · next same =>
      cases (List.cons.inj same).1
      rfl
    · cases h
  | headerWord | configWord | comma | colon | equals | openBrace | closeBrace | openBracket
  | closeBracket => exact head_of_word? h ▸ rfl

theorem opener_ne {kind : Kind} {c : Char} {cs : List Char} {n : Nat}
    (h : kind.match? (c :: cs) = some n) : opener c ≠ .endOfInput := by
  rw [opener_of_match? h]
  cases kind with
  | endOfInput => cases h
  | _ => nofun

theorem exists_cons_of_match? {kind : Kind} {text rest : List Char}
    (h : kind.match? (text ++ rest) = some text.length) :
    ∃ c cs, text = c :: cs ∧ opener c = kind.group := by
  cases text with
  | nil => cases Lexer.match?_pos h
  | cons c cs => exact ⟨c, cs, rfl, opener_of_match? h⟩

/-! ## The kind of a lexeme -/

theorem group_eq (kind : Kind) :
    kind.group = kind ∨ kind = .lineBreak ∨ (kind = .configWord ∧ kind.group = .headerWord) := by
  cases kind <;> simp [Kind.group]

theorem not_both_words {cs : List Char} {n n' : Nat} (h : Kind.headerWord.match? cs = some n)
    (h' : Kind.configWord.match? cs = some n') : False := by
  obtain ⟨-, rest, rfl⟩ := word?_eq_some_iff.1 h
  obtain ⟨-, rest', same⟩ := word?_eq_some_iff.1 h'
  simp at same

/-- Kinds exclude each other, line terminators apart. -/
theorem kind_unique {kind kind' : Kind} {cs : List Char} {n n' : Nat}
    (h : kind.match? cs = some n) (h' : kind'.match? cs = some n') (noBreak : kind ≠ .lineBreak)
    (noBreak' : kind' ≠ .lineBreak) : kind = kind' := by
  cases cs with
  | nil => cases (Lexer.match?_nil kind).symm.trans h
  | cons c cs =>
    have same : kind.group = kind'.group :=
      (opener_of_match? h).symm.trans (opener_of_match? h')
    rcases group_eq kind with plain | rfl | ⟨rfl, word⟩
    · rcases group_eq kind' with plain' | rfl | ⟨rfl, word'⟩
      · exact plain.symm.trans (same.trans plain')
      · exact absurd rfl noBreak'
      · cases plain.symm.trans (same.trans word')
        exact (not_both_words h h').elim
    · exact absurd rfl noBreak
    · rcases group_eq kind' with plain' | rfl | ⟨rfl, -⟩
      · cases plain'.symm.trans (same.symm.trans word)
        exact (not_both_words h' h).elim
      · exact absurd rfl noBreak'
      · rfl

theorem mem_order {kind : Kind} {cs : List Char} {n : Nat} (h : kind.match? cs = some n) :
    kind ∈ Kind.order := by
  cases kind with
  | endOfInput => cases h
  | _ => decide

/-- Where a line ends, blanks begin. -/
theorem run?_of_lineBreak? {cs : List Char} {n : Nat} (h : lineBreak? cs = some n) :
    run? isBlank cs ≠ none := by
  cases cs with
  | nil => cases h
  | cons c cs =>
    simp only [lineBreak?, Option.ite_none_right_eq_some] at h
    simp [run?, runLength, isBlank_of_isBreak h.1]

theorem firstMatch?_eq_some_iff {cs : List Char} {kind : Kind} {n : Nat} :
    firstMatch? cs = some (kind, n) ↔ kind ≠ .lineBreak ∧ kind.match? cs = some n := by
  have sound {kind : Kind} {n : Nat} (h : firstMatch? cs = some (kind, n)) :
      kind ≠ .lineBreak ∧ kind.match? cs = some n := by
    obtain ⟨tried, found, more, order, here, missed⟩ := List.findSome?_eq_some_iff.1 h
    obtain ⟨m, here, same⟩ := Option.map_eq_some_iff.1 here
    cases same
    refine ⟨?_, here⟩
    rintro rfl
    -- blanks are tried first of all, and a line terminator is one
    cases tried with
    | nil => cases order
    | cons first tried =>
      obtain ⟨rfl, -⟩ := List.cons.inj order
      have noBlanks := Option.map_eq_none_iff.1 (missed .blanks (List.mem_cons_self ..))
      exact run?_of_lineBreak? here noBlanks
  constructor
  · exact sound
  · rintro ⟨noBreak, h⟩
    cases found : firstMatch? cs with
    | none =>
      have missed := List.findSome?_eq_none_iff.1 found kind (mem_order h)
      rw [h] at missed
      cases missed
    | some pair =>
      obtain ⟨noBreak', h'⟩ := sound found
      obtain ⟨kind', n'⟩ := pair
      cases kind_unique h' h noBreak' noBreak
      cases h'.symm.trans h
      rfl

theorem firstMatch?_of_match? {cs : List Char} {kind : Kind} {n : Nat}
    (h : kind.match? cs = some n) (noBreak : kind ≠ .lineBreak) :
    firstMatch? cs = some (kind, n) :=
  firstMatch?_eq_some_iff.2 ⟨noBreak, h⟩

/-! ## Lengths -/

theorem runLength_le (p : Char → Bool) (cs : List Char) : runLength p cs ≤ cs.length :=
  (List.takeWhile_prefix p).length_le

theorem run?_le {p : Char → Bool} {cs : List Char} {n : Nat} (h : run? p cs = some n) :
    n ≤ cs.length :=
  runLength_of_run? h ▸ runLength_le p cs

theorem lt_length_of_drop {α : Type} {cs more : List α} {c : α} {n : Nat}
    (h : cs.drop n = c :: more) : n < cs.length := by
  have := congrArg List.length h
  simp only [List.length_drop, List.length_cons] at this
  omega

theorem indexLength_le (cs : List Char) : indexLength cs ≤ cs.length := by
  unfold indexLength
  split
  · dsimp only
    split
    · next closing =>
      have := lt_length_of_drop closing
      rw [List.length_cons]
      omega
    · exact Nat.zero_le _
  · exact Nat.zero_le _

theorem fractionLength_le (cs : List Char) : fractionLength cs ≤ cs.length := by
  unfold fractionLength
  split
  · next cs =>
    have := runLength_le Char.isDigit cs
    rw [List.length_cons]
    split <;> omega
  · exact Nat.zero_le _

theorem unitLength_le (cs : List Char) : unitLength cs ≤ cs.length := by
  unfold unitLength
  split
  · exact Nat.le_refl _
  · split <;> simp
  · exact Nat.zero_le _

theorem blockEnd?_le {cs : List Char} {n : Nat} (h : blockEnd? cs = some n) : n ≤ cs.length := by
  fun_induction blockEnd? cs generalizing n with
  | case1 => cases h
  | case2 =>
    cases h
    simp
  | case3 c cs _ ih =>
    obtain ⟨m, found, rfl⟩ := Option.map_eq_some_iff.1 h
    exact Nat.succ_le_succ (ih found)

theorem word?_le {word cs : List Char} {n : Nat} (h : word? word cs = some n) : n ≤ cs.length := by
  obtain ⟨rfl, rest, rfl⟩ := word?_eq_some_iff.1 h
  simp

/-- A lexeme is part of the text. -/
theorem match?_le {kind : Kind} {cs : List Char} {n : Nat} (h : kind.match? cs = some n) :
    n ≤ cs.length := by
  cases kind with
  | endOfInput => cases h
  | blanks => exact run?_le h
  | comment =>
    simp only [Kind.match?, comment?] at h
    split at h
    · next cs =>
      have := runLength_le (!isBreak ·) cs
      cases h
      rw [List.length_cons]
      omega
    · cases h
  | lineBreak =>
    cases cs with
    | nil => cases h
    | cons c cs =>
      simp only [Kind.match?, lineBreak?, Option.ite_none_right_eq_some, Option.some.injEq] at h
      rw [List.length_cons]
      omega
  | identifier =>
    cases cs with
    | nil => cases h
    | cons c cs =>
      simp only [Kind.match?, identifier?, Option.ite_none_right_eq_some, Option.some.injEq] at h
      have body := runLength_le isIdentifierRest cs
      have index := indexLength_le (cs.drop (runLength isIdentifierRest cs))
      rw [List.length_drop] at index
      rw [List.length_cons]
      omega
  | number =>
    obtain ⟨whole, digits, rfl⟩ := Option.map_eq_some_iff.1 h
    have := run?_le digits
    have fraction := fractionLength_le (cs.drop whole)
    have unit := unitLength_le ((cs.drop whole).drop (fractionLength (cs.drop whole)))
    simp only [List.length_drop] at fraction unit ⊢
    omega
  | quoted =>
    simp only [Kind.match?, quoted?] at h
    split at h
    · split at h
      · next closing =>
        have := lt_length_of_drop closing
        cases h
        rw [List.length_cons]
        omega
      · cases h
    · cases h
  | block =>
    simp only [Kind.match?, block?] at h
    split at h
    · obtain ⟨m, found, rfl⟩ := Option.map_eq_some_iff.1 h
      have := blockEnd?_le found
      simp only [List.length_cons]
      omega
    · cases h
  | headerWord | configWord | comma | colon | equals | openBrace | closeBrace | openBracket
  | closeBracket => exact word?_le h

/-! ## What follows a lexeme -/

/-- Whether there is a first character, and it satisfies a condition. -/
def begins (p : Char → Bool) (cs : List Char) : Bool :=
  cs.head?.any p

def beginsLayout (c : Char) : Bool :=
  isBlank c || c == '#'

theorem opener_of_beginsLayout {c : Char} (h : beginsLayout c = true) :
    opener c = .blanks ∨ opener c = .comment := by
  simp only [beginsLayout, Bool.or_eq_true, beq_iff_eq] at h
  rcases h with blank | rfl
  · exact .inl (opener_of_isBlank blank)
  · exact .inr rfl

theorem opener_of_isIdentifierRest {c : Char} (h : isIdentifierRest c = true) :
    opener c = .identifier ∨ opener c = .number := by
  rcases Bool.or_eq_true_iff.1 h with start | digit
  · exact .inl (opener_of_isIdentifierStart start)
  · exact .inr (opener_of_isDigit digit)

/-- No name goes on with layout. -/
theorem not_isIdentifierRest {c : Char} (h : beginsLayout c = true) :
    isIdentifierRest c = false := by
  rw [Bool.eq_false_iff]
  intro goesOn
  rcases opener_of_beginsLayout h with layout | layout <;>
    rcases opener_of_isIdentifierRest goesOn with other | other <;>
      cases layout.symm.trans other

theorem not_isDigit {c : Char} (h : beginsLayout c = true) : c.isDigit = false :=
  (Bool.or_eq_false_iff.1 (not_isIdentifierRest h)).2

theorem isIdentifierRest_of_isWord {c : Char} (ascii : c.toNat < 0x80)
    (h : Unicode.isWord c = true) : isIdentifierRest c = true := by
  simp only [Unicode.isWord, ascii, if_true, Char.isAlphanum, Bool.or_eq_true, beq_iff_eq] at h
  simp only [isIdentifierRest, isIdentifierStart, Bool.or_eq_true, beq_iff_eq]
  rcases h with (letter | digit) | mark
  · exact .inl (.inr letter)
  · exact .inr digit
  · exact .inl (.inl (.inr mark))

/-- The blanks beyond ASCII belong to no word. -/
theorem not_inRanges_of_isBlank {c : Char} (h : isBlank c = true) (beyond : ¬ c.toNat < 0x80) :
    Unicode.inRanges Unicode.wordRanges c.toNat = false := by
  have separators : ∀ code ∈ [0x85, 0xA0, 0x1680, 0x2028, 0x2029, 0x202F, 0x205F, 0x3000],
      Unicode.inRanges Unicode.wordRanges code = false := by decide +kernel
  have spaces : ∀ width < 11, Unicode.inRanges Unicode.wordRanges (0x2000 + width) = false := by
    decide +kernel
  simp only [isBlank, beyond, if_false, Bool.or_eq_true, Bool.and_eq_true, decide_eq_true_eq,
    List.contains_iff_mem] at h
  rcases h with listed | ⟨lower, upper⟩
  · exact separators _ listed
  · have within := spaces (c.toNat - 0x2000) (by omega)
    rwa [Nat.add_sub_cancel' lower] at within

/-- A word ends where layout begins. -/
theorem not_isWord {c : Char} (h : beginsLayout c = true) : Unicode.isWord c = false := by
  by_cases ascii : c.toNat < 0x80
  · rw [Bool.eq_false_iff]
    intro word
    cases (not_isIdentifierRest h).symm.trans (isIdentifierRest_of_isWord ascii word)
  · simp only [beginsLayout, Bool.or_eq_true, beq_iff_eq] at h
    rcases h with blank | rfl
    · rw [Unicode.isWord, if_neg ascii, not_inRanges_of_isBlank blank ascii]
    · exact absurd (by decide) ascii

/-- A text may follow in place of another one without a change to the lexeme in front, apart from
comments and the unit of a number. -/
structure Replaces (rest rest' : List Char) : Prop where
  head : rest'.head? = rest.head? ∨ ∃ c, rest'.head? = some c ∧ beginsLayout c = true
  noIndex : rest'.head? ≠ some '('
  noFraction : rest'.head? ≠ some '.'

/-- A lexeme that ends in front of a text ends in front of another one too, apart from blanks,
comments and the unit of a number. -/
structure EndsLike (rest rest' : List Char) : Prop where
  name : begins isIdentifierRest rest' = true → begins isIdentifierRest rest = true
  figure : begins Char.isDigit rest' = true → begins Char.isDigit rest = true
  word : begins Unicode.isWord rest' = true → begins Unicode.isWord rest = true
  noIndex : rest'.head? ≠ some '('
  noFraction : rest'.head? ≠ some '.'

section

variable {rest rest' : List Char}

theorem Replaces.begins {p : Char → Bool} (replaces : Replaces rest rest')
    (hp : ∀ c, beginsLayout c = true → p c = false) (h : begins p rest' = true) :
    begins p rest = true := by
  unfold Definition.begins at *
  rcases replaces.head with same | ⟨c, layout, opens⟩
  · rwa [same] at h
  · rw [layout] at h
    exact absurd ((hp c opens).symm.trans h) nofun

theorem Replaces.endsLike (replaces : Replaces rest rest') : EndsLike rest rest' where
  name := replaces.begins fun _ => not_isIdentifierRest
  figure := replaces.begins fun _ => not_isDigit
  word := replaces.begins fun _ => not_isWord
  noIndex := replaces.noIndex
  noFraction := replaces.noFraction

/-- Every lexeme ends in front of a character that no lexeme goes on with. -/
theorem EndsLike.of_not {c : Char} (name : isIdentifierRest c = false)
    (word : Unicode.isWord c = false) (noIndex : c ≠ '(') (noFraction : c ≠ '.')
    (rest cs : List Char) : EndsLike rest (c :: cs) where
  name goesOn := absurd (name.symm.trans goesOn) nofun
  figure goesOn := absurd ((Bool.or_eq_false_iff.1 name).2.symm.trans goesOn) nofun
  word goesOn := absurd (word.symm.trans goesOn) nofun
  noIndex same := noIndex (Option.some.inj same)
  noFraction same := noFraction (Option.some.inj same)

theorem runLength_cons (p : Char → Bool) (c : Char) (cs : List Char) :
    runLength p (c :: cs) = if p c then runLength p cs + 1 else 0 := by
  cases h : p c <;> simp [runLength, h]

theorem runLength_eq_zero_iff {p : Char → Bool} {cs : List Char} :
    runLength p cs = 0 ↔ begins p cs = false := by
  cases cs with
  | nil => simp [runLength, begins]
  | cons c cs => simp [runLength_cons, begins]

theorem runLength_append_iff {p : Char → Bool} {text : List Char} :
    runLength p (text ++ rest) = text.length ↔ text.all p = true ∧ begins p rest = false := by
  induction text with
  | nil => simp [runLength_eq_zero_iff]
  | cons c text ih =>
    rw [List.cons_append, runLength_cons, List.length_cons, List.all_cons, Bool.and_eq_true,
      and_assoc, ← ih]
    cases h : p c <;> simp

theorem drop_runLength (p : Char → Bool) (cs : List Char) :
    cs.drop (runLength p cs) = cs.dropWhile p := by
  induction cs with
  | nil => rfl
  | cons c cs ih => cases h : p c <;> simp [runLength_cons, h, ih]

theorem dropWhile_append_of_begins {p : Char → Bool} (stops : begins p rest = false)
    (cs : List Char) : (cs ++ rest).dropWhile p = cs.dropWhile p ++ rest := by
  have stays : rest.dropWhile p = rest := by
    cases rest with
    | nil => rfl
    | cons c rest => exact List.dropWhile_cons_of_neg (by simpa [begins] using stops)
  rw [List.dropWhile_append, stays]
  split
  · next none => rw [List.isEmpty_iff.1 none, List.nil_append]
  · rfl

/-- A run that ends in front of a text depends on how that text begins at most. -/
theorem runLength_congr {p : Char → Bool} {text : List Char}
    (inside : runLength p (text ++ rest) ≤ text.length)
    (stops : runLength p (text ++ rest) = text.length → begins p rest' = false) :
    runLength p (text ++ rest') = runLength p (text ++ rest) := by
  induction text with
  | nil =>
    have none : runLength p rest = 0 := Nat.le_zero.1 inside
    exact (runLength_eq_zero_iff.2 (stops none)).trans none.symm
  | cons c text ih =>
    simp only [List.cons_append, List.length_cons, runLength_cons] at inside stops ⊢
    cases h : p c with
    | false => rfl
    | true =>
      simp only [h, if_true, Nat.add_right_cancel_iff] at inside stops ⊢
      exact ih (Nat.le_of_succ_le_succ inside) stops

theorem runLength_replace {p : Char → Bool}
    (ends : begins p rest' = true → begins p rest = true) {text : List Char}
    (inside : runLength p (text ++ rest) ≤ text.length) :
    runLength p (text ++ rest') = runLength p (text ++ rest) := by
  refine runLength_congr inside fun whole => ?_
  have stop := (runLength_append_iff.1 whole).2
  rw [Bool.eq_false_iff]
  intro goesOn
  cases stop.symm.trans (ends goesOn)

theorem drop_append {text : List Char} {n : Nat} (inside : n ≤ text.length) (rest : List Char) :
    (text ++ rest).drop n = text.drop n ++ rest := by
  rw [List.drop_append, Nat.sub_eq_zero_of_le inside, List.drop_zero]

/-- A character inside a lexeme stays where it is. -/
theorem drop_replace {text more : List Char} {n : Nat} {c : Char} (inside : n < text.length)
    (h : (text ++ rest).drop n = c :: more) (rest' : List Char) :
    ∃ more', (text ++ rest').drop n = c :: more' := by
  rw [drop_append (by omega)] at h ⊢
  cases left : text.drop n with
  | nil =>
    have := List.drop_eq_nil_iff.1 left
    omega
  | cons d behind =>
    rw [left] at h
    obtain ⟨rfl, -⟩ := List.cons.inj h
    exact ⟨behind ++ rest', rfl⟩

theorem indexLength_replace {text : List Char} (ends : EndsLike rest rest')
    (h : indexLength (text ++ rest) = text.length) :
    indexLength (text ++ rest') = text.length := by
  cases text with
  | nil =>
    cases rest' with
    | nil => rfl
    | cons c rest' =>
      have noIndex : c ≠ '(' := fun same => ends.noIndex (congrArg some same)
      simp [indexLength, noIndex]
  | cons c text =>
    simp only [List.cons_append, List.length_cons, indexLength] at h ⊢
    split at h
    · next cs same =>
      obtain ⟨rfl, rfl⟩ := List.cons.inj same
      split at h
      · next n more digits closing =>
        rw [digits] at closing
        obtain ⟨more', closing'⟩ := drop_replace (by omega) closing rest'
        have digits' : runLength Char.isDigit (text ++ rest') = n + 1 :=
          (runLength_replace ends.figure (by omega)).trans digits
        simp only [digits', closing']
        omega
      · cases h
    · cases h

theorem fractionLength_eq_zero {cs : List Char} (h : cs.head? ≠ some '.') :
    fractionLength cs = 0 := by
  cases cs with
  | nil => rfl
  | cons c cs =>
    have noFraction : c ≠ '.' := fun same => h (congrArg some same)
    simp [fractionLength, noFraction]

theorem fractionLength_replace {text : List Char} (ends : EndsLike rest rest')
    (inside : fractionLength (text ++ rest) ≤ text.length) :
    fractionLength (text ++ rest') = fractionLength (text ++ rest) := by
  cases text with
  | nil => exact (fractionLength_eq_zero ends.noFraction).trans (Nat.le_zero.1 inside).symm
  | cons c text =>
    by_cases point : c = '.'
    · subst point
      simp only [List.cons_append, List.length_cons, fractionLength] at inside ⊢
      rw [runLength_replace ends.figure]
      split at inside <;> omega
    · simp [fractionLength, point]

theorem unitLength_eq_zero_iff {cs : List Char} :
    unitLength ('n' :: 's' :: cs) = 0 ↔ begins Unicode.isWord cs = true := by
  cases cs with
  | nil => simp [unitLength, begins]
  | cons c cs => cases h : Unicode.isWord c <;> simp [unitLength, begins, h]

theorem unitLength_cases (cs : List Char) :
    unitLength cs = 0 ∨ unitLength cs = 2 ∧ ∃ rest, cs = 'n' :: 's' :: rest := by
  unfold unitLength
  split
  · exact .inr ⟨rfl, [], rfl⟩
  · next c rest => cases Unicode.isWord c <;> simp
  · exact .inl rfl

theorem unitLength_replace {text : List Char} (ends : EndsLike rest rest')
    (noUnit : unitLength rest = 0 → unitLength rest' = 0)
    (h : unitLength (text ++ rest) = text.length) : unitLength (text ++ rest') = text.length := by
  rcases unitLength_cases (text ++ rest) with none | ⟨two, behind, split⟩
  · cases List.length_eq_zero_iff.1 (h.symm.trans none)
    exact noUnit none
  · obtain ⟨rfl, -⟩ : text = ['n', 's'] ∧ rest = behind :=
      List.append_inj split (h.symm.trans two)
    rcases unitLength_cases (['n', 's'] ++ rest') with none | ⟨two', -⟩
    · -- a word that goes on behind the unit went on before
      have goesOn := ends.word (unitLength_eq_zero_iff.1 none)
      cases (unitLength_eq_zero_iff.2 goesOn).symm.trans two
    · exact two'

theorem identifier?_replace {c : Char} {text : List Char} (ends : EndsLike rest rest')
    (h : identifier? (c :: text ++ rest) = some (c :: text).length) :
    identifier? (c :: text ++ rest') = some (c :: text).length := by
  simp only [List.cons_append, List.length_cons, identifier?] at h ⊢
  split at h
  · next start =>
    rw [Option.some.injEq] at h
    rw [if_pos start, Option.some.injEq,
      runLength_replace ends.name (by omega)]
    generalize runLength isIdentifierRest (text ++ rest) = body at h ⊢
    rw [drop_append (by omega)] at h ⊢
    rw [indexLength_replace ends (by rw [List.length_drop]; omega), List.length_drop]
    omega
  · cases h

/-- A number is its figures and a unit; only the unit looks further than one character ahead. -/
theorem number?_split {text : List Char} (h : number? (text ++ rest) = some text.length) :
    ∃ figures unit, text = figures ++ unit ∧ unitLength (unit ++ rest) = unit.length ∧
      ∀ rest', EndsLike rest rest' →
        number? (text ++ rest') = some (figures.length + unitLength (unit ++ rest')) := by
  obtain ⟨whole, digits, total⟩ := Option.map_eq_some_iff.1 h
  simp only at total
  have run := runLength_of_run? digits
  rw [drop_append (by omega)] at total
  generalize fraction : fractionLength (text.drop whole ++ rest) = more at total
  have inside : more ≤ (text.drop whole).length := by
    rw [List.length_drop]
    omega
  rw [drop_append inside, List.drop_drop] at total
  refine ⟨text.take (whole + more), text.drop (whole + more), ?_, ?_, fun rest' ends => ?_⟩
  · rw [List.take_append_drop]
  · rw [List.length_drop]
    omega
  · have run' := (runLength_replace ends.figure (by omega)).trans run
    have digits' : run? Char.isDigit (text ++ rest') = some whole := by
      rw [← digits, run?, run?, run, run']
    refine Option.map_eq_some_iff.2 ⟨whole, digits', ?_⟩
    simp only
    rw [drop_append (by omega), fractionLength_replace ends (by omega), fraction,
      drop_append inside, List.drop_drop, List.length_take]
    omega

theorem number?_replace {text : List Char} (ends : EndsLike rest rest')
    (noUnit : unitLength rest = 0 → unitLength rest' = 0)
    (h : number? (text ++ rest) = some text.length) :
    number? (text ++ rest') = some text.length := by
  obtain ⟨figures, unit, rfl, exact, number⟩ := number?_split h
  rw [number rest' ends, unitLength_replace ends noUnit exact, List.length_append]

/-- Where a word ends behind the unit of nanoseconds, the unit belongs to the number. -/
theorem number?_unit {text : List Char}
    (h : number? (text ++ 'n' :: 's' :: rest) = some text.length)
    (ends : begins Unicode.isWord rest' = false) :
    number? (text ++ 'n' :: 's' :: rest') = some (text.length + 2) := by
  obtain ⟨figures, unit, rfl, exact, number⟩ := number?_split h
  rw [number ('n' :: 's' :: rest') ⟨id, id, id, by simp, by simp⟩]
  rcases unitLength_cases (unit ++ 'n' :: 's' :: rest) with none | ⟨two, behind, split⟩
  · cases List.length_eq_zero_iff.1 (exact.symm.trans none)
    rcases unitLength_cases ('n' :: 's' :: rest') with none' | ⟨two', -⟩
    · cases ends.symm.trans (unitLength_eq_zero_iff.1 none')
    · rw [List.nil_append, two', List.append_nil]
  · -- no unit stands in front of a letter
    obtain ⟨rfl, -⟩ : unit = ['n', 's'] ∧ 'n' :: 's' :: rest = behind :=
      List.append_inj split (exact.symm.trans two)
    have letter : begins Unicode.isWord ('n' :: 's' :: rest) = true := rfl
    cases (unitLength_eq_zero_iff.2 letter).symm.trans two

theorem comment?_replace {c : Char} {text : List Char}
    (line : begins (!isBreak ·) rest = false → begins (!isBreak ·) rest' = false)
    (h : comment? (c :: text ++ rest) = some (c :: text).length) :
    comment? (c :: text ++ rest') = some (c :: text).length := by
  by_cases mark : c = '#'
  · subst mark
    simp only [List.cons_append, List.length_cons, comment?, Option.some.injEq] at h ⊢
    rw [runLength_congr (by omega) fun whole => line (runLength_append_iff.1 whole).2, h]
  · simp [comment?, mark] at h

theorem quoted?_replace {c : Char} {text : List Char}
    (h : quoted? (c :: text ++ rest) = some (c :: text).length) (rest' : List Char) :
    quoted? (c :: text ++ rest') = some (c :: text).length := by
  by_cases mark : c = '"'
  · subst mark
    simp only [List.cons_append, List.length_cons, quoted?] at h ⊢
    split at h
    · next more closing =>
      rw [Option.some.injEq] at h
      obtain ⟨more', closing'⟩ := drop_replace (by omega) closing rest'
      -- the run ends in front of the closing mark
      have inner : runLength (fun c => !(c == '"' || isBreak c)) (text ++ rest') =
          runLength (fun c => !(c == '"' || isBreak c)) (text ++ rest) :=
        runLength_congr (by omega) fun whole => by omega
      rw [inner, closing']
      exact congrArg some h
    · cases h
  · simp [quoted?, mark] at h

theorem blockEnd?_cons {c : Char} {cs : List Char} (h : ¬['>', '>'] <+: c :: cs) :
    blockEnd? (c :: cs) = (blockEnd? cs).map (· + 1) := by
  rw [blockEnd?]
  rintro cs rfl rfl
  exact h ⟨cs, rfl⟩

theorem two_le_blockEnd? {cs : List Char} {n : Nat} (h : blockEnd? cs = some n) : 2 ≤ n := by
  fun_induction blockEnd? cs generalizing n with
  | case1 => cases h
  | case2 => exact Nat.le_of_eq (Option.some.inj h)
  | case3 c cs _ ih =>
    obtain ⟨m, found, rfl⟩ := Option.map_eq_some_iff.1 h
    exact Nat.le_succ_of_le (ih found)

theorem blockEnd?_replace {text : List Char} {n : Nat} (h : blockEnd? (text ++ rest) = some n)
    (inside : n ≤ text.length) (rest' : List Char) : blockEnd? (text ++ rest') = some n := by
  have long := two_le_blockEnd? h
  induction text generalizing n with
  | nil => exact absurd (Nat.le_trans long inside) (by decide)
  | cons c text ih =>
    cases text with
    | nil =>
      rw [List.length_singleton] at inside
      omega
    | cons d text =>
      by_cases ends : c = '>' ∧ d = '>'
      · obtain ⟨rfl, rfl⟩ := ends
        exact h
      · have goesOn (rest : List Char) : ¬['>', '>'] <+: c :: (d :: text ++ rest) := by
          simpa using fun first second => ends ⟨first.symm, second.symm⟩
        rw [List.cons_append, blockEnd?_cons (goesOn _)] at h ⊢
        obtain ⟨m, found, rfl⟩ := Option.map_eq_some_iff.1 h
        rw [ih found (Nat.le_of_succ_le_succ inside) (two_le_blockEnd? found), Option.map_some]

theorem block?_eq_some_iff {cs : List Char} {n : Nat} :
    block? cs = some n ↔
      ∃ inner m, cs = '<' :: '<' :: inner ∧ blockEnd? inner = some m ∧ m + 2 = n := by
  constructor
  · intro h
    simp only [block?] at h
    split at h
    · next inner =>
      obtain ⟨m, found, total⟩ := Option.map_eq_some_iff.1 h
      exact ⟨inner, m, rfl, found, total⟩
    · cases h
  · rintro ⟨inner, m, rfl, found, total⟩
    exact Option.map_eq_some_iff.2 ⟨m, found, total⟩

theorem block?_replace {text : List Char} (h : block? (text ++ rest) = some text.length)
    (rest' : List Char) : block? (text ++ rest') = some text.length := by
  obtain ⟨inner, m, split, found, total⟩ := block?_eq_some_iff.1 h
  match text, total with
  | [], total => cases total
  | [_], total => cases Nat.succ.inj total
  | c :: d :: text, total =>
    simp only [List.cons_append, List.cons.injEq] at split
    obtain ⟨rfl, rfl, rfl⟩ := split
    have inside : m ≤ text.length := Nat.le_of_eq (Nat.add_right_cancel total)
    exact block?_eq_some_iff.2 ⟨_, m, rfl, blockEnd?_replace found inside rest', total⟩

theorem word?_replace {word text : List Char} (h : word? word (text ++ rest) = some text.length)
    (rest' : List Char) : word? word (text ++ rest') = some text.length := by
  obtain ⟨length, behind, split⟩ := word?_eq_some_iff.1 h
  obtain ⟨rfl, -⟩ := List.append_inj split length
  exact word?_eq_some_iff.2 ⟨rfl, rest', rfl⟩

theorem quoted?_append {text : List Char}
    (h : (text.all fun c => !(c == '"' || isBreak c)) = true) (rest : List Char) :
    quoted? ('"' :: (text ++ '"' :: rest)) = some (text.length + 2) := by
  have inner : runLength (fun c => !(c == '"' || isBreak c)) (text ++ '"' :: rest) = text.length :=
    runLength_append_iff.2 ⟨h, rfl⟩
  simp only [quoted?, inner, List.drop_left]

/-- A block ends at the first `>>`. -/
theorem blockEnd?_append {inner : List Char} (h : ¬['>', '>'] <:+: inner ++ ['>'])
    (rest : List Char) : blockEnd? (inner ++ '>' :: '>' :: rest) = some (inner.length + 2) := by
  induction inner with
  | nil => rfl
  | cons c inner ih =>
    have goesOn : ¬['>', '>'] <+: c :: (inner ++ '>' :: '>' :: rest) := by
      rintro ⟨behind, same⟩
      cases inner with
      | nil =>
        cases same
        exact h ⟨[], [], rfl⟩
      | cons d inner =>
        cases same
        exact h ⟨[], inner ++ ['>'], rfl⟩
    have later : ¬['>', '>'] <:+: inner ++ ['>'] := fun found =>
      h (found.trans (List.suffix_cons c _).isInfix)
    rw [List.cons_append, blockEnd?_cons goesOn, ih later, Option.map_some, List.length_cons]

theorem block?_append {inner : List Char} (h : ¬['>', '>'] <:+: inner ++ ['>'])
    (rest : List Char) :
    block? ('<' :: '<' :: (inner ++ '>' :: '>' :: rest)) = some (inner.length + 4) :=
  block?_eq_some_iff.2 ⟨_, _, rfl, blockEnd?_append h rest, rfl⟩

/-- Blanks apart, a lexeme is the same in front of another text. -/
theorem match?_replace {kind : Kind} {text : List Char} (ends : EndsLike rest rest')
    (noUnit : kind = .number → unitLength rest = 0 → unitLength rest' = 0)
    (line : kind = .comment → begins (!isBreak ·) rest = false → begins (!isBreak ·) rest' = false)
    (noBlanks : kind ≠ .blanks) (h : kind.match? (text ++ rest) = some text.length) :
    kind.match? (text ++ rest') = some text.length := by
  cases text with
  | nil => cases Lexer.match?_pos h
  | cons c text =>
    cases kind with
    | endOfInput => cases h
    | blanks => exact absurd rfl noBlanks
    | comment => exact comment?_replace (line rfl) h
    | lineBreak => exact h
    | identifier => exact identifier?_replace ends h
    | number => exact number?_replace ends (noUnit rfl) h
    | quoted => exact quoted?_replace h rest'
    | block => exact block?_replace h rest'
    | headerWord | configWord | comma | colon | equals | openBrace | closeBrace | openBracket
    | closeBracket => exact word?_replace h rest'

end

end Pinout.Definition
