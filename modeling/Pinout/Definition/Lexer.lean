import Pinout.Definition.Pattern

/-! # Lexing

A lexer is a place in a source text. `next` takes one lexeme of any kind; `advance` passes over
layout and makes the lexeme behind it current. Both stay where they are at the end of the text and
where no kind matches, and `stalled` tells the second from the first.
-/

namespace Pinout.Definition

open Text

/-- A place in a source text: its offset, what is left, and the current lexeme. -/
structure Lexer where
  offset : Nat
  rest : List Char
  current : Lexeme
deriving Repr, DecidableEq

namespace Lexer

def ofSource (source : String) : Lexer :=
  ⟨0, source.toList, .endAt 0⟩

def next? (lexer : Lexer) : Option (Lexeme × Lexer) :=
  (firstMatch? lexer.rest).map fun (kind, length) =>
    let text := lexer.rest.take length
    (⟨kind, lexer.offset, text⟩,
      ⟨lexer.offset + byteLength text, lexer.rest.drop length, lexer.current⟩)

/-- `next?` with the end of the input in place of nothing. The current lexeme stays. -/
def next (lexer : Lexer) : Lexeme × Lexer :=
  lexer.next?.getD (.endAt lexer.offset, lexer)

def hasNext (lexer : Lexer) : Bool :=
  !lexer.rest.isEmpty && !lexer.current.isEnd

/-- Whether lexing stopped before the end of the text. -/
def stalled (lexer : Lexer) : Bool :=
  lexer.current.isEnd && !lexer.rest.isEmpty

theorem run?_pos {p : Char → Bool} {cs : List Char} {n : Nat} (h : run? p cs = some n) : 0 < n := by
  unfold run? at h
  split at h
  · cases h
  · cases h
    omega

theorem word?_pos {word cs : List Char} {n : Nat} (hw : word ≠ []) (h : word? word cs = some n) :
    0 < n := by
  unfold word? at h
  split at h
  · cases h
    exact List.length_pos_iff.2 hw
  · cases h

theorem match?_pos {kind : Kind} {cs : List Char} {n : Nat} (h : kind.match? cs = some n) :
    0 < n := by
  cases kind with
  | endOfInput => cases h
  | blanks => exact run?_pos h
  | comment =>
    simp only [Kind.match?, comment?] at h
    split at h
    · cases h
      omega
    · cases h
  | lineBreak =>
    simp only [Kind.match?, lineBreak?] at h
    split at h
    · split at h
      · cases h
        omega
      · cases h
    · cases h
  | identifier =>
    simp only [Kind.match?, identifier?] at h
    split at h
    · cases h
    · split at h
      · cases h
        omega
      · cases h
  | number =>
    simp only [Kind.match?, number?, Option.map_eq_some_iff] at h
    obtain ⟨whole, hw, rfl⟩ := h
    have := run?_pos hw
    omega
  | quoted =>
    simp only [Kind.match?, quoted?] at h
    split at h
    · split at h
      · cases h
        omega
      · cases h
    · cases h
  | block =>
    simp only [Kind.match?, block?] at h
    split at h
    · simp only [Option.map_eq_some_iff] at h
      obtain ⟨n', _, rfl⟩ := h
      omega
    · cases h
  | headerWord => exact word?_pos (by simp) h
  | configWord => exact word?_pos (by simp) h
  | comma => exact word?_pos (by simp) h
  | colon => exact word?_pos (by simp) h
  | equals => exact word?_pos (by simp) h
  | openBrace => exact word?_pos (by simp) h
  | closeBrace => exact word?_pos (by simp) h
  | openBracket => exact word?_pos (by simp) h
  | closeBracket => exact word?_pos (by simp) h

theorem match?_nil (kind : Kind) : kind.match? [] = none := by
  cases kind <;> rfl

theorem firstMatch?_pos {cs : List Char} {kind : Kind} {n : Nat}
    (h : firstMatch? cs = some (kind, n)) : 0 < n := by
  unfold firstMatch? at h
  obtain ⟨kind', _, h⟩ := List.exists_of_findSome?_eq_some h
  obtain ⟨n', hn, h⟩ := Option.map_eq_some_iff.1 h
  cases h
  exact match?_pos hn

theorem firstMatch?_nil : firstMatch? [] = none := by
  simp [firstMatch?, match?_nil]

/-- A lexeme leaves less of the text behind it. -/
theorem rest_length_lt {lexer behind : Lexer} {lexeme : Lexeme}
    (h : lexer.next? = some (lexeme, behind)) : behind.rest.length < lexer.rest.length := by
  obtain ⟨⟨kind, n⟩, hm, h⟩ := Option.map_eq_some_iff.1 h
  cases h
  have hn := firstMatch?_pos hm
  have hrest : lexer.rest ≠ [] := by
    intro hnil
    rw [hnil, firstMatch?_nil] at hm
    cases hm
  have := List.length_pos_iff.2 hrest
  simp only [List.length_drop]
  omega

/-- Goes on to the next lexeme that is not layout and makes it current. -/
def advance (lexer : Lexer) : Lexer :=
  match _h : lexer.next? with
  | none => { lexer with current := .endAt lexer.offset }
  | some (lexeme, behind) =>
    if lexeme.kind.isLayout then advance behind else { behind with current := lexeme }
termination_by lexer.rest.length
decreasing_by exact rest_length_lt _h

def lexemes (lexer : Lexer) : List Lexeme × Lexer :=
  match _h : lexer.next? with
  | none => ([], { lexer with current := .endAt lexer.offset })
  | some (lexeme, behind) =>
    let (more, final) := lexemes behind
    (lexeme :: more, final)
termination_by lexer.rest.length
decreasing_by exact rest_length_lt _h

end Lexer

end Pinout.Definition
