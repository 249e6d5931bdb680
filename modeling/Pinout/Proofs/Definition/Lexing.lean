import Pinout.Definition.Lexer

/-! # Lexing goes forward

Every lexeme takes at least one character of what is left, so lexemes stand at growing offsets.
-/

namespace Pinout.Definition.Lexer

open Text

theorem next?_spec {lexer behind : Lexer} {lexeme : Lexeme}
    (h : lexer.next? = some (lexeme, behind)) :
    lexeme.offset = lexer.offset ∧ lexer.rest = lexeme.text ++ behind.rest ∧ lexeme.text ≠ [] ∧
      behind.offset = lexer.offset + byteLength lexeme.text := by
  have shorter := rest_length_lt h
  obtain ⟨⟨kind, n⟩, _, h⟩ := Option.map_eq_some_iff.1 h
  cases h
  have whole : lexer.rest = lexer.rest.take n ++ lexer.rest.drop n :=
    (List.take_append_drop n lexer.rest).symm
  refine ⟨rfl, whole, fun empty => ?_, rfl⟩
  have same := congrArg List.length whole
  rw [show lexer.rest.take n = [] from empty, List.nil_append] at same
  exact absurd same (Nat.ne_of_gt shorter)

theorem lexemes_of_none {lexer : Lexer} (h : lexer.next? = none) :
    lexer.lexemes = ([], { lexer with current := .endAt lexer.offset }) := by
  rw [lexemes]
  split <;> simp_all

theorem lexemes_of_some {lexer behind : Lexer} {lexeme : Lexeme}
    (h : lexer.next? = some (lexeme, behind)) :
    lexer.lexemes = (lexeme :: behind.lexemes.1, behind.lexemes.2) := by
  rw [lexemes]
  split <;> simp_all

theorem current_lexemes (lexer : Lexer) :
    lexer.lexemes.2.current = .endAt lexer.lexemes.2.offset := by
  induction lexer using lexemes.induct with
  | case1 lexer h => rw [lexemes_of_none h]
  | case2 lexer lexeme behind h _ _ _ ih => rwa [lexemes_of_some h]

theorem stalled_lexemes (lexer : Lexer) :
    lexer.lexemes.2.stalled = false ↔ lexer.lexemes.2.rest = [] := by
  simp [stalled, current_lexemes, Lexeme.isEnd, Lexeme.endAt]

def offsets (lexer : Lexer) : List Nat :=
  lexer.lexemes.1.map (·.offset) ++ [lexer.lexemes.2.offset]

theorem offsets_of_some {lexer behind : Lexer} {lexeme : Lexeme}
    (h : lexer.next? = some (lexeme, behind)) :
    lexer.offsets = lexeme.offset :: behind.offsets := by
  simp [offsets, lexemes_of_some h]

theorem le_of_mem_offsets {lexer : Lexer} {offset : Nat} (member : offset ∈ lexer.offsets) :
    lexer.offset ≤ offset := by
  induction lexer using lexemes.induct with
  | case1 lexer h => simp_all [offsets, lexemes_of_none h]
  | case2 lexer lexeme behind h _ _ _ ih =>
    obtain ⟨here, _, _, moved⟩ := next?_spec h
    rw [offsets_of_some h] at member
    rcases List.mem_cons.1 member with rfl | member
    · exact Nat.le_of_eq here.symm
    · have := ih member
      omega

theorem pairwise_offsets (lexer : Lexer) : lexer.offsets.Pairwise (· < ·) := by
  induction lexer using lexemes.induct with
  | case1 lexer h => simp [offsets, lexemes_of_none h]
  | case2 lexer lexeme behind h _ _ _ ih =>
    obtain ⟨here, _, nonempty, moved⟩ := next?_spec h
    have := byteLength_pos nonempty
    rw [offsets_of_some h, List.pairwise_cons]
    -- all further offsets are at least the one behind the lexeme
    refine ⟨fun offset member => ?_, ih⟩
    have := le_of_mem_offsets member
    omega

end Pinout.Definition.Lexer
