import Mathlib.Logic.Function.Iterate
import Pinout.Proofs.Definition.Layout
import Pinout.Proofs.Text.Bytes

/-! # Lexemes tile a text

The lexemes of a text lie one behind the other from its beginning to where lexing ends. `lexemes`
gives them all at once. Asking for one after the other gives the same lexemes and then the end, again
and again; asking for words only gives the lexemes without the layout between them.
-/

namespace Pinout.Definition

open Text

/-! ## The place of a lexeme -/

/-- Some lexemes cover a text from its beginning up to an offset where no other one follows. -/
structure Tiling (source : List Char) (lexemes : List Lexeme) (stop : Nat) : Prop where
  /-- The first lexeme begins at 0 and every other one where the one before it ends. -/
  contiguous : lexemes.map (·.offset) ++ [stop] = 0 :: lexemes.map (·.stop)
  nonempty : ∀ lexeme ∈ lexemes, lexeme.text ≠ []
  boundary : ∀ offset ∈ lexemes.map (·.offset) ++ [stop], IsBoundary offset source
  slice : ∀ lexeme ∈ lexemes, slice? lexeme.offset lexeme.stop source = some lexeme.text
  found : ∀ lexeme ∈ lexemes, ∃ front rest, cut? lexeme.offset source = some (front, rest) ∧
    firstMatch? rest = some (lexeme.kind, lexeme.text.length)
  kind : ∀ lexeme ∈ lexemes, lexeme.kind ≠ .endOfInput ∧ lexeme.kind ≠ .lineBreak
  ended : stop = byteLength source ∨ stop < byteLength source ∧
    ∃ front rest, cut? stop source = some (front, rest) ∧ ∀ kind, Kind.match? kind rest = none

theorem firstMatch?_eq_none_iff {cs : List Char} :
    firstMatch? cs = none ↔ ∀ kind, Kind.match? kind cs = none := by
  simp only [firstMatch?, List.findSome?_eq_none_iff, Option.map_eq_none_iff]
  refine ⟨fun h kind => ?_, fun h kind _ => h kind⟩
  cases kind with
  | endOfInput => rfl
  | _ => exact h _ (by simp [Kind.order])

/-- A lexeme stands in the text as the first kind that matches there. -/
theorem exists_place {lexer : Lexer} {lexeme : Lexeme} (member : lexeme ∈ lexer.lexemes.1) :
    ∃ front behind, lexer.rest = front ++ (lexeme.text ++ behind) ∧
      lexeme.offset = lexer.offset + byteLength front ∧
      firstMatch? (lexeme.text ++ behind) = some (lexeme.kind, lexeme.text.length) := by
  obtain ⟨front, back, split⟩ := List.append_of_mem member
  obtain ⟨whole, lexed⟩ := lexed_lexemes lexer
  rw [split] at whole lexed
  rw [textOf_append, textOf_cons, List.append_assoc, List.append_assoc] at whole
  have found := (lexed_cons_iff.1 (lexed_append_iff.1 lexed).2).1
  exact ⟨textOf front, _, whole, offset_of_split split, found⟩

theorem kind_of_mem {lexer : Lexer} {lexeme : Lexeme} (member : lexeme ∈ lexer.lexemes.1) :
    lexeme.kind ≠ .endOfInput ∧ lexeme.kind ≠ .lineBreak := by
  obtain ⟨front, behind, -, -, found⟩ := exists_place member
  obtain ⟨noBreak, taken⟩ := firstMatch?_eq_some_iff.1 found
  refine ⟨fun isEnd => ?_, noBreak⟩
  rw [isEnd] at taken
  cases taken

namespace Lexer

theorem offsets_eq (lexer : Lexer) :
    lexer.offsets = lexer.offset :: lexer.lexemes.1.map (·.stop) := by
  induction lexer using lexemes.induct with
  | case1 lexer h =>
    rw [offsets, lexemes_of_none h]
    rfl
  | case2 lexer lexeme behind h _ _ _ ih =>
    obtain ⟨here, -, -, moved⟩ := next?_spec h
    have stop : lexeme.stop = behind.offset := by
      rw [moved, ← here]
      rfl
    rw [offsets_of_some h, ih, lexemes_of_some h, here, List.map_cons, stop]

/-- No kind matches where lexing ends. -/
theorem next?_lexemes (lexer : Lexer) : lexer.lexemes.2.next? = none := by
  induction lexer using lexemes.induct with
  | case1 lexer h =>
    rw [lexemes_of_none h]
    exact Option.map_eq_none_iff.2 (Option.map_eq_none_iff.1 h)
  | case2 lexer lexeme behind h _ _ _ ih => rwa [lexemes_of_some h]

/-- At the end nothing more is found, and the lexer stays there. -/
theorem lexemes_lexemes (lexer : Lexer) : lexer.lexemes.2.lexemes = ([], lexer.lexemes.2) := by
  rw [lexemes_of_none (next?_lexemes lexer), ← current_lexemes]

end Lexer

/-- The text in front of where lexing ends. -/
theorem exists_front (source : String) :
    ∃ front, source.toList = front ++ (endOf source).rest ∧
      byteLength front = (endOf source).offset :=
  ⟨_, (lexed_lexemes (Lexer.ofSource source)).1,
    ((offset_lexemes (Lexer.ofSource source)).trans (Nat.zero_add _)).symm⟩

theorem rest_ne_nil_iff (source : String) :
    (endOf source).rest ≠ [] ↔ (endOf source).offset < byteLength source.toList := by
  obtain ⟨front, whole, offset⟩ := exists_front source
  rw [whole, byteLength_append, offset, Nat.lt_add_right_iff_pos, Nat.pos_iff_ne_zero]
  exact (not_congr byteLength_eq_zero_iff).symm

theorem tiling (source : String) :
    Tiling source.toList (Lexer.ofSource source).lexemes.1 (endOf source).offset := by
  have place {lexeme : Lexeme} (member : lexeme ∈ (Lexer.ofSource source).lexemes.1) :
      ∃ front behind, source.toList = front ++ (lexeme.text ++ behind) ∧
        lexeme.offset = byteLength front ∧
        firstMatch? (lexeme.text ++ behind) = some (lexeme.kind, lexeme.text.length) := by
    obtain ⟨front, behind, whole, offset, found⟩ := exists_place member
    exact ⟨front, behind, whole, offset.trans (Nat.zero_add _), found⟩
  refine
    { contiguous := (Lexer.ofSource source).offsets_eq
      nonempty := fun lexeme member => ?nonempty
      boundary := fun offset member => ?boundary
      slice := fun lexeme member => ?slice
      found := fun lexeme member => ?found
      kind := fun lexeme member => kind_of_mem member
      ended := ?ended }
  case nonempty =>
    obtain ⟨front, behind, -, -, found⟩ := place member
    exact List.length_pos_iff.1 (Lexer.firstMatch?_pos found)
  case boundary =>
    obtain ⟨front, back, split, offset⟩ := exists_split_of_mem_offsets member
    have whole := (lexed_lexemes (Lexer.ofSource source)).1
    rw [split, textOf_append, List.append_assoc] at whole
    exact ⟨textOf front, _, whole, (offset.trans (Nat.zero_add _)).symm⟩
  case slice =>
    obtain ⟨front, behind, split, offset, -⟩ := place member
    rw [Lexeme.stop, Lexeme.length, split, offset]
    exact slice?_append front lexeme.text behind
  case found =>
    obtain ⟨front, behind, split, offset, found⟩ := place member
    exact ⟨front, _, cut?_eq_some_iff.2 ⟨split, offset.symm⟩, found⟩
  case ended =>
    obtain ⟨front, whole, offset⟩ := exists_front source
    have unmatched : firstMatch? (endOf source).rest = none :=
      Option.map_eq_none_iff.1 (Lexer.ofSource source).next?_lexemes
    by_cases done : (endOf source).rest = []
    · rw [whole, done, List.append_nil]
      exact .inl offset.symm
    · exact .inr ⟨(rest_ne_nil_iff source).1 done, front, _,
        cut?_eq_some_iff.2 ⟨whole, offset⟩, firstMatch?_eq_none_iff.1 unmatched⟩

/-! ## One lexeme after the other -/

namespace Lexer

variable {lexer behind : Lexer} {lexeme : Lexeme}

theorem next_of_none (h : lexer.next? = none) : lexer.next = (.endAt lexer.offset, lexer) := by
  rw [next, h, Option.getD_none]

theorem next_of_some (h : lexer.next? = some (lexeme, behind)) : lexer.next = (lexeme, behind) := by
  rw [next, h, Option.getD_some]

/-- Where a step takes the first of the lexemes ahead, some steps take as many of them. -/
theorem iterate_eq_drop {step : Lexer → Lexer} {ahead : Lexer → List Lexeme × Lexer}
    (h : ∀ lexer, ahead (step lexer) = ((ahead lexer).1.tail, (ahead lexer).2)) (lexer : Lexer)
    (count : Nat) :
    ahead (step^[count] lexer) = ((ahead lexer).1.drop count, (ahead lexer).2) := by
  induction count with
  | zero => rfl
  | succ count ih => rw [Function.iterate_succ_apply', h, ih, List.tail_drop]

theorem lexemes_withCurrent (lexer : Lexer) (current : Lexeme) :
    ({ lexer with current } : Lexer).lexemes = lexer.lexemes := by
  induction lexer using lexemes.induct with
  | case1 lexer h =>
    have h' : ({ lexer with current } : Lexer).next? = none :=
      Option.map_eq_none_iff.2 (Option.map_eq_none_iff.1 h)
    rw [lexemes_of_none h, lexemes_of_none h']
  | case2 lexer lexeme behind h _ _ _ ih =>
    have h' : ({ lexer with current } : Lexer).next? = some (lexeme, { behind with current }) := by
      obtain ⟨⟨kind, n⟩, found, same⟩ := Option.map_eq_some_iff.1 h
      cases same
      exact Option.map_eq_some_iff.2 ⟨_, found, rfl⟩
    rw [lexemes_of_some h, lexemes_of_some h', ih]

/-- A call takes the first of the lexemes ahead, or gives the end and stays there. -/
theorem next_spec (lexer : Lexer) :
    lexer.next.1 = lexer.lexemes.1.head?.getD (.endAt lexer.lexemes.2.offset) ∧
      lexer.next.2.lexemes = (lexer.lexemes.1.tail, lexer.lexemes.2) := by
  cases h : lexer.next? with
  | none =>
    rw [next_of_none h]
    simp only [lexemes_of_none h]
    exact ⟨rfl, rfl⟩
  | some taken =>
    obtain ⟨lexeme, behind⟩ := taken
    rw [next_of_some h, lexemes_of_some h]
    exact ⟨rfl, rfl⟩

theorem next_iterate (lexer : Lexer) (count : Nat) :
    ((fun lexer => lexer.next.2)^[count] lexer).next.1 =
      lexer.lexemes.1[count]?.getD (.endAt lexer.lexemes.2.offset) := by
  have ahead : ((fun lexer => lexer.next.2)^[count] lexer).lexemes =
      (lexer.lexemes.1.drop count, lexer.lexemes.2) :=
    iterate_eq_drop (fun lexer => (next_spec lexer).2) lexer count
  rw [(next_spec _).1, ahead, List.head?_drop]

/-! ## One word after the other -/

theorem advance_of_none (h : lexer.next? = none) :
    lexer.advance = { lexer with current := .endAt lexer.offset } := by
  rw [advance]
  split <;> simp_all

theorem advance_of_layout (h : lexer.next? = some (lexeme, behind))
    (isLayout : lexeme.kind.isLayout = true) : lexer.advance = behind.advance := by
  rw [advance]
  split <;> simp_all

theorem advance_of_word (h : lexer.next? = some (lexeme, behind))
    (isWord : ¬lexeme.kind.isLayout = true) :
    lexer.advance = { behind with current := lexeme } := by
  rw [advance]
  split <;> simp_all

/-- Either no words are ahead and the end becomes current, or the first of them does. -/
theorem advance_spec (lexer : Lexer) :
    (lexer.placedWords.1 = [] ∧ lexer.advance = lexer.placedWords.2) ∨
      lexer.placedWords =
        (lexer.advance.current :: lexer.advance.placedWords.1, lexer.advance.placedWords.2) := by
  induction lexer using advance.induct with
  | case1 lexer h =>
    rw [placedWords, lexemes_of_none h, advance_of_none h]
    exact .inl ⟨rfl, rfl⟩
  | case2 lexer lexeme behind h isLayout ih =>
    have same : lexer.placedWords = behind.placedWords := by
      simp [placedWords, lexemes_of_some h, isLayout]
    rwa [same, advance_of_layout h isLayout]
  | case3 lexer lexeme behind h isWord =>
    have same : lexer.placedWords = (lexeme :: behind.placedWords.1, behind.placedWords.2) := by
      simp [placedWords, lexemes_of_some h, isWord]
    have others : ({ behind with current := lexeme } : Lexer).placedWords = behind.placedWords := by
      rw [placedWords, placedWords, lexemes_withCurrent]
    rw [same, advance_of_word h isWord, others]
    exact .inr rfl

theorem placedWords_advance (lexer : Lexer) :
    lexer.advance.placedWords = (lexer.placedWords.1.tail, lexer.placedWords.2) := by
  rcases advance_spec lexer with ⟨noWords, ended⟩ | word
  · rw [noWords, ended, placedWords, placedWords, lexemes_lexemes]
    rfl
  · rw [word, List.tail_cons]

theorem current_advance (lexer : Lexer) :
    lexer.advance.current = lexer.placedWords.1.head?.getD (.endAt lexer.placedWords.2.offset) := by
  rcases advance_spec lexer with ⟨noWords, ended⟩ | word
  · rw [noWords, ended]
    exact current_lexemes lexer
  · rw [word]
    rfl

/-- Where the end has become current, a lexer is stalled just if something is left of the text. -/
theorem stalled_advance (lexer : Lexer) :
    lexer.advance.stalled = true ↔
      lexer.advance.current.isEnd = true ∧ lexer.placedWords.2.rest ≠ [] := by
  rcases advance_spec lexer with ⟨-, ended⟩ | word
  · simp [stalled, ended]
  · have member : lexer.advance.current ∈ lexer.placedWords.1 := by
      rw [word]
      exact List.mem_cons_self
    have noEnd : lexer.advance.current.isEnd = false := by
      simpa [Lexeme.isEnd] using (kind_of_mem (List.mem_of_mem_filter member)).1
    simp [stalled, noEnd]

theorem placedWords_iterate (lexer : Lexer) (count : Nat) :
    (advance^[count] lexer).placedWords =
      (lexer.placedWords.1.drop count, lexer.placedWords.2) :=
  iterate_eq_drop placedWords_advance lexer count

/-- The lexemes of a text tile it. They are what repeated calls of `next` give, up to the end, which
further calls give as well; repeated calls of `advance` give those that are not layout, and
afterwards `stalled` tells whether the end of the text was reached. -/
theorem lexemes_tile (source : String) :
    Tiling source.toList (ofSource source).lexemes.1 (endOf source).offset ∧
      (∀ count, ((fun lexer => lexer.next.2)^[count] (ofSource source)).next.1 =
        (ofSource source).lexemes.1[count]?.getD (.endAt (endOf source).offset)) ∧
      ∀ count, let after := advance^[count + 1] (ofSource source)
        after.current = ((ofSource source).lexemes.1.filter (!·.kind.isLayout))[count]?.getD
            (.endAt (endOf source).offset) ∧
          (after.stalled = true ↔
            after.current.isEnd = true ∧ (endOf source).offset < byteLength source.toList) := by
  refine ⟨tiling source, next_iterate (ofSource source), fun count => ?_⟩
  intro after
  have last : after = (advance^[count] (ofSource source)).advance :=
    Function.iterate_succ_apply' ..
  rw [last, stalled_advance, current_advance, placedWords_iterate, List.head?_drop]
  exact ⟨rfl, and_congr_right fun _ => rest_ne_nil_iff source⟩

example : let after := advance^[2] (ofSource "A $ B")
    after.current = .endAt 2 ∧ after.stalled = true := by
  decide +kernel

end Lexer

end Pinout.Definition
