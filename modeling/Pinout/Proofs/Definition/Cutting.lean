import Pinout.Proofs.Definition.Joining

/-! # Cutting a text off behind a board

A reader goes on with the board that is open, or completes it at a closing brace. The boards that it
has come from the part of the text up to that brace, and this part is lexed alike whatever comes
behind it, so it can be cut off and read for itself.
-/

namespace Pinout.Definition

open Text

inductive Advances (boards : List Board) (lexeme : Lexeme) : State → Prop where
  | goOn {place : Place} (isOpen : place ≠ .betweenBoards) : Advances boards lexeme ⟨boards, place⟩
  | complete (board : Board) (isBrace : lexeme.kind = .closeBrace) :
    Advances boards lexeme ⟨board :: boards, .betweenBoards⟩

variable {boards : List Board} {state next : State} {lexeme : Lexeme} {lexemes : List Lexeme}

theorem advances_nextBus {board : OpenBoard} (taken : nextBus boards board lexeme = some next) :
    Advances boards lexeme next := by
  unfold nextBus at taken
  split at taken
  · next isBrace =>
    cases taken
    exact .complete _ isBrace
  · split at taken <;> cases taken
    exact .goOn (by simp)

theorem Holder.close_ne (holder : Holder) (assigned : List Assignment) :
    holder.close assigned ≠ .betweenBoards := by
  cases holder <;> nofun

theorem advances_nextAssignment {holder : Holder} {assigned : List Assignment}
    (taken : nextAssignment boards holder assigned lexeme = some next) :
    Advances boards lexeme next := by
  unfold nextAssignment at taken
  split at taken <;> cases taken
  · exact .goOn (by simp)
  · exact .goOn (holder.close_ne assigned)

/-- A step goes on with the board that is open, or completes it. -/
theorem advances_step (taken : step state lexeme = some next) :
    Advances state.boards lexeme next := by
  obtain ⟨boards, place⟩ := state
  cases place with
  | betweenBoards | boardName | parentName | afterParentName | headerText | configStart | key
  | value =>
    simp only [step] at taken
    split at taken <;> cases taken
    exact .goOn (by simp)
  | afterBoardName names =>
    simp only [step] at taken
    split at taken <;> cases taken <;> exact .goOn (by simp)
  | body board opening =>
    simp only [step] at taken
    split at taken
    iterate 3
      cases taken
      exact .goOn (by simp)
    exact advances_nextBus taken
  | afterKey holder assigned key =>
    simp only [step] at taken
    split at taken
    · cases taken
      exact .goOn (by simp)
    · exact advances_nextAssignment taken
  | afterValue holder assigned => exact advances_nextAssignment taken
  | afterBusAdditions | afterPin =>
    simp only [step] at taken
    split at taken
    · cases taken
      exact .goOn (by simp)
    · exact advances_nextBus taken
  | afterBusName | afterPinName =>
    simp only [step] at taken
    split at taken
    iterate 2
      cases taken
      exact .goOn (by simp)
    exact advances_nextBus taken
  | pin board bus =>
    simp only [step] at taken
    split at taken
    · cases taken
      exact .goOn (by simp)
    · split at taken
      iterate 2
        cases taken
        exact .goOn (by simp)
      exact advances_nextBus taken

theorem suffix_step (taken : step state lexeme = some next) : state.boards <:+ next.boards := by
  cases advances_step taken with
  | goOn => exact List.suffix_refl _
  | complete board => exact List.suffix_cons board _

/-- Boards that were read stay. -/
theorem suffix_run (state : State) (lexemes : List Lexeme) :
    state.boards <:+ (run state lexemes).1.boards := by
  fun_induction run state lexemes with
  | case1 state => exact List.suffix_refl _
  | case2 state lexeme rest next taken ih => exact (suffix_step taken).trans ih
  | case3 state lexeme rest stuck => exact List.suffix_refl _

/-- The last board that was read was completed at a closing brace. -/
theorem Reaches.completed (reaches : Reaches {} lexemes state) (some : state.boards ≠ []) :
    ∃ front brace back, lexemes = front ++ brace :: back ∧ brace.kind = .closeBrace ∧
      Completes {} (front ++ [brace]) state.boards := by
  induction lexemes using List.reverseRecOn generalizing state with
  | nil =>
    cases reaches_nil_iff.1 reaches
    exact absurd rfl some
  | append_singleton lexemes lexeme ih =>
    obtain ⟨middle, before, behind⟩ := reaches_append_iff.1 reaches
    obtain ⟨next, taken, behind⟩ := reaches_cons_iff.1 behind
    cases reaches_nil_iff.1 behind
    cases advances_step taken with
    | goOn =>
      obtain ⟨front, brace, back, rfl, isBrace, completes⟩ := ih before some
      exact ⟨front, brace, back ++ [lexeme], by simp, isBrace, completes⟩
    | complete board isBrace => exact ⟨lexemes, lexeme, [], rfl, isBrace, reaches⟩

/-- Behind a closing brace nothing that follows is part of a lexeme in front. -/
theorem Lexed.spells_brace {front : List Lexeme} {brace : Lexeme} {rest : List Char}
    (lexed : Lexed (front ++ [brace]) rest) (isBrace : brace.kind = .closeBrace) :
    brace.text = ['\x7d'] ∧ Spells (textOf (front ++ [brace])) (words (front ++ [brace])) := by
  obtain ⟨before, behind⟩ := lexed_append_iff.1 lexed
  have here := (firstMatch?_eq_some_iff.1 (lexed_cons_iff.1 behind).1).2
  rw [isBrace] at here
  obtain ⟨length, more, split⟩ := word?_eq_some_iff.1 here
  have isText : brace.text = ['\x7d'] := (List.append_inj split length).1
  refine ⟨isText, fun rest' => ?_⟩
  rw [textOf_cons, isText] at before
  have mark : Spells ['\x7d'] (words [⟨.closeBrace, 0, ['\x7d']⟩]) :=
    .mark .closeBrace nofun fun _ => rfl
  have follows : Follows front ('\x7d' :: rest) ('\x7d' :: rest') :=
    .of_opener (by decide) (by decide) front rest rest'
  have texts : textOf (front ++ [brace]) ++ rest' = textOf front ++ ('\x7d' :: rest') := by
    simp [isText]
  rw [texts, before.scan_replace follows, words_append, words_cons brace, isBrace, isText,
    List.append_assoc]
  exact congrArg (fun behind => (words front ++ behind.1, behind.2)) (mark rest')

/-- What words of a text complete is complete in the text up to a brace, whatever comes behind. -/
theorem exists_brace {source : String} {taken others : List Lexeme}
    (split : wordsOf source = taken ++ others) (reaches : Reaches {} taken state)
    (some : state.boards ≠ []) :
    ∃ front rest lexemes, source.toList = (front ++ ['\x7d']) ++ rest ∧
      byteLength front < nextOffset source others ∧ Spells (front ++ ['\x7d']) lexemes ∧
      Completes {} lexemes state.boards := by
  obtain ⟨before, brace, back, rfl, isBrace, completes⟩ := reaches.completed some
  rw [List.append_assoc] at split
  have earlier := nextOffset_lt split (List.cons_ne_nil brace back)
  -- the layout in front of the brace belongs to the part that is cut off
  obtain ⟨lexemes, more, whole, rfl, behind⟩ := List.filter_eq_append_iff.1 split
  obtain ⟨layout, rest, rfl, noWords, isWord, -⟩ := List.filter_eq_cons_iff.1 behind
  rw [← List.append_assoc, List.append_cons] at whole
  obtain ⟨text, lexed⟩ := lexed_lexemes (Lexer.ofSource source)
  rw [whole] at text lexed
  obtain ⟨isText, spells⟩ := (lexed_append_iff.1 lexed).1.spells_brace isBrace
  have upTo : textOf ((lexemes ++ layout) ++ [brace]) = textOf (lexemes ++ layout) ++ ['\x7d'] := by
    simp [isText]
  have here : brace.offset = byteLength (textOf (lexemes ++ layout)) := by
    rw [← List.append_cons] at whole
    exact (offset_of_split whole).trans (Nat.zero_add _)
  rw [upTo] at spells
  rw [textOf_append, upTo, List.append_assoc] at text
  refine ⟨textOf (lexemes ++ layout), _, _, text, ?_, spells, ?_⟩
  · rw [← here]
    exact earlier
  · have noWords : layout.filter (!·.kind.isLayout) = [] := List.filter_eq_nil_iff.2 noWords
    have kept : [brace].filter (!·.kind.isLayout) = [brace] := by simpa using isWord
    rw [words, List.filter_append, List.filter_append, noWords, List.append_nil, kept]
    exact completes_unplaced.2 completes

/-- A fault leaves just the boards in front of it: there is a part of the text that ends in a closing
brace and is read without a fault, and its boards are those that the whole text yields. A longer part
that is read without a fault has no further ones. -/
theorem fault_keeps_boards (source : String) (fault : Diagnostic)
    (h : (read source).fault = some fault) :
    (∃ front rest, source.toList = front ++ rest ∧
      (front = [] ∨ ∃ before, front = before ++ ['\x7d'] ∧ byteLength before < fault.offset) ∧
      read (.ofList front) = ⟨(read source).boards, none⟩) ∧
    ∀ front rest, source.toList = front ++ rest → (read (.ofList front)).fault = none →
      (read (.ofList front)).boards <+: (read source).boards := by
  constructor
  · obtain ⟨taken, split, reaches, -⟩ := run_spec {} (wordsOf source)
    have boards : (read source).boards = (run {} (wordsOf source)).1.boards.reverse := rfl
    rw [offset_fault h, boards]
    generalize run {} (wordsOf source) = outcome at split reaches ⊢
    by_cases none : outcome.1.boards = []
    · refine ⟨[], _, (List.nil_append _).symm, .inl rfl, ?_⟩
      rw [none]
      exact read_eq_of_scan (by rw [String.toList_ofList, scan_nil]) (completes_nil_iff.2 rfl)
    · obtain ⟨before, rest, lexemes, text, inside, spells, completes⟩ :=
        exists_brace split reaches none
      refine ⟨before ++ ['\x7d'], rest, text, .inr ⟨before, rfl, inside⟩, ?_⟩
      exact read_eq_of_scan (by rw [String.toList_ofList, spells.scan_eq]) completes
  · intro front rest text complete
    obtain ⟨-, boards, completes⟩ := (fault_eq_none_iff _).1 complete
    rw [boards_of_completes completes]
    by_cases none : boards = []
    · rw [none]
      exact List.nil_prefix
    · obtain ⟨before, more, lexemes, text', -, spells, completes⟩ :=
        exists_brace (List.append_nil _).symm completes none
      -- the words up to the brace are words of the whole text
      rw [String.toList_ofList] at text'
      rw [text', List.append_assoc] at text
      rw [boards_read, text, spells, run_append completes]
      exact List.reverse_prefix.2 (suffix_run ⟨boards, .betweenBoards⟩ _)

/-- A text that goes wrong in its second board. The braces in its comment and in a name are not where
it is cut off. -/
def secondWrong : String :=
  "One \x7b A : \"\x7d\" \x7d #\x7d\nTwo \x7b A : \"\x7d\" : \x7d\nThree \x7b \x7d"

theorem fault_keeps_boards_secondWrong :
    ∃ fault, (read secondWrong).fault = some fault ∧ fault.offset = 33 ∧
      (read secondWrong).boards.length = 1 ∧
      (∃ front rest, secondWrong.toList = front ++ rest ∧
        (front = [] ∨ ∃ before, front = before ++ ['\x7d'] ∧ byteLength before < fault.offset) ∧
        read (.ofList front) = ⟨(read secondWrong).boards, none⟩) ∧
      ∀ front rest, secondWrong.toList = front ++ rest → (read (.ofList front)).fault = none →
        (read (.ofList front)).boards <+: (read secondWrong).boards := by
  have found : ∃ fault, (read secondWrong).fault = some fault ∧ fault.offset = 33 := by
    decide +kernel
  obtain ⟨fault, h, offset⟩ := found
  exact ⟨fault, h, offset, by decide +kernel, fault_keeps_boards secondWrong fault h⟩

end Pinout.Definition
