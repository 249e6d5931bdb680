import Pinout.Proofs.Definition.Faults

/-! # One text behind another

Lexing further on in a text gives the same lexemes further on, and reading behind some boards gives
the same boards behind those. So a text that is read without a fault can have another one on its
next lines: the other one is read as if it stood alone.
-/

namespace Pinout.Definition

open Text

def Lexeme.move (distance : Nat) (lexeme : Lexeme) : Lexeme :=
  { lexeme with offset := lexeme.offset + distance }

def Lexer.move (distance : Nat) (lexer : Lexer) : Lexer :=
  ⟨lexer.offset + distance, lexer.rest, lexer.current.move distance⟩

variable {distance : Nat}

theorem next?_move {lexer lexer' : Lexer} (moved : lexer'.offset = lexer.offset + distance)
    (same : lexer'.rest = lexer.rest) :
    lexer'.next? = lexer.next?.map fun (lexeme, behind) =>
      (lexeme.move distance, { behind.move distance with current := lexer'.current }) := by
  simp only [Lexer.next?, moved, same, Option.map_map]
  congr 1
  funext found
  obtain ⟨kind, n⟩ := found
  simp [Lexeme.move, Lexer.move, Nat.add_right_comm]

/-- The lexemes that are found depend on what is left only, not on the current one. -/
theorem lexemes_move {lexer lexer' : Lexer} (moved : lexer'.offset = lexer.offset + distance)
    (same : lexer'.rest = lexer.rest) :
    lexer'.lexemes =
      (lexer.lexemes.1.map (Lexeme.move distance), lexer.lexemes.2.move distance) := by
  have next := next?_move moved same
  induction lexer using Lexer.lexemes.induct generalizing lexer' with
  | case1 lexer h =>
    rw [h] at next
    rw [Lexer.lexemes_of_none h, Lexer.lexemes_of_none next, moved, same]
    rfl
  | case2 lexer lexeme behind h _ _ _ ih =>
    rw [h] at next
    have later := @ih { behind.move distance with current := lexer'.current } rfl rfl
      (next?_move rfl rfl)
    rw [Lexer.lexemes_of_some h, Lexer.lexemes_of_some next, later]
    rfl

theorem placedWords_move {lexer lexer' : Lexer} (moved : lexer'.offset = lexer.offset + distance)
    (same : lexer'.rest = lexer.rest) :
    lexer'.placedWords =
      (lexer.placedWords.1.map (Lexeme.move distance), lexer.placedWords.2.move distance) := by
  rw [Lexer.placedWords, lexemes_move moved same, List.filter_map]
  rfl

def State.behind (boards : List Board) (state : State) : State :=
  { state with boards := state.boards ++ boards }

variable {boards : List Board} {state state' : State} {lexeme : Lexeme} {lexemes : List Lexeme}

theorem nextBus_behind (boards before : List Board) (board : OpenBoard) (lexeme : Lexeme) :
    nextBus (before ++ boards) board lexeme =
      (nextBus before board lexeme).map (State.behind boards) := by
  unfold nextBus
  split
  · rfl
  · split <;> rfl

theorem nextAssignment_behind (boards before : List Board) (holder : Holder)
    (assigned : List Assignment) (lexeme : Lexeme) :
    nextAssignment (before ++ boards) holder assigned lexeme =
      (nextAssignment before holder assigned lexeme).map (State.behind boards) := by
  unfold nextAssignment
  split <;> rfl

/-- No step asks for the boards that were read before. -/
theorem step_behind (boards : List Board) (state : State) (lexeme : Lexeme) :
    step (state.behind boards) lexeme = (step state lexeme).map (State.behind boards) := by
  obtain ⟨before, place⟩ := state
  cases place with
  | afterValue holder assigned => exact nextAssignment_behind boards before holder assigned lexeme
  | pin board bus =>
    simp only [step, State.behind, nextBus_behind]
    split
    · rfl
    · split <;> rfl
  | _ =>
    simp only [step, State.behind, nextBus_behind, nextAssignment_behind]
    split <;> rfl

theorem step_move (boards : List Board) (state : State) (lexeme : Lexeme) :
    step (state.behind boards) (lexeme.move distance) =
      (step state lexeme).map (State.behind boards) := by
  rw [← step_behind, ← step_unplaced, ← step_unplaced _ lexeme]
  rfl

/-- Lexemes are taken alike further on and behind other boards. -/
theorem run_move (boards : List Board) (state : State) (lexemes : List Lexeme) :
    run (state.behind boards) (lexemes.map (Lexeme.move distance)) =
      ((run state lexemes).1.behind boards,
        (run state lexemes).2.map (Lexeme.move distance)) := by
  fun_induction run state lexemes with
  | case1 state => rfl
  | case2 state lexeme rest next taken ih =>
    simp only [List.map_cons, run, step_move, taken, Option.map_some, ih]
  | case3 state lexeme rest stuck =>
    simp only [List.map_cons, run, step_move, stuck, Option.map_none]

/-- Behind lexemes that were not all taken nothing more is. -/
theorem run_append_eq (state : State) (lexemes more : List Lexeme) :
    run state (lexemes ++ more) =
      match run state lexemes with
      | (next, []) => run next more
      | (next, lexeme :: left) => (next, lexeme :: left ++ more) := by
  fun_induction run state lexemes with
  | case1 state => rfl
  | case2 state lexeme rest next taken ih => simpa only [List.cons_append, run, taken] using ih
  | case3 state lexeme rest stuck => simp only [List.cons_append, run, stuck]

theorem run_append (reaches : Reaches state lexemes state') (more : List Lexeme) :
    run state (lexemes ++ more) = run state' more := by
  rw [run_append_eq, show run state lexemes = (state', []) from reaches]

theorem faultAt?_move (boards : List Board) (state : State) (left : List Lexeme) (final : Lexer) :
    faultAt? (state.behind boards) (left.map (Lexeme.move distance)) (final.move distance) =
      (faultAt? state left final).map fun (offset, complaint) =>
        (offset + distance, complaint) := by
  obtain ⟨before, place⟩ := state
  have stalled : (final.move distance).stalled = final.stalled := rfl
  cases left with
  | cons lexeme left => rfl
  | nil =>
    cases place with
    | betweenBoards =>
      simp only [faultAt?, State.behind, List.map_nil, stalled]
      split <;> rfl
    | _ => rfl

/-- A board is complete behind a closing brace. -/
theorem kind_of_completed (taken : step state lexeme = some ⟨boards, .betweenBoards⟩) :
    lexeme.kind = .closeBrace := by
  obtain ⟨before, place⟩ := state
  cases kind : lexeme.kind with
  | closeBrace => rfl
  | _ =>
    cases place with
    | body board opening => cases opening <;> simp [step, nextBus, Kind.isName, kind] at taken
    | _ => simp [step, nextBus, nextAssignment, Kind.isName, kind] at taken

/-- No number at the end of complete boards has a unit split off. -/
theorem Lexed.apart_of_completes {rest : List Char} (lexed : Lexed lexemes rest)
    (completes : Completes {} (words lexemes) boards) (before after : List Lexeme)
    (number : Lexeme) (split : lexemes = before ++ number :: after) :
    textOf after ≠ ['n', 's'] := by
  subst split
  intro together
  have behind := (lexed_cons_iff.1 (lexed_append_iff.1 lexed).2).2
  obtain ⟨unit, rfl, isUnit⟩ := behind.eq_singleton together
  -- the unit would be the last word, and it is no brace
  rw [List.append_cons, words_append, words_cons, (behind.unit_spec isUnit).1] at completes
  obtain ⟨middle, -, reaches⟩ := reaches_append_iff.1 completes
  obtain ⟨next, taken, reaches⟩ := reaches_cons_iff.1 reaches
  cases reaches_nil_iff.1 reaches
  cases kind_of_completed taken

/-- The words of a complete text are found in front of further lines, and those of the other lines
as far behind as they stand. -/
theorem placedWords_join {source : String} (nothingLeft : (endOf source).rest = [])
    (completes : Completes {} (wordsOf source) boards) (more : String) :
    let distance := byteLength source.toList + 1
    let others := (Lexer.ofSource more).placedWords
    ∃ front, Reaches {} front ⟨boards, .betweenBoards⟩ ∧
      (Lexer.ofSource (source ++ "\n" ++ more)).placedWords =
        (front ++ others.1.map (Lexeme.move distance), others.2.move distance) := by
  obtain ⟨text, lexed⟩ := lexed_lexemes (Lexer.ofSource source)
  rw [show (Lexer.ofSource source).lexemes.2.rest = [] from nothingLeft] at text lexed
  rw [List.append_nil] at text
  have completes := completes_unplaced.2 completes
  have follows : Follows (Lexer.ofSource source).lexemes.1 [] ('\n' :: more.toList) :=
    .layout (by decide) _ (fun before number after split _ =>
      lexed.apart_of_completes completes _ _ _ split) (.inl rfl)
  obtain ⟨front, same, placed⟩ := lexed.placedWords_replace follows 0 (.endAt 0)
  refine ⟨front, reaches_unplaced.1 (same ▸ completes), ?_⟩
  -- the line feed is one more blank behind the first text
  rw [← text, placedWords_cons_of_isBlank (by decide), Nat.zero_add] at placed
  let behind : Lexer := ⟨byteLength source.toList + 1, more.toList, .endAt 0⟩
  have others := placedWords_move
    (show behind.offset = (Lexer.ofSource more).offset + (byteLength source.toList + 1) from
      (Nat.zero_add _).symm) rfl
  have joined : (source ++ "\n" ++ more).toList = source.toList ++ '\n' :: more.toList := by
    simp
  rw [Lexer.ofSource, joined]
  exact placed.trans (congrArg (fun others => (front ++ others.1, others.2)) others)

/-- What is on the lines behind a complete text is read as if it stood alone. -/
theorem read_join {source : String} (complete : (read source).fault = none) (more : String) :
    let joined := source ++ "\n" ++ more
    read joined =
      ⟨(read source).boards ++ (read more).boards,
        (read more).fault.map fun fault =>
          .ofSource joined (fault.offset + (byteLength source.toList + 1)) fault.complaint⟩ := by
  intro joined
  obtain ⟨nothingLeft, boards, completes⟩ := (fault_eq_none_iff source).1 complete
  obtain ⟨front, reaches, placed⟩ := placedWords_join nothingLeft completes more
  have read_eq (source : String) : read source =
      let words := (Lexer.ofSource source).placedWords
      let outcome := run {} words.1
      ⟨outcome.1.boards.reverse, (faultAt? outcome.1 outcome.2 words.2).map
        fun (offset, complaint) => .ofSource source offset complaint⟩ := rfl
  have behind : (⟨boards, .betweenBoards⟩ : State) = State.behind boards {} := rfl
  rw [boards_of_completes completes, read_eq joined, placed, read_eq more]
  simp only [run_append reaches, behind, run_move, faultAt?_move, Option.map_map]
  simp only [State.behind, List.reverse_append]
  rfl

end Pinout.Definition
