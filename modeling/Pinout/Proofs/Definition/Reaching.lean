import Pinout.Proofs.Definition.Acceptance

/-! # What is taken and what is open

A reader that has taken some lexemes is at a place, and only the place decides what can come next.
Steps ask for the kinds and the texts of lexemes but not where they stand, and whatever is open at a
place can be closed.
-/

namespace Pinout.Definition

/-- All of some lexemes are taken between two states. -/
def Reaches (state : State) (lexemes : List Lexeme) (state' : State) : Prop :=
  run state lexemes = (state', [])

variable {state state' : State} {lexeme : Lexeme} {lexemes more : List Lexeme}

theorem reaches_nil_iff : Reaches state [] state' ↔ state' = state := by
  simp [Reaches, run, eq_comm]

theorem reaches_cons_iff :
    Reaches state (lexeme :: more) state' ↔
      ∃ next, step state lexeme = some next ∧ Reaches next more state' := by
  cases h : step state lexeme <;> simp [Reaches, run, h]

theorem reaches_append_iff :
    Reaches state (lexemes ++ more) state' ↔
      ∃ middle, Reaches state lexemes middle ∧ Reaches middle more state' := by
  induction lexemes generalizing state with
  | nil => simp [reaches_nil_iff]
  | cons lexeme lexemes ih =>
    simp only [List.cons_append, reaches_cons_iff, ih]
    constructor
    · rintro ⟨next, taken, middle, reaches, behind⟩
      exact ⟨middle, ⟨next, taken, reaches⟩, behind⟩
    · rintro ⟨middle, ⟨next, taken, reaches⟩, behind⟩
      exact ⟨next, taken, middle, reaches, behind⟩

theorem Reaches.unique {other : State} (h : Reaches state lexemes state')
    (h' : Reaches state lexemes other) : other = state' :=
  congrArg Prod.fst (h'.symm.trans h)

/-- Reading stops in front of the first lexeme that cannot stand where it does. -/
theorem run_spec (state : State) (lexemes : List Lexeme) :
    ∃ taken, lexemes = taken ++ (run state lexemes).2 ∧
      Reaches state taken (run state lexemes).1 ∧
      ∀ lexeme more, (run state lexemes).2 = lexeme :: more →
        step (run state lexemes).1 lexeme = none := by
  fun_induction run state lexemes with
  | case1 state => exact ⟨[], rfl, rfl, nofun⟩
  | case2 state lexeme rest next taken ih =>
    obtain ⟨more, split, reaches, stuck⟩ := ih
    exact ⟨lexeme :: more, congrArg (lexeme :: ·) split,
      reaches_cons_iff.2 ⟨next, taken, reaches⟩, stuck⟩
  | case3 state lexeme rest stuck =>
    refine ⟨[], rfl, rfl, ?_⟩
    rintro _ _ ⟨⟩
    exact stuck

def Lexeme.unplaced (lexeme : Lexeme) : Lexeme :=
  { lexeme with offset := 0 }

/-- No step asks where a lexeme stands. -/
theorem step_unplaced (state : State) (lexeme : Lexeme) :
    step state lexeme.unplaced = step state lexeme :=
  rfl

theorem reaches_unplaced :
    Reaches state (lexemes.map Lexeme.unplaced) state' ↔ Reaches state lexemes state' := by
  induction lexemes generalizing state with
  | nil => exact Iff.rfl
  | cons lexeme lexemes ih => simp only [List.map_cons, reaches_cons_iff, step_unplaced, ih]

theorem completes_unplaced {boards : List Board} :
    Completes state (lexemes.map Lexeme.unplaced) boards ↔ Completes state lexemes boards :=
  reaches_unplaced

/-- Whether a lexeme can stand at a place depends on its kind. -/
theorem step_isSome_congr {lexeme' : Lexeme} (same : lexeme'.kind = lexeme.kind) :
    (step state lexeme').isSome = (step state lexeme).isSome := by
  obtain ⟨boards, place⟩ := state
  cases kind : lexeme.kind with
  | _ =>
    have kind' := same.trans kind
    cases place <;> simp [step, nextBus, nextAssignment, Kind.isName, kind, kind']

def someName : Lexeme := ⟨.quoted, 0, ['"', '"']⟩
def someBlock : Lexeme := ⟨.block, 0, ['<', '<', '>', '>']⟩
def openingBrace : Lexeme := ⟨.openBrace, 0, ['{']⟩
def closingBrace : Lexeme := ⟨.closeBrace, 0, ['}']⟩

/-- Some lexemes that complete the board that is open at a place. -/
def Place.closing : Place → List Lexeme
  | .betweenBoards => []
  | .boardName _ | .parentName _ => [someName, openingBrace, closingBrace]
  | .afterBoardName _ | .afterParentName _ => [openingBrace, closingBrace]
  | .headerText _ => [someBlock, closingBrace]
  | .configStart _ => [openingBrace, someName, closingBrace, closingBrace]
  | .key _ _ | .value _ _ _ => [someName, closingBrace, closingBrace]
  | .afterKey _ _ _ | .afterValue _ _ => [closingBrace, closingBrace]
  | _ => [closingBrace]

theorem Completes.cons {next : State} {boards : List Board} (taken : step state lexeme = some next)
    (h : Completes next more boards) : Completes state (lexeme :: more) boards :=
  completes_cons_iff.2 ⟨next, taken, h⟩

theorem step_close (boards : List Board) (holder : Holder) (assigned : List Assignment) :
    ∃ after, step ⟨boards, holder.close assigned⟩ closingBrace = some ⟨after, .betweenBoards⟩ := by
  cases holder <;> exact ⟨_, rfl⟩

/-- Whatever is open can be closed. -/
theorem completes_closing (state : State) :
    ∃ boards, Completes state state.place.closing boards := by
  obtain ⟨boards, place⟩ := state
  cases place with
  | betweenBoards => exact ⟨boards, rfl⟩
  | boardName | parentName => exact ⟨_, .cons rfl (.cons rfl (.cons rfl rfl))⟩
  | afterBoardName | afterParentName | headerText => exact ⟨_, .cons rfl (.cons rfl rfl)⟩
  | configStart => exact ⟨_, .cons rfl (.cons rfl (.cons rfl (.cons rfl rfl)))⟩
  | key holder assigned =>
    obtain ⟨after, closes⟩ := step_close boards holder ((someName.name, none) :: assigned)
    exact ⟨after, .cons rfl (.cons rfl (.cons closes rfl))⟩
  | afterKey holder assigned key =>
    obtain ⟨after, closes⟩ := step_close boards holder ((key, none) :: assigned)
    exact ⟨after, .cons rfl (.cons closes rfl)⟩
  | value holder assigned key =>
    obtain ⟨after, closes⟩ := step_close boards holder ((key, some someName.name) :: assigned)
    exact ⟨after, .cons rfl (.cons rfl (.cons closes rfl))⟩
  | afterValue holder assigned =>
    obtain ⟨after, closes⟩ := step_close boards holder assigned
    exact ⟨after, .cons rfl (.cons closes rfl)⟩
  | body board opening => cases opening <;> exact ⟨_, .cons rfl rfl⟩
  | _ => exact ⟨_, .cons rfl rfl⟩

end Pinout.Definition
