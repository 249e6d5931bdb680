import Pinout.Definition.Reading

/-! # Boards as texts define them

A text cannot stack pins: every position of a board that is read has one pin, and that pin came from
no wing. Each place in a text says what is open there, and every step keeps all that is open bare.
-/

namespace Pinout

/-- No position has a pin covered, or one that came from a wing. -/
def Board.Bare (board : Board) : Prop :=
  ∀ bus ∈ board.buses, ∀ slot ∈ bus.slots, slot.below = [] ∧ slot.top.origin = none

instance (board : Board) : Decidable board.Bare :=
  inferInstanceAs (Decidable (∀ bus ∈ board.buses, ∀ slot ∈ bus.slots,
    slot.below = [] ∧ slot.top.origin = none))

namespace Definition

def OpenBus.Bare (bus : OpenBus) : Prop :=
  ∀ slot ∈ bus.slots, slot.below = [] ∧ slot.top.origin = none

def OpenBoard.Bare (board : OpenBoard) : Prop :=
  ∀ bus ∈ board.buses, ∀ slot ∈ bus.slots, slot.below = [] ∧ slot.top.origin = none

def Holder.Bare : Holder → Prop
  | .config board => board.Bare
  | .bus board named => board.Bare ∧ named.Bare
  | .pin board named owner => board.Bare ∧ named.Bare ∧ owner.origin = none

def Place.Bare : Place → Prop
  | .betweenBoards | .boardName _ | .afterBoardName _ => True
  | .parentName board | .afterParentName board | .body board _ | .headerText board
  | .configStart board => board.Bare
  | .key holder _ | .afterKey holder _ _ | .value holder _ _ | .afterValue holder _ => holder.Bare
  | .afterBusName board named | .afterBusAdditions board named | .pin board named =>
    board.Bare ∧ named.Bare
  | .afterPinName board named owner | .afterPin board named owner =>
    board.Bare ∧ named.Bare ∧ owner.origin = none

structure State.Bare (state : State) : Prop where
  boards : ∀ board ∈ state.boards, board.Bare
  place : state.place.Bare

variable {boards : List Board} {board : OpenBoard} {bus : OpenBus} {pin : Pin} {state next : State}
  {lexeme : Lexeme}

theorem OpenBus.Bare.add (bare : bus.Bare) (own : pin.origin = none) : (bus.add pin).Bare :=
  List.forall_mem_cons.2 ⟨⟨rfl, own⟩, bare⟩

theorem OpenBoard.Bare.add (bare : board.Bare) (others : bus.Bare) : (board.add bus).Bare :=
  List.forall_mem_cons.2 ⟨fun slot member => others slot (List.mem_reverse.1 member), bare⟩

theorem OpenBoard.Bare.close (bare : board.Bare) : board.close.Bare :=
  fun bus member => bare bus (List.mem_reverse.1 member)

theorem Holder.Bare.close {holder : Holder} (bare : holder.Bare) (assigned : List Assignment) :
    (holder.close assigned).Bare := by
  cases holder with
  | config board => exact bare
  | bus board bus => exact bare
  | pin board bus pin => exact bare

theorem bare_nextBus (before : ∀ board ∈ boards, board.Bare) (bare : board.Bare)
    (taken : nextBus boards board lexeme = some next) : next.Bare := by
  unfold nextBus at taken
  split at taken
  · cases taken
    exact ⟨List.forall_mem_cons.2 ⟨bare.close, before⟩, trivial⟩
  · split at taken <;> cases taken
    exact ⟨before, bare, nofun⟩

theorem bare_nextAssignment {holder : Holder} {assigned : List Assignment}
    (before : ∀ board ∈ boards, board.Bare) (bare : holder.Bare)
    (taken : nextAssignment boards holder assigned lexeme = some next) : next.Bare := by
  unfold nextAssignment at taken
  split at taken <;> cases taken
  · exact ⟨before, bare⟩
  · exact ⟨before, bare.close assigned⟩

theorem State.Bare.step (bare : state.Bare) (taken : step state lexeme = some next) :
    next.Bare := by
  obtain ⟨boards, place⟩ := state
  obtain ⟨before, here⟩ := bare
  cases place with
  | betweenBoards | boardName =>
    simp only [Definition.step] at taken
    split at taken <;> cases taken
    exact ⟨before, trivial⟩
  | afterBoardName names =>
    simp only [Definition.step] at taken
    split at taken <;> cases taken
    · exact ⟨before, trivial⟩
    · exact ⟨before, nofun⟩
    · exact ⟨before, nofun⟩
  | parentName | afterParentName | headerText | configStart | key | value =>
    simp only [Definition.step] at taken
    split at taken <;> cases taken
    exact ⟨before, here⟩
  | body board opening =>
    simp only [Definition.step] at taken
    split at taken
    iterate 3
      cases taken
      exact ⟨before, here⟩
    exact bare_nextBus before here taken
  | afterKey holder assigned key =>
    simp only [Definition.step] at taken
    split at taken
    · cases taken
      exact ⟨before, here⟩
    · exact bare_nextAssignment before here taken
  | afterValue holder assigned => exact bare_nextAssignment before here taken
  | afterBusName board bus =>
    simp only [Definition.step] at taken
    split at taken
    · cases taken
      exact ⟨before, here⟩
    · cases taken
      exact ⟨before, here⟩
    · exact bare_nextBus before (here.1.add here.2) taken
  | afterBusAdditions board bus =>
    simp only [Definition.step] at taken
    split at taken
    · cases taken
      exact ⟨before, here⟩
    · exact bare_nextBus before (here.1.add here.2) taken
  | pin board bus =>
    simp only [Definition.step] at taken
    split at taken
    · cases taken
      exact ⟨before, here.1, here.2, rfl⟩
    · split at taken
      · cases taken
        exact ⟨before, here.1, here.2, rfl⟩
      · cases taken
        exact ⟨before, here.1, here.2.add rfl⟩
      · exact bare_nextBus before (here.1.add (here.2.add rfl)) taken
  | afterPinName board bus pin =>
    simp only [Definition.step] at taken
    split at taken
    · cases taken
      exact ⟨before, here⟩
    · cases taken
      exact ⟨before, here.1, here.2.1.add here.2.2⟩
    · exact bare_nextBus before (here.1.add (here.2.1.add here.2.2)) taken
  | afterPin board bus pin =>
    simp only [Definition.step] at taken
    split at taken
    · cases taken
      exact ⟨before, here.1, here.2.1.add here.2.2⟩
    · exact bare_nextBus before (here.1.add (here.2.1.add here.2.2)) taken

theorem State.Bare.run (bare : state.Bare) (lexemes : List Lexeme) :
    (run state lexemes).1.Bare := by
  fun_induction Definition.run state lexemes with
  | case1 state => exact bare
  | case2 state lexeme rest next taken ih => exact ih (bare.step taken)
  | case3 state lexeme rest stuck => exact bare

/-- All boards of a text are bare, also those in front of a fault. -/
theorem bare_read (source : String) : ∀ board ∈ (read source).boards, board.Bare := by
  have start : State.Bare {} := ⟨nofun, trivial⟩
  intro board member
  exact (start.run _).boards board (List.mem_reverse.1 member)

end Definition

end Pinout
