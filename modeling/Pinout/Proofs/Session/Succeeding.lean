import Pinout.Proofs.Session.Wiring

/-! # Steps that succeed

No step loses a name or the board that is chosen, and only steps that work with wings change which
wings wait. A step that writes pins succeeds if there is a board to write, all wings that wait are
known, and it could write the pins without them; it is the first unknown wing that it fails with.
-/

namespace Pinout.Session

variable {session session' : Session} {files : Files} {step : Step} {steps : List Step}

theorem error_orFail {α : Type} {value : Except SessionError α} {rest : α → Outcome} :
    (orFail session value rest).error = none ↔ ∃ a, value = .ok a ∧ (rest a).error = none := by
  cases value <;> simp [orFail, Outcome.failed]

/-- What a step that leaves wings alone can make of a session. -/
theorem execute_keeps (leaves : step.isWingWork = false) (P : Session → Prop) (same : P session)
    (loaded : ∀ kind source, P (session.loadText kind source).session)
    (chosen : ∀ name, session.catalog.contains .board name = true →
      P { session with source := some name } ∧ P { session with destination := some name })
    (moved : ∀ moves, P { session with moves }) : P (execute files session step).session := by
  have named {name : String} {board : BoardId} (found : session.boardNamed name = .ok board) :
      session.catalog.contains .board name = true := by
    simp only [boardNamed] at found
    rw [Catalog.contains]
    split at found
    · next here => rw [here, Option.isSome_some]
    · cases found
  cases step with
  | loadDefinitions path kind => exact orFail_keeps P same fun text => loaded kind text
  | sourceBoard name =>
    rw [execute]
    cases found : session.boardNamed name with
    | ok board => exact (chosen name (named found)).1
    | error error => exact same
  | destinationBoard name =>
    rw [execute]
    cases found : session.boardNamed name with
    | ok board => exact (chosen name (named found)).2
    | error error => exact same
  | move directive => exact orFail_keeps P (moved _) fun _ => moved _
  | transform path =>
    exact orFail_keeps P same fun _ => orFail_keeps P same fun _ =>
      orFail_keeps P same fun _ => same
  | validate path =>
    refine orFail_keeps P same fun _ => orFail_keeps P same fun _ => orFail_keeps P same fun _ => ?_
    split <;> exact same
  | _ => cases leaves

theorem contains_congr (same : session.wired = session'.wired) :
    session.catalog.contains = session'.catalog.contains := by
  funext kind name
  rw [Catalog.contains, find?_congr same, Catalog.contains]

theorem catalog_loadText (session : Session) (kind : BoardKind) (source : String) :
    (session.loadText kind source).session =
      { session with catalog := (session.catalog.load kind source).1 } := by
  unfold loadText
  split
  next catalog result load =>
  rw [load]
  split <;> rfl

theorem contains_execute {kind : BoardKind} {name : String}
    (known : session.catalog.contains kind name = true) (files : Files) (step : Step) :
    (execute files session step).session.catalog.contains kind name = true := by
  cases works : step.isWingWork with
  | true => rwa [contains_congr (wired_execute works)]
  | false =>
    refine execute_keeps works (fun session => session.catalog.contains kind name = true) known
      (fun kind' source => ?_) (fun _ _ => ⟨known, known⟩) fun _ => known
    rw [catalog_loadText]
    exact Catalog.contains_load known kind' source

theorem destinationBoard_isOk_iff :
    (∃ board, session.destinationBoard = .ok board) ↔
      ∃ name, session.destination.or session.source = some name ∧
        session.catalog.contains .board name = true := by
  rw [destinationBoard, destinationName]
  cases session.destination.or session.source with
  | none => simp [bind, Except.bind]
  | some name =>
    change (∃ board, session.boardNamed name = .ok board) ↔ _
    simp only [boardNamed, Catalog.contains]
    cases h : session.catalog.find? .board name <;> simp [h]

/-- Once there is a board to write, there is one from then on. -/
theorem destinationBoard_execute (chosen : ∃ board, session.destinationBoard = .ok board)
    (files : Files) (step : Step) :
    ∃ board, (execute files session step).session.destinationBoard = .ok board := by
  cases works : step.isWingWork with
  | true => rwa [destinationBoard_congr (wired_execute works)]
  | false =>
    obtain ⟨name, here, known⟩ := destinationBoard_isOk_iff.1 chosen
    refine execute_keeps works (fun session => ∃ board, session.destinationBoard = .ok board) chosen
      (fun kind source => ?_) (fun name' known' => ⟨?_, ?_⟩)
      fun _ => destinationBoard_isOk_iff.2 ⟨name, here, known⟩
    · rw [catalog_loadText]
      exact destinationBoard_isOk_iff.2 ⟨name, here, Catalog.contains_load known kind source⟩
    · -- the new name counts only where no destination was chosen
      cases destination : session.destination with
      | some name =>
        rw [destination] at here
        cases here
        exact destinationBoard_isOk_iff.2 ⟨_, rfl, known⟩
      | none => exact destinationBoard_isOk_iff.2 ⟨name', rfl, known'⟩
    · exact destinationBoard_isOk_iff.2 ⟨name', rfl, known'⟩

theorem placements_execute (leaves : step.isWingWork = false) :
    (execute files session step).session.placements = session.placements := by
  refine execute_keeps leaves (fun after => after.placements = session.placements) rfl
    (fun kind source => ?_) (fun _ _ => ⟨rfl, rfl⟩) fun _ => rfl
  rw [catalog_loadText]

def unknown? (session : Session) : Option Wing.Request :=
  session.placements.toRequests.find? fun request => !session.catalog.contains .wing request.wing

theorem plugAll_snd (catalog : Catalog) (board : BoardId) (requests : List Wing.Request) :
    (plugAll catalog board requests).2 =
      match requests.find? fun request => !catalog.contains .wing request.wing with
      | some request => .error (.unknownWing request.wing)
      | none => .ok () := by
  induction requests generalizing catalog with
  | nil => rfl
  | cons request rest ih =>
    rw [plugAll, List.find?_cons]
    cases found : catalog.find? .wing request.wing with
    | none => simp [Catalog.contains, found]
    | some wing =>
      -- the registry of wings is still the one in which this one was found
      have same : (Wing.plug catalog board wing request.position).1.find? .wing =
          catalog.find? .wing :=
        funext (Wing.find?_plug catalog board wing request.position .wing)
      simp only [ih, same, Catalog.contains, found, Option.isSome_some, Bool.not_true]

theorem applyPlacements_snd (session : Session) (board : BoardId) :
    (session.applyPlacements board).2 =
      match session.unknown? with
      | some request => .error (.unknownWing request.wing)
      | none => .ok () :=
  plugAll_snd session.catalog board session.placements.toRequests

theorem unknown?_eq_none_iff :
    session.unknown? = none ↔ ∀ request ∈ session.placements.toRequests,
      session.catalog.contains .wing request.wing = true := by
  simp [unknown?]

def placing (session : Session) (rest : Session → BoardId → Outcome) : Outcome :=
  orFail session session.destinationBoard fun board =>
    orFail (session.applyPlacements board).1 (session.applyPlacements board).2 fun () =>
      rest (session.applyPlacements board).1 board

theorem error_placing {rest : Session → BoardId → Outcome} :
    (placing session rest).error = none ↔
      ∃ board, session.destinationBoard = .ok board ∧ session.unknown? = none ∧
        (rest (session.withPlaced board) board).error = none := by
  rw [placing, error_orFail]
  refine exists_congr fun board => and_congr_right fun _ => ?_
  rw [error_orFail, applyPlacements_fst, applyPlacements_snd]
  cases session.unknown? <;> simp

theorem error_placing_of_unknown {rest : Session → BoardId → Outcome} {board : BoardId}
    {request : Wing.Request} (found : session.destinationBoard = .ok board)
    (unknown : session.unknown? = some request) :
    (placing session rest).error = some (.unknownWing request.wing) := by
  rw [placing, found, orFail, applyPlacements_snd, unknown]
  rfl

theorem placements_placing {rest : Session → BoardId → Outcome} {board : BoardId}
    (found : session.destinationBoard = .ok board)
    (keeps : ∀ session board, (rest session board).session = session) :
    (placing session rest).session.placements = {} := by
  rw [placing, found, orFail]
  exact orFail_keeps (fun session => session.placements = {}) rfl fun _ => by rw [keeps]; rfl

theorem select_congr {catalog catalog' : Catalog} (same : catalog.wired = catalog'.wired)
    (board : BoardId) (filter : Constraint.PinFilter) :
    (∃ views, filter.select catalog board = .ok views) ↔
      ∃ views, filter.select catalog' board = .ok views := by
  have wirings : (filter.select catalog board).map (List.map PinView.wiring) =
      (filter.select catalog' board).map (List.map PinView.wiring) := by
    rw [← Constraint.PinFilter.select_wired, same, Constraint.PinFilter.select_wired]
  cases here : filter.select catalog board <;> cases there : filter.select catalog' board <;>
    simp [here, there, Except.map] at wirings ⊢

theorem generate_eq (session : Session) (filter : String) :
    session.generate filter = placing session fun session board =>
      let text := Constraint.generate session.catalog board (.parse filter) session.options
      orFail session (text.mapError .busRange) (.written session) :=
  rfl

theorem exportBoards_eq {names : List String} {format : Export.Format}
    (waiting : ¬session.placements.isEmpty = true) :
    session.exportBoards names format =
      placing session fun session _ => session.exportChosen names format :=
  if_neg waiting

theorem error_generate {filter : String} :
    (session.generate filter).error = none ↔
      ∃ board, session.destinationBoard = .ok board ∧ session.unknown? = none ∧
        ∃ views, (Constraint.PinFilter.parse filter).select session.catalog board = .ok views := by
  rw [generate_eq]
  refine error_placing.trans <| exists_congr fun board => and_congr_right fun _ =>
    and_congr_right fun _ => ?_
  -- wings that are plugged in leave the choice of pins alone
  rw [← select_congr (catalog_congr (wired_withPlaced session board)), error_orFail]
  rw [Constraint.generate]
  cases (Constraint.PinFilter.parse filter).select (session.withPlaced board).catalog board <;>
    simp [bind, Except.bind, pure, Except.pure, Except.mapError, Outcome.written]

theorem error_exportBoards {names : List String} {format : Export.Format} :
    (session.exportBoards names format).error = none ↔
      session.placements.isEmpty = true ∨
        ∃ board, session.destinationBoard = .ok board ∧ session.unknown? = none := by
  by_cases waiting : session.placements.isEmpty = true
  · simp [exportBoards, waiting, exportChosen, Outcome.logging, Outcome.written]
  · rw [or_iff_right waiting, exportBoards_eq waiting]
    refine error_placing.trans <| exists_congr fun board => and_congr_right fun _ => ?_
    exact and_iff_left rfl

theorem unknown?_of_isEmpty (nothing : session.placements.isEmpty = true) :
    session.unknown? = none := by
  rw [unknown?, Wing.Placements.toRequests, List.isEmpty_iff.1 nothing]
  rfl

/-- Behind a step that wrote pins no wing waits, and all that waited were known. -/
theorem written_spec (writes : step.writesPins = true)
    (succeeds : (execute files session step).error = none) :
    (execute files session step).session.placements = {} ∧ session.unknown? = none ∧
      (session.placements.isEmpty = true ∨ ∃ board, session.destinationBoard = .ok board) := by
  cases step with
  | generate filter =>
    obtain ⟨board, found, known, -⟩ := error_generate.1 succeeds
    refine ⟨?_, known, .inr ⟨board, found⟩⟩
    rw [execute, generate_eq]
    exact placements_placing found fun session _ =>
      orFail_keeps (fun after => after = session) rfl fun _ => rfl
  | exportBoards names format =>
    by_cases nothing : session.placements.isEmpty = true
    · refine ⟨?_, unknown?_of_isEmpty nothing, .inl nothing⟩
      rw [execute, exportBoards, if_pos nothing]
      exact congrArg OrderedMap.mk (List.isEmpty_iff.1 nothing)
    · obtain ⟨board, found, known⟩ := (error_exportBoards.1 succeeds).resolve_left nothing
      refine ⟨?_, known, .inr ⟨board, found⟩⟩
      rw [execute, exportBoards_eq nothing]
      exact placements_placing found fun _ _ => rfl
  | _ => cases writes

/-- Of two sessions that differ in wings only, both can write pins as far as all wings that wait are
known. -/
theorem error_execute_of_writesPins (same : session'.wired = session.wired)
    (writes : step.writesPins = true) (succeeds : (execute files session step).error = none)
    (board : session'.placements.isEmpty = true ∨ session.placements.isEmpty = false ∨
      ∃ board, session.destinationBoard = .ok board) :
    (execute files session' step).error =
      session'.unknown?.map fun request => .unknownWing request.wing := by
  have chosen := destinationBoard_congr same
  cases step with
  | generate filter =>
    obtain ⟨board, found, -, views⟩ := error_generate.1 succeeds
    rw [← chosen] at found
    cases unknown : session'.unknown? with
    | none =>
      have chooses := (select_congr (catalog_congr same) _ _).2 views
      exact error_generate.2 ⟨board, found, unknown, chooses⟩
    | some request =>
      rw [execute, generate_eq]
      exact error_placing_of_unknown found unknown
  | exportBoards names format =>
    by_cases nothing : session'.placements.isEmpty = true
    · rw [unknown?_of_isEmpty nothing]
      exact error_exportBoards.2 (.inl nothing)
    · have there : ∃ board, session.destinationBoard = .ok board := by
        rcases error_exportBoards.1 succeeds with empty | ⟨board, found, -⟩
        · refine (board.resolve_left nothing).resolve_left fun waiting => ?_
          rw [empty] at waiting
          cases waiting
        · exact ⟨board, found⟩
      obtain ⟨board, found⟩ := there
      rw [← chosen] at found
      cases unknown : session'.unknown? with
      | none => exact error_exportBoards.2 (.inr ⟨board, found, unknown⟩)
      | some request =>
        rw [execute, exportBoards_eq nothing]
        exact error_placing_of_unknown found unknown
  | _ => cases writes

end Pinout.Session
