import Pinout.Proofs.Session.Thinning

/-! # Writing pins again

A step that writes pins plugs in all wings that wait, and then none does. Steps that only ask for
output leave a session alone in which no wing waits, whatever comes of them, so the same pins are
written in the same way as often as they are asked for.
-/

namespace Pinout.Session

def Step.asksForOutput : Step → Bool
  | .transform _ | .validate _ | .generate _ | .list _ | .exportBoards _ _ => true
  | _ => false

/-- The session behind steps that are run one by one, each with the files there are by then, and
whether or not the steps before it have failed. -/
def runEach (session : Session) : List (Files × Step) → Session
  | [] => session
  | (files, step) :: steps => runEach (run files session [step]).session steps

variable {session : Session} {files : Files} {step : Step} {filter : String} {board : BoardId}

theorem session_run_singleton (files : Files) (session : Session) (step : Step) :
    (run files session [step]).session = (execute files session step).session := by
  rw [run]
  split <;> rfl

theorem output_run_singleton (files : Files) (session : Session) (step : Step) :
    (run files session [step]).output = (execute files session step).output := by
  rw [run]
  split
  · rfl
  · exact String.append_empty

theorem withPlaced_of_isEmpty (nothing : session.placements.isEmpty = true) (board : BoardId) :
    session.withPlaced board = session := by
  obtain ⟨catalog, source, destination, moves, ⟨entries⟩, options⟩ := session
  cases List.isEmpty_iff.1 nothing
  rfl

/-- Asking for output leaves the session alone. -/
theorem session_execute_of_isEmpty (nothing : session.placements.isEmpty = true)
    (asks : step.asksForOutput = true) (files : Files) :
    (execute files session step).session = session := by
  have same (board : BoardId) : (session.applyPlacements board).1 = session := by
    rw [applyPlacements_fst, withPlaced_of_isEmpty nothing]
  cases step with
  | list scope => rfl
  | transform path =>
    exact orFail_keeps (· = session) rfl fun _ => orFail_keeps (· = session) rfl fun _ =>
      orFail_keeps (· = session) rfl fun _ => rfl
  | validate path =>
    refine orFail_keeps (· = session) rfl fun _ => orFail_keeps (· = session) rfl fun _ =>
      orFail_keeps (· = session) rfl fun _ => ?_
    split <;> rfl
  | generate filter =>
    exact orFail_keeps (· = session) rfl fun board => orFail_keeps (· = session) (same board)
      fun _ => orFail_keeps (· = session) (same board) fun _ => same board
  | exportBoards names format =>
    rw [execute, exportBoards, if_pos nothing]
    rfl
  | _ => cases asks

theorem runEach_of_isEmpty (nothing : session.placements.isEmpty = true)
    {steps : List (Files × Step)} (asks : ∀ step ∈ steps, step.2.asksForOutput = true) :
    runEach session steps = session := by
  induction steps with
  | nil => rfl
  | cons step steps ih =>
    obtain ⟨files, step⟩ := step
    obtain ⟨here, later⟩ := List.forall_mem_cons.1 asks
    rw [runEach, session_run_singleton, session_execute_of_isEmpty nothing here]
    exact ih later

theorem applyPlacements_of_known (known : session.unknown? = none) (board : BoardId) :
    session.applyPlacements board = (session.withPlaced board, .ok ()) := by
  rw [← applyPlacements_fst]
  exact Prod.ext rfl (by rw [applyPlacements_snd, known])

theorem generate_of_isEmpty {text : String} (nothing : session.placements.isEmpty = true)
    (found : session.destinationBoard = .ok board)
    (written : Constraint.generate session.catalog board (.parse filter) session.options =
      .ok text) :
    session.generate filter = .written session text := by
  have applied := applyPlacements_of_known (unknown?_of_isEmpty nothing) board
  rw [withPlaced_of_isEmpty nothing] at applied
  simp only [generate, found, orFail, applied, written]
  rfl

/-- What a successful step that writes pins has written, and the session behind it. -/
theorem generate_of_succeeds (succeeds : (session.generate filter).error = none) :
    ∃ board text, session.destinationBoard = .ok board ∧
      Constraint.generate (session.withPlaced board).catalog board (.parse filter)
        session.options = .ok text ∧
      session.generate filter = .written (session.withPlaced board) text := by
  obtain ⟨board, found, known, -⟩ := error_generate.1 succeeds
  have applied := applyPlacements_of_known known board
  simp only [generate, found, orFail, applied] at succeeds ⊢
  cases written : Constraint.generate (session.withPlaced board).catalog board (.parse filter)
      (session.withPlaced board).options with
  | ok text => exact ⟨board, text, rfl, written, rfl⟩
  | error error =>
    rw [written] at succeeds
    cases succeeds

/-- Once pins were written, no wing waits. Whatever output is asked for from then on, and whatever
comes of it, the session stays as it is, and writing the same pins gives the same text. -/
theorem generate_again (files : Files) (session : Session) (filter : String)
    (succeeds : (run files session [.generate filter]).error = none)
    (steps : List (Files × Step)) (asks : ∀ step ∈ steps, step.2.asksForOutput = true) :
    let after := (run files session [.generate filter]).session
    let later := runEach after steps
    after.placements = {} ∧ later = after ∧
      ∀ files', (run files' later [.generate filter]).error = none ∧
        (run files' later [.generate filter]).output =
          (run files session [.generate filter]).output := by
  intro after later
  rw [error_run_singleton] at succeeds
  obtain ⟨board, text, found, written, outcome⟩ := generate_of_succeeds succeeds
  have placed : after = session.withPlaced board := by
    rw [show after = _ from session_run_singleton .., execute, outcome]
    rfl
  have nothing : after.placements.isEmpty = true := by rw [placed]; rfl
  have same : later = after := runEach_of_isEmpty nothing asks
  refine ⟨by rw [placed]; rfl, same, fun files' => ?_⟩
  have found' : after.destinationBoard = .ok board := by
    rw [placed, destinationBoard_congr (wired_withPlaced session board), found]
  have again : after.generate filter = .written after text :=
    generate_of_isEmpty nothing found' (placed ▸ written)
  rw [same, error_run_singleton, output_run_singleton, output_run_singleton]
  simp only [execute, again, outcome]
  exact ⟨rfl, rfl⟩

theorem generate_again_placed :
    let session := { prepared with placements := Wing.Placements.addDirective {} "LED->A" }
    let text := "NET LED0 LOC=\"P1\"  # A0\nNET A(1) LOC=\"P2\"  # A1\n"
    let after := (run noFiles session [.generate "all"]).session
    let steps : List (Files × Step) :=
      [(noFiles, .exportBoards ["One"] .json), (noFiles, .transform "pins.ucf"),
        (noFiles, .generate "A[0"), (pinsFile, .validate "pins.ucf"), (noFiles, .list .all)]
    (run noFiles session [.generate "all"]).error = none ∧
      (∀ step ∈ steps, step.2.asksForOutput = true) ∧
      (run noFiles after [.transform "pins.ucf"]).error ≠ none ∧
      (run noFiles after [.generate "A[0"]).error ≠ none ∧
      (runEach after steps).placements = {} ∧
      (run noFiles (runEach after steps) [.generate "all"]).error = none ∧
      (run noFiles (runEach after steps) [.generate "all"]).output = text := by
  intro session text after steps
  have succeeds : (run noFiles session [.generate "all"]).error = none := by decide +kernel
  have asks : ∀ step ∈ steps, step.2.asksForOutput = true := by decide +kernel
  have output : (run noFiles session [.generate "all"]).output = text := by decide +kernel
  obtain ⟨taken, same, again⟩ := generate_again noFiles session "all" succeeds steps asks
  refine ⟨succeeds, asks, by decide +kernel, by decide +kernel, ?_, (again noFiles).1,
    (again noFiles).2.trans output⟩
  exact (congrArg placements same).trans taken

end Pinout.Session
