import Pinout.Proofs.Session.Thinning

/-! # Runs that stop

A step does all that can fail before it writes, so a step that fails writes nothing. A run stops at
the first step that fails: it has written what the steps before that one write, it leaves the
session of the failed step, and whatever would have come behind makes no difference.
-/

namespace Pinout.Session

def Outcome.Quiet (outcome : Outcome) : Prop :=
  outcome.error ≠ none → outcome.output = ""

variable {session : Session} {files : Files} {step : Step} {steps : List Step}

theorem Outcome.Quiet.of_error {outcome : Outcome} (succeeds : outcome.error = none) :
    outcome.Quiet :=
  fun failed => absurd succeeds failed

theorem quiet_orFail {α : Type} {value : Except SessionError α} {rest : α → Outcome}
    (later : ∀ a, (rest a).Quiet) : (orFail session value rest).Quiet := by
  cases value with
  | ok a => exact later a
  | error error => exact fun _ => rfl

theorem quiet_loadText (session : Session) (kind : BoardKind) (source : String) :
    (session.loadText kind source).Quiet := by
  unfold loadText
  split
  split <;> exact fun _ => rfl

theorem quiet_validate (files : Files) (session : Session) (path : String) :
    (validate files session path).Quiet := by
  refine quiet_orFail fun name => quiet_orFail fun board => quiet_orFail fun text => ?_
  split
  · exact .of_error rfl
  · exact fun _ => rfl

theorem quiet_exportBoards (session : Session) (names : List String) (format : Export.Format) :
    (session.exportBoards names format).Quiet := by
  unfold exportBoards
  split
  · exact .of_error rfl
  · exact quiet_orFail fun board => quiet_orFail fun _ => .of_error rfl

/-- A step that fails writes nothing. -/
theorem quiet_execute (files : Files) (session : Session) (step : Step) :
    (execute files session step).Quiet := by
  cases step with
  | loadDefinitions path kind => exact quiet_orFail fun text => quiet_loadText session kind text
  | sourceBoard name => exact quiet_orFail fun _ _ => rfl
  | destinationBoard name => exact quiet_orFail fun _ _ => rfl
  | move directive => exact quiet_orFail fun _ _ => rfl
  | placeWing directive => exact fun _ => rfl
  | transform path =>
    exact quiet_orFail fun source => quiet_orFail fun target => quiet_orFail fun text =>
      .of_error rfl
  | validate path => exact quiet_validate files session path
  | generate filter =>
    exact quiet_orFail fun board => quiet_orFail fun _ => quiet_orFail fun text =>
      .of_error rfl
  | list scope => exact .of_error rfl
  | exportBoards names format => exact quiet_exportBoards session names format

def outcomes (files : Files) (session : Session) : List Step → List Outcome
  | [] => []
  | step :: steps =>
    let outcome := execute files session step
    outcome :: outcomes files outcome.session steps

theorem quiet_of_mem_outcomes {outcome : Outcome}
    (member : outcome ∈ outcomes files session steps) : outcome.Quiet := by
  induction steps generalizing session with
  | nil => cases member
  | cons step steps ih =>
    rcases List.mem_cons.1 member with rfl | later
    · exact quiet_execute files session step
    · exact ih later

theorem run_cons_of_failed (failed : (execute files session step).error ≠ none)
    (steps : List Step) : run files session (step :: steps) = run files session [step] := by
  obtain ⟨error, failed⟩ := Option.ne_none_iff_exists'.1 failed
  simp only [run, failed]

theorem output_run_cons_of_succeeds (succeeds : (execute files session step).error = none)
    (steps : List Step) :
    (run files session (step :: steps)).output =
      (execute files session step).output ++
        (run files (execute files session step).session steps).output := by
  simp only [run, succeeds]

theorem run_cons_congr {more : List Step}
    (same : run files (execute files session step).session steps =
      run files (execute files session step).session more) :
    run files session (step :: steps) = run files session (step :: more) := by
  simp only [run, same]

/-- A run up to its first failure. The induction is on the steps: the session in which the others
are run is the one that the first step leaves. -/
theorem run_of_failed (files : Files) (session : Session) (steps : List Step) (i : Nat)
    (failing : Outcome) (here : (outcomes files session steps)[i]? = some failing)
    (failed : failing.error ≠ none)
    (before : ∀ outcome ∈ (outcomes files session steps).take i, outcome.error = none) :
    (run files session steps).error = failing.error ∧
      (run files session steps).session = failing.session ∧
      (run files session steps).output =
        String.join (((outcomes files session steps).take i).map (·.output)) ++ failing.output ∧
      ∀ later, run files session (steps.take (i + 1) ++ later) = run files session steps := by
  induction steps generalizing session i with
  | nil => cases here
  | cons step steps ih =>
    cases i with
    | zero =>
      cases here
      have stops := run_cons_of_failed failed
      obtain ⟨error, failed⟩ := Option.ne_none_iff_exists'.1 failed
      simp [stops, run, failed]
    | succ i =>
      obtain ⟨succeeds, before⟩ := List.forall_mem_cons.1 before
      obtain ⟨error, after, output, same⟩ := ih _ i here before
      obtain ⟨error', after'⟩ := run_cons_of_succeeds succeeds steps
      refine ⟨error'.trans error, after'.trans after, ?_, fun later => run_cons_congr (same later)⟩
      rw [output_run_cons_of_succeeds succeeds, output, ← String.append_assoc]
      simp [outcomes]

/-- If a step of a list is the first to fail, the run fails like it. What is written is what the
steps before it write, one behind the other; the failed step writes nothing; and the session, the
output and all else that comes of the run are the same with any other steps behind that one. -/
theorem run_stops_at_failure (files : Files) (session : Session) (steps : List Step) (i : Nat)
    (failing : Outcome) (here : (outcomes files session steps)[i]? = some failing)
    (failed : failing.error ≠ none)
    (before : ∀ outcome ∈ (outcomes files session steps).take i, outcome.error = none) :
    let outcome := run files session steps
    outcome.error = failing.error ∧
      outcome.output = String.join (((outcomes files session steps).take i).map (·.output)) ∧
      failing.output = "" ∧ outcome.session = failing.session ∧
      ∀ later, run files session (steps.take (i + 1) ++ later) = outcome := by
  intro outcome
  obtain ⟨error, after, output, same⟩ :=
    run_of_failed files session steps i failing here failed before
  have nothing : failing.output = "" := quiet_of_mem_outcomes (List.mem_of_getElem? here) failed
  rw [nothing, String.append_empty] at output
  exact ⟨error, output, nothing, after, same⟩

theorem run_stops_at_failure_unknown :
    let steps : List Step :=
      [.transform "pins.ucf", .placeWing "LED->A;Nope->AH", .validate "pins.ucf", .generate "all",
        .exportBoards [] .json]
    let all := outcomes pinsFile prepared steps
    let failing := execute pinsFile { stranded with catalog := prepared.catalog } (.generate "all")
    let text := "NET A0 LOC=\"P1\";\nAll pins in file 'pins.ucf' are valid for the One board\n"
    all[3]? = some failing ∧ failing.error = some (.unknownWing "Nope") ∧
      (∀ outcome ∈ all.take 3, outcome.error = none) ∧
      (run pinsFile prepared steps).error = some (.unknownWing "Nope") ∧
      (run pinsFile prepared steps).output = text ∧
      ∀ later, run pinsFile prepared (steps.take 4 ++ later) = run pinsFile prepared steps := by
  intro steps all failing text
  have here : all[3]? = some failing := rfl
  have failed : failing.error = some (.unknownWing "Nope") := by decide +kernel
  have before : ∀ outcome ∈ all.take 3, outcome.error = none := by decide +kernel
  have written : String.join ((all.take 3).map (·.output)) = text := by decide +kernel
  obtain ⟨error, output, -, -, same⟩ :=
    run_stops_at_failure pinsFile prepared steps 3 failing here (by rw [failed]; nofun) before
  exact ⟨here, failed, before, error.trans failed, output.trans written, same⟩

end Pinout.Session
