import Pinout.CommandLine.Run
import Pinout.Proofs.Session.Repeating
import Pinout.Proofs.Session.Stopping

/-! # The output file

The output file is made after the profile has been read and before the first step is run. So a
command line that is refused leaves all files as they are, and the steps read each file as it was,
but for the output file, which they find empty. Of the steps only the last one writes, and it writes
nothing if it fails; then an empty output file stays behind.
-/

namespace Pinout

namespace Session

/-! ## Writing to a path -/

namespace Directory

variable {directory : Directory} {path : String} {content : ByteArray}

/-- The name of the file that a path leads to, be it there or not. -/
def fileAt? (directory : Directory) (path : String) : Option String :=
  match directory.locate path with
  | .ok (.file name) => some name
  | _ => none

def content? (directory : Directory) (path : String) : Option ByteArray :=
  match directory.open? path with
  | .ok content => content
  | .error _ => none

theorem content?_eq_some_iff :
    directory.content? path = some content ↔ directory.open? path = .ok (some content) := by
  unfold content?
  cases directory.open? path <;> simp

theorem content?_eq (directory : Directory) (path : String) :
    directory.content? path = (directory.fileAt? path).bind directory.find? := by
  unfold content? open? fileAt?
  rcases directory.locate path with failure | _ | name
  · rfl
  · rfl
  · cases found : directory.find? name <;> simp [found]

theorem writePath?_eq (directory : Directory) (path : String) (content : ByteArray) :
    directory.writePath? path content =
      (directory.fileAt? path).map (directory.write · content) := by
  unfold writePath? fileAt?
  rcases directory.locate path with failure | _ | name <;> rfl

theorem find?_filter_ne (entries : List (String × ByteArray)) (name other : String) :
    (entries.filter (·.1 ≠ name)).find? (·.1 = other) =
      if other = name then none else entries.find? (·.1 = other) := by
  split
  case isTrue same => simp [same, List.find?_eq_none]
  case isFalse different =>
    rw [List.find?_filter]
    congr 1
    funext entry
    by_cases here : entry.1 = other <;> simp [here, different]

theorem find?_write (directory : Directory) (name other : String) (content : ByteArray) :
    (directory.write name content).find? other =
      if other = name then some content else directory.find? other := by
  rw [find?, write, List.find?_append, find?_filter_ne]
  by_cases same : other = name
  · simp [same]
  · simp [same, Ne.symm same, find?]

theorem follow_write_toOption (directory : Directory) (name : String) (content : ByteArray)
    (base : String) (parts : List (List Char)) :
    ((directory.write name content).follow base parts).toOption =
      (directory.follow base parts).toOption := by
  induction parts generalizing base with
  | nil => rfl
  | cons part parts ih =>
    simp only [follow]
    split_ifs <;> first | exact ih _ | rfl

theorem locate_write_toOption (directory : Directory) (name path : String) (content : ByteArray) :
    ((directory.write name content).locate path).toOption = (directory.locate path).toOption := by
  simp only [locate]
  split_ifs <;> first | exact follow_write_toOption .. | rfl

/-- A file that is written does not change where paths lead. -/
@[simp] theorem fileAt?_write (directory : Directory) (name path : String) (content : ByteArray) :
    (directory.write name content).fileAt? path = directory.fileAt? path := by
  have same := directory.locate_write_toOption name path content
  unfold fileAt?
  cases before : directory.locate path <;>
    cases after : (directory.write name content).locate path <;>
      simp_all [Except.toOption]

theorem content?_write (directory : Directory) (name path : String) (content : ByteArray) :
    (directory.write name content).content? path =
      if directory.fileAt? path = some name then some content else directory.content? path := by
  simp only [content?_eq, fileAt?_write]
  cases directory.fileAt? path <;> simp [find?_write]

end Directory

/-! ## Steps that come before a command -/

variable {session : Session} {files : Files} {step : Step} {steps : List Step}

theorem output_orFail_of_empty {α : Type} {value : Except SessionError α} {rest : α → Outcome}
    (later : ∀ a, (rest a).output = "") : (orFail session value rest).output = "" := by
  cases value with
  | ok a => exact later a
  | error error => rfl

theorem output_loadText (session : Session) (kind : BoardKind) (source : String) :
    (session.loadText kind source).output = "" := by
  unfold loadText
  split
  split <;> rfl

theorem output_execute_of_prepares (prepares : step.asksForOutput = false) :
    (execute files session step).output = "" := by
  cases step with
  | loadDefinitions path kind =>
    exact output_orFail_of_empty fun text => output_loadText session kind text
  | sourceBoard name => exact output_orFail_of_empty fun _ => rfl
  | destinationBoard name => exact output_orFail_of_empty fun _ => rfl
  | move directive => exact output_orFail_of_empty fun _ => rfl
  | placeWing directive => rfl
  | transform | validate | generate | list | exportBoards => cases prepares

theorem output_run_cons_of_failed (failed : (execute files session step).error ≠ none)
    (steps : List Step) : (run files session (step :: steps)).output = "" := by
  rw [run_cons_of_failed failed, output_run_singleton]
  exact quiet_execute files session step failed

/-- What a run writes if all of its steps but the last only prepare that one. -/
theorem run_of_prepares (files : Files) (session : Session)
    (prepare : ∀ step ∈ steps, step.asksForOutput = false) (last : Step) :
    (run files session (steps ++ [last])).output = "" ∨
      (run files session (steps ++ [last])).error = none ∧
        ∃ before, (run files session (steps ++ [last])).output =
          (execute files before last).output := by
  induction steps generalizing session with
  | nil =>
    by_cases succeeds : (execute files session last).error = none
    · exact .inr ⟨(run_cons_of_succeeds succeeds []).1, session, output_run_singleton ..⟩
    · exact .inl (output_run_cons_of_failed succeeds [])
  | cons step steps ih =>
    obtain ⟨prepares, others⟩ := List.forall_mem_cons.1 prepare
    rw [List.cons_append]
    by_cases succeeds : (execute files session step).error = none
    · -- the step has written nothing, so all comes from those behind it
      rw [output_run_cons_of_succeeds succeeds, (run_cons_of_succeeds succeeds _).1,
        output_execute_of_prepares prepares, String.empty_append]
      exact ih _ others
    · exact .inl (output_run_cons_of_failed succeeds _)

/-- No text but the empty one is in an empty file, compressed or not. -/
theorem readText_of_empty {path text : String} (empty : files.open? path = .ok (some .empty))
    (read : files.readText path = .ok text) : text = "" := by
  have noStream : Gzip.decompress [] = .error .unexpectedEnd := by decide +kernel
  have noText : decodeText .empty = .ok "" := by decide +kernel
  by_cases compressed : isCompressed path
  · simp [Files.readText, empty, textOf, compressed, noStream] at read
  · simpa [Files.readText, empty, textOf, compressed, noText, eq_comm] using read

/-- Rewriting an empty file gives an empty text, or fails. -/
theorem output_transform_of_empty {path : String} (empty : files.open? path = .ok (some .empty)) :
    (execute files session (.transform path)).output = "" := by
  refine output_orFail_of_empty fun source => output_orFail_of_empty fun target => ?_
  unfold orFail readText
  cases read : files.readText path with
  | error error => rfl
  | ok text =>
    rw [readText_of_empty empty read]
    rfl

end Session

namespace CommandLine

open Session (Directory Files Outcome Step)

variable {directory found : Directory} {arguments : Arguments} {path : String} {plan : Plan}

theorem asksForOutput_of_mem_preparation {step : Step} (member : step ∈ arguments.preparation) :
    step.asksForOutput = false := by
  simp only [Arguments.preparation, List.mem_append, List.mem_map] at member
  rcases member with ((((⟨_, _, rfl⟩ | ⟨_, _, rfl⟩) | ⟨_, _, rfl⟩) | ⟨_, _, rfl⟩) | ⟨_, _, rfl⟩) |
    ⟨_, _, rfl⟩ <;> rfl

theorem plan_eq_ok {files : Files} (planned : CommandLine.plan files arguments = .ok plan) :
    plan.output = arguments.value? .output ∧
      ∃ last, arguments.command.step = .ok last ∧ plan.steps = arguments.preparation ++ [last] := by
  unfold CommandLine.plan at planned
  cases profile : profileOptions files (arguments.value? .profile) with
  | error message => simp [profile, bind, Except.bind] at planned
  | ok options =>
    cases command : arguments.command.step with
    | error message => simp [profile, command, bind, Except.bind] at planned
    | ok last =>
      simp only [profile, command, bind, Except.bind, pure, Except.pure, Except.ok.injEq] at planned
      subst planned
      exact ⟨rfl, last, rfl, rfl⟩

/-- A planned run writes nothing, or what the step of the command writes. -/
theorem output_run_of_plan {before : Files}
    (planned : CommandLine.plan before arguments = .ok plan) (files : Files) :
    (plan.run files).output = "" ∨
      (plan.run files).error = none ∧ ∃ last session, arguments.command.step = .ok last ∧
        (plan.run files).output = (Session.execute files session last).output := by
  obtain ⟨-, last, command, steps⟩ := plan_eq_ok planned
  unfold Plan.run
  rw [steps]
  obtain nothing | ⟨succeeds, session, output⟩ := Session.run_of_prepares files _
    (fun step member => asksForOutput_of_mem_preparation member) last
  · exact .inl nothing
  · exact .inr ⟨succeeds, last, session, command, output⟩

/-! ## Runs with an output file -/

/-- The steps of a command line are run: it has a plan, made from the files as they are, and its
output file can be made. The steps then find the directory `found`. -/
structure Begins (directory : Directory) (arguments : Arguments) (path : String) (plan : Plan)
    (found : Directory) : Prop where
  planned : CommandLine.plan directory.files arguments = .ok plan
  created : directory.writePath? path .empty = some found

namespace Begins

theorem exists_name (begins : Begins directory arguments path plan found) :
    ∃ name, directory.fileAt? path = some name ∧ found = directory.write name .empty := by
  have created := begins.created
  rw [Directory.writePath?_eq, Option.map_eq_some_iff] at created
  obtain ⟨name, here, rfl⟩ := created
  exact ⟨name, here, rfl⟩

/-- What the steps find at a path. -/
theorem content?_found (begins : Begins directory arguments path plan found) (other : String) :
    found.content? other =
      if directory.fileAt? other = directory.fileAt? path then some .empty
      else directory.content? other := by
  obtain ⟨name, here, rfl⟩ := begins.exists_name
  rw [Directory.content?_write, here]

theorem run_eq (begins : Begins directory arguments path plan found) {line : List String}
    (parsed : parse line = .ok arguments) (given : arguments.value? .output = some path)
    (level : Nat) :
    run directory level line = {
      exitCode := outcomeExitCode (plan.run found.files)
      errors := outcomeLines level (plan.run found.files)
      directory := (found.writePath? path (plan.run found.files).output.toUTF8).getD found } := by
  have output : plan.output = some path := (plan_eq_ok begins.planned).1.trans given
  simp only [run, parsed, begins.planned, output, begins.created]

/-- What a run leaves at a path. -/
theorem content?_run (begins : Begins directory arguments path plan found) {line : List String}
    (parsed : parse line = .ok arguments) (given : arguments.value? .output = some path)
    (level : Nat) (other : String) :
    (run directory level line).directory.content? other =
      if directory.fileAt? other = directory.fileAt? path then
        some (plan.run found.files).output.toUTF8
      else directory.content? other := by
  rw [begins.run_eq parsed given]
  obtain ⟨name, here, rfl⟩ := begins.exists_name
  -- the file has been written twice, under the same name since paths lead where they did
  simp only [Directory.writePath?_eq, Directory.fileAt?_write, here, Option.map_some,
    Option.getD_some, Directory.content?_write]
  split_ifs <;> rfl

end Begins

theorem run_of_not_begins {line : List String} (parsed : parse line = .ok arguments)
    (given : arguments.value? .output = some path)
    (refused : ¬∃ plan found, Begins directory arguments path plan found) (level : Nat) :
    (run directory level line).exitCode = 1 ∧
      (run directory level line).directory = directory := by
  simp only [run, parsed]
  cases planned : CommandLine.plan directory.files arguments with
  | error message => exact ⟨rfl, rfl⟩
  | ok plan =>
    have output : plan.output = some path := (plan_eq_ok planned).1.trans given
    simp only [output]
    cases created : directory.writePath? path .empty with
    | none => exact ⟨rfl, rfl⟩
    | some found => exact absurd ⟨plan, found, planned, created⟩ refused

theorem outcomeExitCode_eq_one_iff {outcome : Outcome} :
    outcomeExitCode outcome = 1 ↔ outcome.error ≠ none := by
  cases failed : outcome.error <;> simp [outcomeExitCode, failed]

/-- What is in the files after a run with an output file. A command line that is refused leaves them
as they are. Otherwise the steps find an empty file at every path that leads to the output file, and
at all others what was there before, which also stays there. After them the output file is empty if
a step has failed, and has their output in it if none has. So a file that is rewritten in place is
empty afterwards, whatever comes of the run. -/
theorem files_after_run (directory : Directory) (level : Nat) (line : List String)
    (arguments : Arguments) (path : String) (parsed : parse line = .ok arguments)
    (given : arguments.value? .output = some path) :
    let report := run directory level line
    let IsOutput other := directory.fileAt? other = directory.fileAt? path
    ((¬∃ plan found, Begins directory arguments path plan found) →
      report.exitCode = 1 ∧ report.directory = directory) ∧
    ∀ plan found, Begins directory arguments path plan found →
      (∀ other, IsOutput other → found.content? other = some .empty) ∧
      (∀ other, ¬IsOutput other → found.content? other = directory.content? other ∧
        report.directory.content? other = directory.content? other) ∧
      (report.exitCode = 1 ↔ (plan.run found.files).error ≠ none) ∧
      (report.exitCode = 1 → report.directory.content? path = some .empty) ∧
      (report.exitCode ≠ 1 →
        report.directory.content? path = some (plan.run found.files).output.toUTF8) ∧
      ∀ input, arguments.command = .transform input → IsOutput input →
        report.directory.content? path = some .empty := by
  intro report IsOutput
  refine ⟨fun refused => run_of_not_begins parsed given refused level, ?_⟩
  intro plan found begins
  have exitCode : report.exitCode = 1 ↔ (plan.run found.files).error ≠ none := by
    rw [← outcomeExitCode_eq_one_iff]
    exact iff_of_eq (congrArg (·.exitCode = 1) (begins.run_eq parsed given level))
  have written : report.directory.content? path = some (plan.run found.files).output.toUTF8 :=
    (begins.content?_run parsed given level path).trans (if_pos rfl)
  have emptied (nothing : (plan.run found.files).output = "") :
      report.directory.content? path = some .empty := by
    rw [written, nothing]
    rfl
  have output := output_run_of_plan begins.planned found.files
  refine ⟨fun other same => ?_, fun other apart => ⟨?_, ?_⟩, exitCode, fun failed => ?_,
    fun _ => written, fun input command same => ?_⟩
  · rw [begins.content?_found, if_pos same]
  · rw [begins.content?_found, if_neg apart]
  · rw [begins.content?_run parsed given, if_neg apart]
  · obtain nothing | ⟨succeeds, -⟩ := output
    · exact emptied nothing
    · exact absurd succeeds (exitCode.1 failed)
  · obtain nothing | ⟨-, last, session, step, output⟩ := output
    · exact emptied nothing
    · -- the last step has rewritten the file that was made empty
      rw [command] at step
      cases step
      have empty : found.content? input = some .empty := by rw [begins.content?_found, if_pos same]
      exact emptied (output.trans
        (Session.output_transform_of_empty (Directory.content?_eq_some_iff.1 empty)))

def sample : Directory :=
  ⟨[("boards.txt", "One { A : P1 }".toUTF8), ("pins.ucf", "NET A LOC=\"P1\";\n".toUTF8)]⟩

def rewriting : List String :=
  ["--no-builtin", "--board-file", "boards.txt", "-s", "One", "transform", "pins.ucf"]

theorem files_after_rewriting_in_place :
    let line := rewriting ++ ["-o", "pins.ucf"]
    ∃ arguments plan found, parse line = .ok arguments ∧
      arguments.value? .output = some "pins.ucf" ∧
      Begins sample arguments "pins.ucf" plan found ∧
      found.content? "./pins.ucf" = some .empty ∧
      found.content? "boards.txt" = some "One { A : P1 }".toUTF8 ∧
      (run sample 1 line).exitCode = 0 ∧
      (run sample 1 line).directory.content? "pins.ucf" = some .empty := by
  intro line
  obtain ⟨arguments, plan, found, parsed, given, command, begins⟩ :
      ∃ arguments plan found, parse line = .ok arguments ∧
        arguments.value? .output = some "pins.ucf" ∧ arguments.command = .transform "pins.ucf" ∧
        Begins sample arguments "pins.ucf" plan found :=
    ⟨_, _, _, rfl, rfl, rfl, rfl, rfl⟩
  obtain ⟨-, started⟩ := files_after_run sample 1 line arguments "pins.ucf" parsed given
  obtain ⟨empty, others, -, -, -, inPlace⟩ := started plan found begins
  have same : sample.fileAt? "./pins.ucf" = sample.fileAt? "pins.ucf" := by decide +kernel
  have apart : sample.fileAt? "boards.txt" ≠ sample.fileAt? "pins.ucf" := by decide +kernel
  have boards : sample.content? "boards.txt" = some "One { A : P1 }".toUTF8 := by decide +kernel
  exact ⟨arguments, plan, found, parsed, given, begins, empty _ same,
    (others _ apart).1.trans boards, by decide +kernel, inPlace _ command rfl⟩

/-- A run that fails, because no board is chosen, leaves its output file empty; and a file that is
rewritten in place does not get what is written elsewhere. -/
theorem files_are_lost :
    let failing := run sample 1 ["--no-builtin", "-o", "pins.ucf", "generate"]
    let elsewhere := run sample 1 rewriting
    let inPlace := run sample 1 (rewriting ++ ["-o", "pins.ucf"])
    sample.content? "pins.ucf" = some "NET A LOC=\"P1\";\n".toUTF8 ∧
      failing.exitCode = 1 ∧ failing.directory.content? "pins.ucf" = some .empty ∧
      elsewhere.exitCode = 0 ∧ elsewhere.output = "NET A LOC=\"P1\";\n" ∧
      inPlace.exitCode = 0 ∧ inPlace.directory.content? "pins.ucf" = some .empty := by
  decide +kernel

end CommandLine

end Pinout
