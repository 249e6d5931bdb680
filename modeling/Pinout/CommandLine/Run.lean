import Pinout.CommandLine.Arguments
import Pinout.Constraint.Profile
import Pinout.Session.Basic
import Pinout.Session.Directory

/-! # Running a command line

A command line is first made into a plan: layout options, taken from a profile and from the command
line, and the steps to run. Then the output file is created, empty at first, and only then the steps
read their files; so a file that is read and written at once is read empty, and a run that fails
leaves an empty file.
-/

namespace Pinout.CommandLine

open Session (Directory Files LogEntry Outcome Step)

structure Plan where
  options : Constraint.Options
  steps : List Step
  withBuiltins : Bool
  output : Option String

def profileOptions (files : Files) : Option String → Except String Constraint.Options
  | none => .ok {}
  | some path =>
    match files.readText path with
    | .error error => .error error.message
    | .ok text =>
      match Constraint.Options.ofProfile? text with
      | some options => .ok options
      | none => .error ("Invalid profile " ++ path)

def Arguments.options (arguments : Arguments) (profile : Constraint.Options) :
    Constraint.Options where
  sorted := profile.sorted || arguments.has .sort
  collapseColumns := profile.collapseColumns || arguments.has .collapseColumns
  excludeUnusedPins := profile.excludeUnusedPins || arguments.has .excludeUnusedPins
  spacesAroundEquals := profile.spacesAroundEquals || arguments.has .spacesAroundEquals

def Command.step : Command → Except String Step
  | .transform input => .ok (.transform input)
  | .validate input => .ok (.validate input)
  | .generate filter => .ok (.generate filter)
  | .list scope =>
    match Session.ListScope.parse scope with
    | .ok scope => .ok (.list scope)
    | .error error => .error error.message
  | .exportBoards names format =>
    match Export.Format.parse format with
    | .ok format => .ok (.exportBoards names format)
    | .error error => .error error.message

def Arguments.preparation (arguments : Arguments) : List Step :=
  (arguments.settings .boardFile).map (.loadDefinitions · .board) ++
    (arguments.settings .wingFile).map (.loadDefinitions · .wing) ++
    (arguments.value? .sourceBoard).toList.map .sourceBoard ++
    (arguments.value? .destinationBoard).toList.map .destinationBoard ++
    (arguments.settings .move).map .move ++
    (arguments.settings .placeWing).map .placeWing

def plan (files : Files) (arguments : Arguments) : Except String Plan := do
  let profile ← profileOptions files (arguments.value? .profile)
  let step ← arguments.command.step
  return {
    options := arguments.options profile
    steps := arguments.preparation ++ [step]
    withBuiltins := !arguments.has .noBuiltin
    output := arguments.value? .output }

def inputOf? : Step → Option String
  | .loadDefinitions path _ => some path
  | .transform path => some path
  | .validate path => some path
  | _ => none

def Plan.inputs (plan : Plan) : List String :=
  plan.steps.filterMap inputOf?

def Plan.run (plan : Plan) (files : Files) : Outcome :=
  let session : Session := if plan.withBuiltins then Session.withBuiltins else {}
  Session.run files { session with options := plan.options } plan.steps

/-- The level of detail of the log: a number, one if it is not given or is none. -/
def logLevel : Option String → Nat
  | none => 1
  | some text =>
    let digits := match Text.trim text.toList with
      | '+' :: cs => cs
      | cs => cs
    match BusRange.decimal? digits with
    | some level => if level < 1 <<< 64 then level else 1
    | none => 1

structure Report where
  exitCode : Nat
  output : String := ""
  errors : List String := []
  directory : Directory

def errorLine (message : String) : String :=
  "Error: " ++ message

def outcomeLines (level : Nat) (outcome : Outcome) : List String :=
  Session.shownLines level outcome.log ++
    outcome.error.toList.map fun error => errorLine error.message

def outcomeExitCode (outcome : Outcome) : Nat :=
  if outcome.error.isSome then 1 else 0

def cannotCreate (path : String) : String :=
  "Can't create " ++ path

def run (directory : Directory) (level : Nat) (arguments : List String) : Report :=
  match parse arguments with
  | .error _ => { exitCode := 2, directory }
  | .ok arguments =>
    match plan directory.files arguments with
    | .error message => { exitCode := 1, errors := [errorLine message], directory }
    | .ok plan =>
      match plan.output with
      | none =>
        let outcome := plan.run directory.files
        { exitCode := outcomeExitCode outcome, output := outcome.output,
          errors := outcomeLines level outcome, directory }
      | some path =>
        match directory.writePath? path .empty with
        | none => { exitCode := 1, errors := [errorLine (cannotCreate path)], directory }
        | some created =>
          let outcome := plan.run created.files
          { exitCode := outcomeExitCode outcome, errors := outcomeLines level outcome,
            directory := (created.writePath? path outcome.output.toUTF8).getD created }

end Pinout.CommandLine
