import Pinout.CommandLine.Run

/-! # The command line tool

Reads the files that a command line names, and writes what its run leaves behind.
-/

namespace Pinout.CommandLine

open Session (Files OpenFailure)

def openPath (path : String) : IO (Except OpenFailure (Option ByteArray)) := do
  try
    return .ok (some (← IO.FS.readBinFile path))
  catch error =>
    match error with
    | .inappropriateType _ 21 _ => return .ok none
    | .inappropriateType .. => return .error .notDirectory
    | .invalidArgument _ 22 _ => return .error .zeroInName
    | .invalidArgument .. => return .error .nameTooLong
    | _ => return .error .notFound

def snapshot (paths : List String) : IO Files := do
  let found ← paths.mapM fun path => do return (path, ← openPath path)
  return ⟨fun path => (found.find? (·.1 = path)).elim (.error .notFound) (·.2)⟩

def createOutput (path : String) : IO Bool := do
  try
    IO.FS.writeFile path ""
    return true
  catch _ =>
    return false

def runPlan (plan : Plan) : IO UInt32 := do
  let level := logLevel (← IO.getEnv "PINCONV_LOG_LEVEL")
  let outcome := plan.run (← snapshot plan.inputs)
  match plan.output with
  | some path => IO.FS.writeFile path outcome.output
  | none => IO.print outcome.output
  (outcomeLines level outcome).forM (IO.eprintln ·)
  return (outcomeExitCode outcome).toUInt32

def refuse (message : String) (exitCode : UInt32) : IO UInt32 := do
  IO.eprintln message
  return exitCode

def runMain (arguments : List String) : IO UInt32 := do
  match parse arguments with
  | .error error => refuse error.message 2
  | .ok arguments =>
    let profiles ← snapshot (arguments.value? .profile).toList
    match plan profiles arguments with
    | .error message => refuse (errorLine message) 1
    | .ok plan =>
      match plan.output with
      | none => runPlan plan
      | some path =>
        if ← createOutput path then runPlan plan
        else refuse (errorLine (cannotCreate path)) 1

end Pinout.CommandLine

def main (arguments : List String) : IO UInt32 :=
  Pinout.CommandLine.runMain arguments
