import Pinout.Builtin
import Pinout.Catalog.Loading
import Pinout.Catalog.PinMap
import Pinout.Constraint.File
import Pinout.Constraint.Generation
import Pinout.Export.Basic
import Pinout.Session.Files
import Pinout.Session.Listing
import Pinout.Session.Log
import Pinout.Text.Quoted
import Pinout.Wing.Placements
import Pinout.Wing.Plugging

/-! # Sessions

A session holds a catalog, the boards chosen to convert from and to, moves, and wings that wait for
their board. It runs steps one after the other, each of which may change the session, write output,
add to the log, or fail; the first failure ends the run. A step that fails may have changed the
session: moves before the one that is wrong stay, and wings that waited are taken even if one of
them is not known.
-/

namespace Pinout.Session

open Constraint (Options PinFilter)

inductive SessionError where
  | load (error : LoadError)
  | catalog (error : CatalogError)
  | busRange (error : BusRangeError)
  | unknownBoard (name : String)
  | unknownWing (name : String)
  | noBoardSelected
  | invalidPins (file : String) (count : Nat)
deriving Repr, DecidableEq

namespace SessionError

def message : SessionError → String
  | load error => error.message
  | catalog error => error.message
  | busRange error => error.message
  | unknownBoard name => "Unknown board `" ++ name ++ "`"
  | unknownWing name => "Unknown wing `" ++ name ++ "`"
  | noBoardSelected => "No board selected"
  | invalidPins file count =>
    toString count ++ " invalid pin(s) in file '" ++ file ++ "'"

end SessionError

inductive Step where
  | loadDefinitions (path : String) (kind : BoardKind)
  | sourceBoard (name : String)
  | destinationBoard (name : String)
  | move (directive : String)
  | placeWing (directive : String)
  | transform (path : String)
  | validate (path : String)
  | generate (filter : String)
  | list (scope : ListScope)
  | exportBoards (names : List String) (format : Export.Format)
deriving Repr, DecidableEq

end Session

structure Session where
  catalog : Catalog := {}
  source : Option String := none
  destination : Option String := none
  moves : Moves := {}
  placements : Wing.Placements := {}
  options : Constraint.Options := {}
deriving Repr

namespace Session

structure Outcome where
  session : Session
  output : String := ""
  log : List LogEntry := []
  error : Option SessionError := none
deriving Repr

namespace Outcome

def changed (session : Session) : Outcome :=
  { session }

def written (session : Session) (output : String) : Outcome :=
  { session, output }

def failed (session : Session) (error : SessionError) : Outcome :=
  { session, error := some error }

def logging (entries : List LogEntry) (outcome : Outcome) : Outcome :=
  { outcome with log := entries ++ outcome.log }

end Outcome

def boardNamed (session : Session) (name : String) : Except SessionError BoardId :=
  match session.catalog.find? .board name with
  | some id => .ok id
  | none => .error (.unknownBoard name)

/-- The name of the board converted from; the other one, if only that is chosen. -/
def sourceName (session : Session) : Except SessionError String :=
  match session.source.or session.destination with
  | some name => .ok name
  | none => .error .noBoardSelected

def destinationName (session : Session) : Except SessionError String :=
  match session.destination.or session.source with
  | some name => .ok name
  | none => .error .noBoardSelected

def sourceBoard (session : Session) : Except SessionError BoardId := do
  session.boardNamed (← session.sourceName)

def destinationBoard (session : Session) : Except SessionError BoardId := do
  session.boardNamed (← session.destinationName)

/-- Adds the boards of a definition text. A fault in it is told, and is no failure. -/
def loadText (session : Session) (kind : BoardKind) (source : String) : Outcome :=
  let (catalog, result) := session.catalog.load kind source
  let session := { session with catalog }
  match result with
  | .ok summary =>
    { session
      log := summary.fault.toList.map fun fault => ⟨.critical, fault.rendered⟩ }
  | .error error =>
    { session
      log := [⟨.warning, "Cut cyclic inheritance at " ++ Text.quoteList error.names⟩]
      error := some (.catalog error) }

def withBuiltins : Session :=
  let session := (({} : Session).loadText .board Builtin.boards).session
  (session.loadText .wing Builtin.wings).session

/-- Plugs wings in, up to the first that is not known. -/
def plugAll (catalog : Catalog) (board : BoardId) :
    List Wing.Request → Catalog × Except SessionError Unit
  | [] => (catalog, .ok ())
  | request :: rest =>
    match catalog.find? .wing request.wing with
    | none => (catalog, .error (.unknownWing request.wing))
    | some wing => plugAll (Wing.plug catalog board wing request.position).1 board rest

/-- Plugs the wings that wait into a board. None of them waits any longer. -/
def applyPlacements (session : Session) (board : BoardId) :
    Session × Except SessionError Unit :=
  let (catalog, result) := plugAll session.catalog board session.placements.toRequests
  ({ session with catalog, placements := {} }, result)

/-- Lets a value that may be missing decide about the rest of a step. -/
def orFail {α : Type} (session : Session) (value : Except SessionError α) (rest : α → Outcome) :
    Outcome :=
  match value with
  | .ok value => rest value
  | .error error => .failed session error

def readText (files : Files) (path : String) : Except SessionError String :=
  (files.readText path).mapError .load

def transform (files : Files) (session : Session) (path : String) : Outcome :=
  orFail session session.sourceBoard fun source =>
  orFail session session.destinationBoard fun target =>
  orFail session (readText files path) fun text =>
  .written session <|
    Constraint.transform (session.catalog.pinMap source target session.moves) text

def validate (files : Files) (session : Session) (path : String) : Outcome :=
  orFail session session.sourceName fun name =>
  orFail session (session.boardNamed name) fun board =>
  orFail session (readText files path) fun text =>
  match Constraint.validate session.catalog board text with
  | [] =>
    .written session <|
      "All pins in file '" ++ path ++ "' are valid for the " ++ name ++ " board\n"
  | invalid =>
    .logging (invalid.map fun line => ⟨.critical, line.message⟩) <|
      .failed session (.invalidPins path invalid.length)

def generate (session : Session) (filter : String) : Outcome :=
  orFail session session.destinationBoard fun board =>
  let (session, applied) := session.applyPlacements board
  orFail session applied fun () =>
  let text := Constraint.generate session.catalog board (.parse filter) session.options
  orFail session (text.mapError .busRange) (.written session)

def exportChosen (session : Session) (names : List String) (format : Export.Format) : Outcome :=
  let chosen := Export.chosen session.catalog names
  let warnings : List LogEntry :=
    if chosen.isEmpty then
      [⟨.warning, "Nothing matched " ++ Text.quoteList names ++ ", exporting an empty list"⟩]
    else
      []
  .logging warnings <|
    .written session (Export.render format (chosen.map (.of session.catalog)))

def exportBoards (session : Session) (names : List String) (format : Export.Format) : Outcome :=
  if session.placements.isEmpty then
    session.exportChosen names format
  else
    orFail session session.destinationBoard fun board =>
    let (session, applied) := session.applyPlacements board
    orFail session applied fun () => session.exportChosen names format

/-- Adds to the wings that wait, and tells which ones are replaced. -/
def placeWing (session : Session) (directive : String) : Outcome :=
  let replacements := session.placements.replacements (Wing.requests directive)
  { session := { session with placements := session.placements.addDirective directive }
    log := replacements.map fun replacement => ⟨.warning, replacement.message⟩ }

def move (session : Session) (directive : String) : Outcome :=
  let (moves, result) := session.moves.addDirective directive
  let session := { session with moves }
  orFail session (result.mapError .busRange) fun () => .changed session

def execute (files : Files) (session : Session) : Step → Outcome
  | .loadDefinitions path kind =>
    orFail session (readText files path) fun text => session.loadText kind text
  | .sourceBoard name =>
    orFail session (session.boardNamed name) fun _ => .changed { session with source := some name }
  | .destinationBoard name =>
    orFail session (session.boardNamed name) fun _ =>
      .changed { session with destination := some name }
  | .move directive => session.move directive
  | .placeWing directive => session.placeWing directive
  | .transform path => transform files session path
  | .validate path => validate files session path
  | .generate filter => session.generate filter
  | .list scope => .written session (listing session.catalog scope).render
  | .exportBoards names format => session.exportBoards names format

def failureEntries (error : SessionError) : List LogEntry :=
  [⟨.critical, error.message⟩, ⟨.critical, "execution failed"⟩]

/-- Runs steps up to the first that fails. -/
def run (files : Files) (session : Session) : List Step → Outcome
  | [] => .changed session
  | step :: steps =>
    let outcome := execute files session step
    match outcome.error with
    | some error => { outcome with log := outcome.log ++ failureEntries error }
    | none =>
      let rest := run files outcome.session steps
      { rest with output := outcome.output ++ rest.output, log := outcome.log ++ rest.log }

end Session

end Pinout
