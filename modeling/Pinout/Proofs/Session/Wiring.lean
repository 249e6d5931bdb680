import Pinout.Proofs.Catalog.Loading
import Pinout.Proofs.Session.Failure

/-! # Steps and wings

Some steps work with wings: they let one wait, plug in those that wait, or show what there is. All
they change is what is stacked and what waits. The other steps look at neither, so two sessions that
differ only in that get the same from them, and still differ only in that.
-/

namespace Pinout.Session

/-- The session with no wing plugged in or waiting. -/
def wired (session : Session) : Session :=
  { session with catalog := session.catalog.wired, placements := {} }

def Outcome.wired (outcome : Outcome) : Outcome :=
  { outcome with session := outcome.session.wired }

def Step.isWingWork : Step → Bool
  | .placeWing _ | .generate _ | .list _ | .exportBoards _ _ => true
  | _ => false

variable {session session' : Session} {files : Files} {step : Step}

theorem catalog_congr (same : session.wired = session'.wired) :
    session.catalog.wired = session'.catalog.wired :=
  congrArg catalog same

theorem find?_congr (same : session.wired = session'.wired) :
    session.catalog.find? = session'.catalog.find? := by
  funext kind name
  rw [← Catalog.find?_wired, catalog_congr same, Catalog.find?_wired]

theorem boardNamed_congr (same : session.wired = session'.wired) :
    session.boardNamed = session'.boardNamed := by
  funext name
  rw [boardNamed, find?_congr same, boardNamed]

theorem sourceName_congr (same : session.wired = session'.wired) :
    session.sourceName = session'.sourceName := by
  have name := congrArg sourceName same
  exact name

theorem destinationName_congr (same : session.wired = session'.wired) :
    session.destinationName = session'.destinationName := by
  have name := congrArg destinationName same
  exact name

theorem sourceBoard_congr (same : session.wired = session'.wired) :
    session.sourceBoard = session'.sourceBoard := by
  rw [sourceBoard, sourceBoard, sourceName_congr same, boardNamed_congr same]

theorem destinationBoard_congr (same : session.wired = session'.wired) :
    session.destinationBoard = session'.destinationBoard := by
  simp only [destinationBoard, boardNamed_congr same, destinationName_congr same]

theorem moves_congr (same : session.wired = session'.wired) : session.moves = session'.moves := by
  have moves := congrArg moves same
  exact moves

/-- What holds of a session and of what a step goes on to holds however the step ends. -/
theorem orFail_keeps {α : Type} {value : Except SessionError α} {rest : α → Outcome}
    (P : Session → Prop) (here : P session) (there : ∀ a, P (rest a).session) :
    P (orFail session value rest).session := by
  cases value with
  | ok a => exact there a
  | error error => exact here

theorem orFail_congr {α : Type} (same : session.wired = session'.wired)
    (value : Except SessionError α) {rest rest' : α → Outcome}
    (alike : ∀ a, (rest a).wired = (rest' a).wired) :
    (orFail session value rest).wired = (orFail session' value rest').wired := by
  cases value with
  | ok a => exact alike a
  | error error => exact congrArg (Outcome.mk · "" [] (some error)) same

theorem loadText_congr (same : session.wired = session'.wired) (kind : BoardKind)
    (source : String) :
    (session.loadText kind source).wired = (session'.loadText kind source).wired := by
  obtain ⟨catalog, result⟩ := Catalog.load_congr (catalog_congr same) kind source
  simp only [loadText, result]
  have loaded :
      ({ session with catalog := (session.catalog.load kind source).1 } : Session).wired =
        ({ session' with catalog := (session'.catalog.load kind source).1 } : Session).wired :=
    congrArg₂ (fun (session : Session) catalog => { session with catalog }) same catalog
  split <;> exact congrArg (Outcome.mk · _ _ _) loaded

theorem transform_congr (same : session.wired = session'.wired) (path : String) :
    (transform files session path).wired = (transform files session' path).wired := by
  rw [transform, transform, sourceBoard_congr same, destinationBoard_congr same]
  refine orFail_congr same _ fun source => orFail_congr same _ fun target =>
    orFail_congr same _ fun text => ?_
  rw [← Catalog.pinMap_wired, catalog_congr same, Catalog.pinMap_wired, moves_congr same]
  exact congrArg (Outcome.mk · _ _ _) same

theorem validate_congr (same : session.wired = session'.wired) (path : String) :
    (validate files session path).wired = (validate files session' path).wired := by
  rw [validate, validate, sourceName_congr same, boardNamed_congr same]
  refine orFail_congr same _ fun name => orFail_congr same _ fun board =>
    orFail_congr same _ fun text => ?_
  rw [← Constraint.validate_wired, catalog_congr same, Constraint.validate_wired]
  split <;> exact congrArg (Outcome.mk · _ _ _) same

theorem move_congr (same : session.wired = session'.wired) (directive : String) :
    (session.move directive).wired = (session'.move directive).wired := by
  simp only [move, moves_congr same]
  have moved (moves : Moves) :
      ({ session with moves } : Session).wired = ({ session' with moves } : Session).wired :=
    congrArg (fun session : Session => { session with moves }) same
  exact orFail_congr (moved _) _ fun _ => congrArg (Outcome.mk · _ _ _) (moved _)

/-- A step that leaves wings alone has the same output, log and failure, whatever wings there
are. -/
theorem execute_congr (files : Files) (same : session.wired = session'.wired)
    (leaves : step.isWingWork = false) :
    (execute files session step).wired = (execute files session' step).wired := by
  cases step with
  | loadDefinitions path kind => exact orFail_congr same _ fun text => loadText_congr same kind text
  | sourceBoard name =>
    rw [execute, execute, boardNamed_congr same]
    exact orFail_congr same _ fun _ => congrArg (fun session : Session =>
      Outcome.changed { session with source := some name }) same
  | destinationBoard name =>
    rw [execute, execute, boardNamed_congr same]
    exact orFail_congr same _ fun _ => congrArg (fun session : Session =>
      Outcome.changed { session with destination := some name }) same
  | move directive => exact move_congr same directive
  | transform path => exact transform_congr same path
  | validate path => exact validate_congr same path
  | _ => cases leaves

theorem Step.isWingWork_of_writesPins (writes : step.writesPins = true) :
    step.isWingWork = true := by
  cases step with
  | generate | exportBoards => rfl
  | _ => cases writes

theorem wired_withPlaced (session : Session) (board : BoardId) :
    (session.withPlaced board).wired = session.wired :=
  congrArg (fun catalog => { session with catalog, placements := {} }) (Wing.wired_plugAll _ _)

theorem wired_placed {rest : Unit → Outcome} (board : BoardId)
    (keeps : ∀ u, (rest u).session.wired = (session.applyPlacements board).1.wired) :
    (orFail (session.applyPlacements board).1 (session.applyPlacements board).2
      rest).session.wired = session.wired := by
  have before : (session.applyPlacements board).1.wired = session.wired := by
    rw [applyPlacements_fst, wired_withPlaced]
  exact orFail_keeps (·.wired = session.wired) before fun u => (keeps u).trans before

/-- Working with wings changes nothing else, whether it fails or not. -/
theorem wired_execute (works : step.isWingWork = true) :
    (execute files session step).session.wired = session.wired := by
  cases step with
  | placeWing directive => rfl
  | list scope => rfl
  | generate filter =>
    refine orFail_keeps (·.wired = session.wired) rfl fun board => wired_placed board fun _ => ?_
    exact orFail_keeps (·.wired = (session.applyPlacements board).1.wired) rfl fun _ => rfl
  | exportBoards names format =>
    rw [execute, exportBoards]
    split
    · rfl
    · exact orFail_keeps (·.wired = session.wired) rfl fun board => wired_placed board fun _ => rfl
  | _ => cases works

end Pinout.Session
