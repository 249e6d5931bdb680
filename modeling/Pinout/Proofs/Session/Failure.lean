import Pinout.Proofs.Wing.Wiring
import Pinout.Session.Basic

/-! # What a failed step leaves behind

A step that writes pins first plugs in the wings that wait. They stop waiting before the first of
them is looked up, so when the step fails after that, some of them are plugged in and the others are
lost. A session is left as it was only where the step fails before, or where no wing waits.
-/

namespace Pinout

theorem Catalog.find?_wired (catalog : Catalog) (kind : BoardKind) (name : String) :
    catalog.wired.find? kind name = catalog.find? kind name := by
  cases kind <;> rfl

theorem Wing.find?_plug (catalog : Catalog) (board wing : BoardId) (token : String)
    (kind : BoardKind) (name : String) :
    (plug catalog board wing token).1.find? kind name = catalog.find? kind name := by
  rw [← Catalog.find?_wired, wired_plug, Catalog.find?_wired]

namespace Session

/-- The placements that some requests ask for, up to the first whose wing is not known. -/
def knownPlacements (catalog : Catalog) (board : BoardId) : List Wing.Request → List Wing.Placement
  | [] => []
  | request :: rest =>
    match catalog.find? .wing request.wing with
    | none => []
    | some wing => ⟨board, wing, request.position⟩ :: knownPlacements catalog board rest

theorem knownPlacements_congr {catalog catalog' : Catalog}
    (same : ∀ name, catalog.find? .wing name = catalog'.find? .wing name) (board : BoardId)
    (requests : List Wing.Request) :
    knownPlacements catalog board requests = knownPlacements catalog' board requests := by
  induction requests with
  | nil => rfl
  | cons request rest ih => simp only [knownPlacements, same, ih]

/-- Whatever comes of it, the wings in front of the first unknown one are plugged in. -/
theorem plugAll_fst (catalog : Catalog) (board : BoardId) (requests : List Wing.Request) :
    (plugAll catalog board requests).1 =
      Wing.plugAll catalog (knownPlacements catalog board requests) := by
  induction requests generalizing catalog with
  | nil => rfl
  | cons request rest ih =>
    rw [plugAll, knownPlacements]
    cases catalog.find? .wing request.wing with
    | none => rfl
    | some wing =>
      -- the registry of wings is still the one in which the first of them was found
      have same (name : String) :
          (Wing.plug catalog board wing request.position).1.find? .wing name =
            catalog.find? .wing name :=
        Wing.find?_plug catalog board wing request.position .wing name
      exact (ih _).trans (congrArg _ (knownPlacements_congr same board rest))

def withPlaced (session : Session) (board : BoardId) : Session :=
  { session with
    catalog :=
      Wing.plugAll session.catalog
        (knownPlacements session.catalog board session.placements.toRequests)
    placements := {} }

theorem applyPlacements_fst (session : Session) (board : BoardId) :
    (session.applyPlacements board).1 = session.withPlaced board := by
  rw [applyPlacements, withPlaced, ← plugAll_fst]

/-- The steps that plug in the wings that wait before they write. -/
def Step.writesPins : Step → Bool
  | .generate _ => true
  | .exportBoards _ _ => true
  | _ => false

theorem session_orFail {α : Type} {session : Session} {value : Except SessionError α}
    {rest : α → Outcome} {error : SessionError}
    (failed : (orFail session value rest).error = some error) :
    (value = .error error ∧ (orFail session value rest).session = session) ∨
      ∃ a, value = .ok a ∧ (rest a).error = some error ∧
        (orFail session value rest).session = (rest a).session := by
  cases value with
  | error error' =>
    cases failed
    exact .inl ⟨rfl, rfl⟩
  | ok a => exact .inr ⟨a, rfl, failed, rfl⟩

theorem session_generate {session : Session} {filter : String} {error : SessionError}
    (failed : (session.generate filter).error = some error) :
    (session.destinationBoard = .error error ∧ (session.generate filter).session = session) ∨
      ∃ board, session.destinationBoard = .ok board ∧
        (session.generate filter).session = session.withPlaced board := by
  rcases session_orFail failed with unknown | ⟨board, found, failed, same⟩
  · exact .inl unknown
  · refine .inr ⟨board, found, same.trans ?_⟩
    rw [← applyPlacements_fst]
    -- neither the wings nor the text change the session that has them plugged in
    rcases session_orFail failed with ⟨_, same⟩ | ⟨_, _, failed, same⟩
    · exact same
    · rcases session_orFail failed with ⟨_, same'⟩ | ⟨_, _, failed, _⟩
      · exact same.trans same'
      · cases failed

theorem session_exportBoards {session : Session} {names : List String} {format : Export.Format}
    {error : SessionError} (failed : (session.exportBoards names format).error = some error) :
    (session.destinationBoard = .error error ∧
        (session.exportBoards names format).session = session) ∨
      ∃ board, session.destinationBoard = .ok board ∧
        (session.exportBoards names format).session = session.withPlaced board := by
  unfold exportBoards at failed ⊢
  split at failed
  · cases failed
  · rename_i waiting
    rw [if_neg waiting]
    rcases session_orFail failed with unknown | ⟨board, found, failed, same⟩
    · exact .inl unknown
    · refine .inr ⟨board, found, same.trans ?_⟩
      rw [← applyPlacements_fst]
      rcases session_orFail failed with ⟨_, same⟩ | ⟨_, _, failed, _⟩
      · exact same
      · cases failed

theorem session_of_failed {files : Files} {session : Session} {step : Step} {error : SessionError}
    (writes : step.writesPins = true) (failed : (execute files session step).error = some error) :
    (session.destinationBoard = .error error ∧ (execute files session step).session = session) ∨
      ∃ board, session.destinationBoard = .ok board ∧
        (execute files session step).session = session.withPlaced board := by
  cases step with
  | generate filter => exact session_generate failed
  | exportBoards names format => exact session_exportBoards failed
  | _ => cases writes

/-- A failed step that writes pins leaves the catalog and the wings that wait as they were just if
there was no board to plug them into, or no wing. Otherwise no wing waits any longer, and those in
front of the first unknown one are plugged in. What positions are wired to stays in any case. -/
theorem failed_keeps_state_iff (files : Files) (session : Session) (step : Step)
    (error : SessionError) (writes : step.writesPins = true)
    (failed : (execute files session step).error = some error) :
    let after := (execute files session step).session
    (after.catalog = session.catalog ∧ after.placements = session.placements ↔
        session.destinationBoard = .error error ∨ session.placements.isEmpty = true) ∧
      ((session.destinationBoard = .error error ∧ after = session) ∨
        ∃ board, session.destinationBoard = .ok board ∧ after = session.withPlaced board) ∧
      after.catalog.wired = session.catalog.wired := by
  intro after
  have outcome := session_of_failed writes failed
  refine ⟨?_, outcome, ?_⟩
  · rcases outcome with ⟨unknown, same⟩ | ⟨board, found, same⟩
    · exact iff_of_true ⟨congrArg catalog same, congrArg placements same⟩ (.inl unknown)
    · have taken : after.placements = {} := congrArg placements same
      constructor
      · rintro ⟨-, waiting⟩
        rw [← waiting, taken]
        exact .inr rfl
      · rintro (unknown | waiting)
        · cases found.symm.trans unknown
        · have nothing : session.placements = {} :=
            congrArg OrderedMap.mk (List.isEmpty_iff.1 waiting)
          have placed : after.catalog = (session.withPlaced board).catalog := congrArg catalog same
          rw [withPlaced, nothing] at placed
          exact ⟨placed, taken.trans nothing.symm⟩
  · rcases outcome with ⟨-, same⟩ | ⟨board, -, same⟩
    · exact congrArg (·.catalog.wired) same
    · exact (congrArg (·.catalog.wired) same).trans (Wing.wired_plugAll _ _)

def stranded : Session :=
  let board : Board :=
    { names := ["One"]
      buses := [{ name := "A", slots := ["P1", "P2"].map fun pin => ⟨{ name := some pin }, []⟩ }] }
  let wing : Board :=
    { names := ["LED"], buses := [{ name := "D", slots := [⟨{ name := some "LED0" }, []⟩] }] }
  let (withBoard, _) := ({} : Catalog).register .board board
  let (catalog, _) := withBoard.register .wing wing
  { catalog
    destination := some "One"
    placements := Wing.Placements.addDirective {} "LED->A;Nope->AH" }

def noFiles : Files :=
  ⟨fun _ => .error .notFound⟩

theorem failed_keeps_state_stranded :
    Step.writesPins (.generate "all") = true ∧
      (execute noFiles stranded (.generate "all")).error = some (.unknownWing "Nope") ∧
      stranded.destinationBoard = .ok 0 ∧
      (execute noFiles stranded (.generate "all")).session = stranded.withPlaced 0 := by
  have failed : (execute noFiles stranded (.generate "all")).error =
      some (.unknownWing "Nope") := by
    decide +kernel
  have found : stranded.destinationBoard = .ok 0 := by decide +kernel
  refine ⟨rfl, failed, found, ?_⟩
  rcases (failed_keeps_state_iff noFiles stranded (.generate "all") _ rfl failed).2.1 with
    ⟨unknown, -⟩ | ⟨board, found', same⟩
  · cases found.symm.trans unknown
  · cases found.symm.trans found'
    exact same

/-- A failed step may lose wings that wait and leave others plugged in. -/
theorem failed_changes_state :
    (execute noFiles stranded (.generate "all")).error = some (.unknownWing "Nope") ∧
      (execute noFiles stranded (.generate "all")).session.catalog ≠ stranded.catalog ∧
      (execute noFiles stranded (.generate "all")).session.placements ≠ stranded.placements := by
  refine ⟨by decide +kernel, fun same => ?_, by decide +kernel⟩
  let depths (catalog : Catalog) : List Nat :=
    (catalog.board 0).buses.flatMap fun bus => bus.slots.map (·.depth)
  have covered : depths (execute noFiles stranded (.generate "all")).session.catalog = [1, 0] := by
    decide +kernel
  have bare : depths stranded.catalog = [0, 0] := by decide +kernel
  rw [same, bare] at covered
  cases covered

end Session

end Pinout
