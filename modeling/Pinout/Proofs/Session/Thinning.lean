import Pinout.Proofs.Session.Succeeding

/-! # Runs with fewer wings

From steps that all succeed some of those that work with wings are left out. Two runs are followed
side by side: their sessions differ in wings only, and a wing that waits in the thinned run is
known, or waits in the full run too, or a step left out asked for another one in its place. So
rewriting and checking files comes to the same, and where the thinned run fails, it writes pins with
an unknown wing that was replaced in the full one.
-/

namespace Pinout

theorem Caseless.beq_ofString (name : Caseless) (text : String) :
    (name == ofString text) = sameName name.spelling text := by
  change (name.folded == Text.lower text) = _
  rw [name.folded_eq, sameName]

/-! ## Positions that wait -/

namespace Wing.Placements

def waitingAt (placements : Placements) (position : String) : List String :=
  (placements.toRequests.filter (sameName ·.position position)).map (·.wing)

theorem mem_waitingAt {placements : Placements} {request : Request}
    (waits : request ∈ placements.toRequests) :
    request.wing ∈ placements.waitingAt request.position :=
  List.mem_map_of_mem (List.mem_filter.2 ⟨waits, by simp [sameName]⟩)

/-- A wing takes the place of the one that waited for its position. -/
theorem waitingAt_add (placements : Placements) (request : Request) (position : String) :
    (placements.add request).waitingAt position =
      if sameName request.position position then
        request.wing :: (placements.waitingAt position).tail
      else
        placements.waitingAt position := by
  obtain ⟨entries⟩ := placements
  simp only [add, OrderedMap.insert, waitingAt, toRequests]
  induction entries with
  | nil => cases here : sameName request.position position <;> simp [OrderedMap.put, here]
  | cons entry entries ih =>
    rw [OrderedMap.put, Caseless.beq_ofString]
    cases replaced : sameName entry.1.spelling request.position with
    | true =>
      have alike : sameName entry.1.spelling position = sameName request.position position := by
        rw [sameName, sameName_iff.1 replaced, sameName]
      cases here : sameName request.position position <;> simp [alike, here]
    | false =>
      simp only [Bool.false_eq_true, if_false, List.map_cons, List.filter_cons]
      cases other : sameName entry.1.spelling position with
      | false => simpa [other] using ih
      | true =>
        -- this entry is for the position, so the request is not
        have elsewhere : sameName request.position position = false := by
          rw [Bool.eq_false_iff]
          intro here
          rw [sameName, sameName_iff.1 other, ← sameName_iff.1 here] at replaced
          simp at replaced
        simpa [other, elsewhere] using ih

theorem waitingAt_foldl_of_elsewhere (placements : Placements) {requests : List Request}
    {position : String}
    (elsewhere : ∀ request ∈ requests, sameName request.position position = false) :
    (requests.foldl add placements).waitingAt position = placements.waitingAt position := by
  induction requests generalizing placements with
  | nil => rfl
  | cons request requests ih =>
    obtain ⟨here, others⟩ := List.forall_mem_cons.1 elsewhere
    rw [List.foldl_cons, ih _ others, waitingAt_add, here]
    rfl

theorem isEmpty_foldl_add (placements : Placements) (requests : List Request) :
    (requests.foldl add placements).isEmpty = (placements.isEmpty && requests.isEmpty) := by
  have added (placements : Placements) (request : Request) :
      (placements.add request).isEmpty = false := by
    obtain ⟨entries⟩ := placements
    cases entries with
    | nil => rfl
    | cons entry entries =>
      simp only [add, OrderedMap.insert, OrderedMap.isEmpty, OrderedMap.put]
      split <;> rfl
  induction requests generalizing placements with
  | nil => simp
  | cons request requests ih => simp [ih, added]

/-- What waits in one run is known, or waits at the same place in the other run. -/
def Excused (known : String → Bool) (whole thinner : List String) : Prop :=
  ∀ (i : Nat) (wing : String), thinner[i]? = some wing → known wing = true ∨ whole[i]? = some wing

variable {known known' : String → Bool} {whole thinner : List String}

theorem Excused.mono (excused : Excused known whole thinner)
    (more : ∀ wing, known wing = true → known' wing = true) : Excused known' whole thinner :=
  fun i wing here => (excused i wing here).imp_left (more wing)

theorem Excused.replace (excused : Excused known whole thinner) (wing : String) :
    Excused known (wing :: whole.tail) (wing :: thinner.tail) := by
  intro i other here
  cases i with
  | zero => exact .inr here
  | succ i =>
    rw [List.getElem?_cons_succ, List.getElem?_tail] at here ⊢
    exact excused (i + 1) other here

theorem Excused.foldl {whole thinner : Placements} {position : String}
    (excused : Excused known (whole.waitingAt position) (thinner.waitingAt position))
    (requests : List Request) :
    Excused known ((requests.foldl add whole).waitingAt position)
      ((requests.foldl add thinner).waitingAt position) := by
  induction requests generalizing whole thinner with
  | nil => exact excused
  | cons request requests ih =>
    refine ih ?_
    rw [waitingAt_add, waitingAt_add]
    split
    · exact excused.replace request.wing
    · exact excused

end Wing.Placements

namespace Session

open Wing.Placements (waitingAt Excused)

/-- Steps, some of which are marked to be left out. -/
abbrev Plan :=
  List (Step × Bool)

namespace Plan

def steps (plan : Plan) : List Step :=
  plan.map (·.1)

def kept (plan : Plan) : List Step :=
  (plan.filter (!·.2)).map (·.1)

def leftOut (plan : Plan) : List Step :=
  (plan.filter (·.2)).map (·.1)

end Plan

def Step.requests : Step → List Wing.Request
  | .placeWing directive => Wing.requests directive
  | _ => []

/-- The wings that are not requested when the marked steps are left out. -/
def Plan.dropped (plan : Plan) : List Wing.Request :=
  plan.leftOut.flatMap Step.requests

section

variable {session : Session} {files : Files} {step : Step} {steps : List Step}

theorem run_cons_of_succeeds (succeeds : (execute files session step).error = none)
    (steps : List Step) :
    (run files session (step :: steps)).error =
        (run files (execute files session step).session steps).error ∧
      (run files session (step :: steps)).session =
        (run files (execute files session step).session steps).session := by
  rw [run]
  split
  · next failed => cases succeeds.symm.trans failed
  · exact ⟨rfl, rfl⟩

theorem error_run_cons_of_failed {error : SessionError}
    (failed : (execute files session step).error = some error) (steps : List Step) :
    (run files session (step :: steps)).error = some error := by
  simp [run, failed]

theorem error_run_cons :
    (run files session (step :: steps)).error = none ↔
      (execute files session step).error = none ∧
        (run files (execute files session step).session steps).error = none := by
  cases outcome : (execute files session step).error with
  | none => rw [(run_cons_of_succeeds outcome steps).1, eq_self_iff_true, true_and]
  | some error => simp [error_run_cons_of_failed outcome]

theorem error_run_append (files : Files) (session : Session) (steps more : List Step) :
    (run files session (steps ++ more)).error =
      (run files session steps).error.or
        (run files (run files session steps).session more).error := by
  induction steps generalizing session with
  | nil => rfl
  | cons step steps ih =>
    rw [List.cons_append]
    cases outcome : (execute files session step).error with
    | none =>
      obtain ⟨error, after⟩ := run_cons_of_succeeds outcome steps
      rw [(run_cons_of_succeeds outcome _).1, ih, error, after]
    | some error =>
      rw [error_run_cons_of_failed outcome, error_run_cons_of_failed outcome, Option.some_or]

end

/-! ## Two runs side by side -/

/-- How the session of a thinned run stands to that of the whole run. -/
structure Thinned (dropped : List Wing.Request) (whole thinner : Session) : Prop where
  wiring : thinner.wired = whole.wired
  waiting : ∀ position, (∃ request ∈ dropped, sameName request.position position = true) ∨
    Excused (thinner.catalog.contains .wing) (waitingAt whole.placements position)
      (waitingAt thinner.placements position)
  board : thinner.placements.isEmpty = true ∨ whole.placements.isEmpty = false ∨
    ∃ board, whole.destinationBoard = .ok board

variable {dropped : List Wing.Request} {whole thinner : Session} {files : Files} {step : Step}

theorem thinned_refl (session : Session) : Thinned [] session session where
  wiring := rfl
  waiting position := .inr fun i wing here => .inr here
  board := by cases session.placements.isEmpty <;> simp

/-- A step that leaves wings alone is taken in both runs. -/
theorem Thinned.leave (thinned : Thinned dropped whole thinner) (leaves : step.isWingWork = false) :
    Thinned dropped (execute files whole step).session (execute files thinner step).session where
  wiring := congrArg Outcome.session (execute_congr files thinned.wiring leaves)
  waiting position := by
    rw [placements_execute leaves, placements_execute leaves]
    exact (thinned.waiting position).imp_right fun excused =>
      excused.mono fun wing known => contains_execute known files step
  board := by
    rw [placements_execute leaves, placements_execute leaves]
    exact thinned.board.imp_right (Or.imp_right (destinationBoard_execute · files step))

/-- Wings are requested in both runs. -/
theorem Thinned.place (thinned : Thinned dropped whole thinner) (directive : String) :
    Thinned dropped (whole.placeWing directive).session (thinner.placeWing directive).session where
  wiring := thinned.wiring
  waiting position := (thinned.waiting position).imp_right (·.foldl (Wing.requests directive))
  board := by
    have waiting (session : Session) : (session.placeWing directive).session.placements.isEmpty =
        (session.placements.isEmpty && (Wing.requests directive).isEmpty) :=
      Wing.Placements.isEmpty_foldl_add _ _
    rw [waiting, waiting]
    cases (Wing.requests directive).isEmpty with
    | true =>
      rw [Bool.and_true, Bool.and_true]
      exact thinned.board
    | false => exact .inr (.inl (Bool.and_false _))

/-- Pins are written in both runs. -/
theorem Thinned.write (thinned : Thinned dropped whole thinner) (writes : step.writesPins = true)
    (succeeds : (execute files whole step).error = none)
    (succeeds' : (execute files thinner step).error = none) :
    Thinned dropped (execute files whole step).session (execute files thinner step).session where
  wiring := by
    have works := Step.isWingWork_of_writesPins writes
    rw [wired_execute works, wired_execute works, thinned.wiring]
  waiting position := by
    rw [(written_spec writes succeeds).1, (written_spec writes succeeds').1]
    exact .inr nofun
  board := by
    rw [(written_spec writes succeeds').1]
    exact .inl rfl

theorem Thinned.keep (thinned : Thinned dropped whole thinner)
    (succeeds : (execute files whole step).error = none)
    (succeeds' : (execute files thinner step).error = none) :
    Thinned dropped (execute files whole step).session (execute files thinner step).session := by
  cases step with
  | placeWing directive => exact thinned.place directive
  | list scope => exact thinned
  | generate filter => exact thinned.write rfl succeeds succeeds'
  | exportBoards names format => exact thinned.write rfl succeeds succeeds'
  | _ => exact thinned.leave rfl

theorem exists_mem_append_left {position : String} (more : List Wing.Request)
    (asked : ∃ request ∈ dropped, sameName request.position position = true) :
    ∃ request ∈ dropped ++ more, sameName request.position position = true := by
  obtain ⟨request, member, same⟩ := asked
  exact ⟨request, List.mem_append_left more member, same⟩

/-- Wings are requested in the whole run only. -/
theorem Thinned.leaveOutPlace (thinned : Thinned dropped whole thinner) (directive : String) :
    Thinned (dropped ++ Wing.requests directive) (whole.placeWing directive).session thinner where
  wiring := thinned.wiring
  waiting position := by
    by_cases asked : ∃ request ∈ Wing.requests directive, sameName request.position position = true
    · obtain ⟨request, member, same⟩ := asked
      exact .inl ⟨request, List.mem_append_right dropped member, same⟩
    · refine (thinned.waiting position).imp (exists_mem_append_left _) fun excused => ?_
      have elsewhere : ∀ request ∈ Wing.requests directive,
          sameName request.position position = false := by
        simpa using asked
      exact (Wing.Placements.waitingAt_foldl_of_elsewhere whole.placements elsewhere).symm ▸ excused
  board := by
    refine thinned.board.imp_right (Or.imp_left fun waiting => ?_)
    exact (Wing.Placements.isEmpty_foldl_add _ _).trans (by rw [waiting, Bool.false_and])

/-- Pins are written in the whole run only. -/
theorem Thinned.leaveOutWrite (thinned : Thinned dropped whole thinner)
    (writes : step.writesPins = true) (succeeds : (execute files whole step).error = none) :
    Thinned dropped (execute files whole step).session thinner := by
  obtain ⟨taken, known, there⟩ := written_spec writes succeeds
  have works := Step.isWingWork_of_writesPins writes
  refine ⟨thinned.wiring.trans (wired_execute works).symm, fun position => ?_, ?_⟩
  · refine (thinned.waiting position).imp_right fun excused i wing here => .inl ?_
    -- what waited in the whole run was plugged in, so it is known
    refine (excused i wing here).elim id fun waited => ?_
    obtain ⟨request, member, rfl⟩ := List.mem_map.1 (List.mem_of_getElem? waited)
    rw [contains_congr thinned.wiring]
    exact unknown?_eq_none_iff.1 known request (List.mem_filter.1 member).1
  · have chosen : thinner.placements.isEmpty = true ∨
        ∃ board, whole.destinationBoard = .ok board := by
      rcases there with nothing | chosen
      · refine thinned.board.imp_right fun either => either.resolve_left fun waiting => ?_
        cases nothing.symm.trans waiting
      · exact .inr chosen
    exact chosen.imp_right fun chosen => .inr (destinationBoard_execute chosen files step)

theorem Thinned.leaveOut (thinned : Thinned dropped whole thinner) (works : step.isWingWork = true)
    (succeeds : (execute files whole step).error = none) :
    Thinned (dropped ++ step.requests) (execute files whole step).session thinner := by
  cases step with
  | placeWing directive => exact thinned.leaveOutPlace directive
  | list scope =>
    simp only [Step.requests, List.append_nil]
    exact thinned
  | generate filter =>
    simp only [Step.requests, List.append_nil]
    exact thinned.leaveOutWrite rfl succeeds
  | exportBoards names format =>
    simp only [Step.requests, List.append_nil]
    exact thinned.leaveOutWrite rfl succeeds
  | _ => cases works

/-- A kept step succeeds, unless it writes pins and meets a wing that is not known. -/
theorem Thinned.error_execute (thinned : Thinned dropped whole thinner)
    (succeeds : (execute files whole step).error = none) :
    (execute files thinner step).error = none ∨
      step.writesPins = true ∧ ∃ request ∈ thinner.placements.toRequests,
        thinner.catalog.contains .wing request.wing = false ∧
        (∃ other ∈ dropped, sameName other.position request.position = true) ∧
        (execute files thinner step).error = some (.unknownWing request.wing) := by
  cases writes : step.writesPins with
  | false =>
    refine .inl ?_
    cases works : step.isWingWork with
    | false =>
      have alike := congrArg Outcome.error (execute_congr files thinned.wiring works)
      exact alike.trans succeeds
    | true =>
      cases step with
      | placeWing | list => rfl
      | generate | exportBoards => cases writes
      | _ => cases works
  | true =>
    have error := error_execute_of_writesPins thinned.wiring writes succeeds thinned.board
    cases unknown : thinner.unknown? with
    | none =>
      rw [unknown] at error
      exact .inl error
    | some request =>
      rw [unknown] at error
      have member := List.mem_of_find?_eq_some unknown
      have missing : thinner.catalog.contains .wing request.wing = false := by
        simpa using List.find?_some unknown
      refine .inr ⟨rfl, request, member, missing, ?_, error⟩
      refine (thinned.waiting request.position).resolve_right fun excused => ?_
      -- in the whole run nothing unknown waits, and what is known there is known here
      obtain ⟨i, here⟩ := List.mem_iff_getElem?.1 (Wing.Placements.mem_waitingAt member)
      rcases excused i request.wing here with known | waits
      · cases missing.symm.trans known
      · obtain ⟨other, member, same⟩ := List.mem_map.1 (List.mem_of_getElem? waits)
        have known := unknown?_eq_none_iff.1 (written_spec writes succeeds).2.1 other
          (List.mem_filter.1 member).1
        rw [same, ← contains_congr thinned.wiring] at known
        cases missing.symm.trans known

/-! ## Whole plans -/

theorem Thinned.run {plan : Plan} (thinned : Thinned dropped whole thinner)
    (wingWork : ∀ step ∈ plan.leftOut, step.isWingWork = true)
    (succeeds : (run files whole plan.steps).error = none)
    (succeeds' : (run files thinner plan.kept).error = none) :
    Thinned (dropped ++ plan.dropped) (run files whole plan.steps).session
      (run files thinner plan.kept).session := by
  induction plan generalizing dropped whole thinner with
  | nil => exact (List.append_nil dropped).symm ▸ thinned
  | cons marked plan ih =>
    obtain ⟨step, out⟩ := marked
    obtain ⟨here, later⟩ := error_run_cons.1 succeeds
    rw [show (Session.run files whole (Plan.steps ((step, out) :: plan))).session = _ from
      (run_cons_of_succeeds here (Plan.steps plan)).2]
    cases out with
    | false =>
      obtain ⟨here', later'⟩ := error_run_cons.1 succeeds'
      have follows := ih (thinned.keep here here') wingWork later later'
      exact (run_cons_of_succeeds here' (Plan.kept plan)).2 ▸ follows
    | true =>
      obtain ⟨works, wingWork⟩ := List.forall_mem_cons.1 wingWork
      have follows := ih (thinned.leaveOut works here) wingWork later succeeds'
      rwa [List.append_assoc] at follows

def Step.readsPins : Step → Bool
  | .transform _ | .validate _ => true
  | _ => false

/-- Behind the kept steps a wing waits that is not known, for a position for which a step left out
requests a wing too. -/
def Exposes (files : Files) (session : Session) (before : Plan) (wing : String) : Prop :=
  let there := run files session before.kept
  there.error = none ∧ there.session.catalog.contains .wing wing = false ∧
    ∃ request ∈ there.session.placements.toRequests, request.wing = wing ∧
      ∃ other ∈ before.dropped, sameName other.position request.position = true

variable {session : Session} {plan before after : Plan}

theorem steps_append : Plan.steps (before ++ after) = before.steps ++ after.steps :=
  List.map_append

theorem kept_append : Plan.kept (before ++ after) = before.kept ++ after.kept := by
  simp [Plan.kept]

theorem leftOut_append : Plan.leftOut (before ++ after) = before.leftOut ++ after.leftOut := by
  simp [Plan.leftOut]

theorem error_run_singleton (files : Files) (session : Session) (step : Step) :
    (run files session [step]).error = (execute files session step).error := by
  cases outcome : (execute files session step).error with
  | none => exact (run_cons_of_succeeds outcome []).1
  | some error => exact error_run_cons_of_failed outcome []

theorem thinned_before (wingWork : ∀ step ∈ Plan.leftOut (before ++ after), step.isWingWork = true)
    (succeeds : (run files session (Plan.steps (before ++ after))).error = none)
    (succeeds' : (run files session before.kept).error = none) :
    Thinned before.dropped (run files session before.steps).session
        (run files session before.kept).session ∧
      (run files (run files session before.steps).session after.steps).error = none := by
  rw [leftOut_append, List.forall_mem_append] at wingWork
  rw [steps_append, error_run_append, Option.or_eq_none_iff] at succeeds
  exact ⟨(thinned_refl session).run wingWork.1 succeeds.1 succeeds', succeeds.2⟩

theorem error_run_kept (wingWork : ∀ step ∈ plan.leftOut, step.isWingWork = true)
    (succeeds : (run files session plan.steps).error = none) :
    (run files session plan.kept).error = none ∨
      ∃ before step after wing, plan = before ++ (step, false) :: after ∧ step.writesPins = true ∧
        Exposes files session before wing ∧
        (run files session plan.kept).error = some (.unknownWing wing) := by
  induction plan using List.reverseRecOn with
  | nil => exact .inl rfl
  | append_singleton plan marked ih =>
    obtain ⟨step, out⟩ := marked
    rw [kept_append, error_run_append]
    have wingWork' := wingWork
    have succeeds' := succeeds
    rw [leftOut_append, List.forall_mem_append] at wingWork'
    rw [steps_append, error_run_append, Option.or_eq_none_iff] at succeeds'
    rcases ih wingWork'.1 succeeds'.1 with
      before | ⟨before, step', after, wing, rfl, writes, exposes, failed⟩
    · rw [before, Option.none_or]
      cases out with
      | true => exact .inl rfl
      | false =>
        obtain ⟨thinned, here⟩ := thinned_before wingWork succeeds before
        rw [show Plan.steps [(step, false)] = [step] from rfl, error_run_singleton] at here
        rw [show Plan.kept [(step, false)] = [step] from rfl, error_run_singleton]
        refine (thinned.error_execute here).imp_right ?_
        rintro ⟨writes, request, member, missing, asked, failed⟩
        exact ⟨plan, step, [], request.wing, rfl, writes,
          ⟨before, missing, request, member, rfl, asked⟩, failed⟩
    · -- what comes behind the first failure does not matter
      refine .inr ⟨before, step', after ++ [(step, out)], wing, by simp, writes, exposes, ?_⟩
      rw [failed, Option.some_or]

/-- Where steps that work with wings are left out of a list that succeeds, the other steps succeed
too, unless one that writes pins meets a wing that is not known: a step left out requests another
one for its position. As far as the steps are run, those that rewrite or check a file write what
they wrote in the whole list. -/
theorem run_kept (files : Files) (session : Session) (plan : Plan)
    (wingWork : ∀ step ∈ plan.leftOut, step.isWingWork = true)
    (succeeds : (run files session plan.steps).error = none) :
    ((run files session plan.kept).error = none ∨
      ∃ before step after wing, plan = before ++ (step, false) :: after ∧ step.writesPins = true ∧
        Exposes files session before wing ∧
        (run files session plan.kept).error = some (.unknownWing wing)) ∧
    ∀ (before : Plan) step after, plan = before ++ (step, false) :: after → step.readsPins = true →
      (run files session before.kept).error = none →
      let here := execute files (run files session before.kept).session step
      here.error = none ∧
        here.output = (execute files (run files session before.steps).session step).output := by
  refine ⟨error_run_kept wingWork succeeds, ?_⟩
  rintro before step after rfl reads reached here
  obtain ⟨thinned, succeeds⟩ := thinned_before wingWork succeeds reached
  have leaves : step.isWingWork = false := by cases step <;> first | rfl | cases reads
  have alike := execute_congr files thinned.wiring leaves
  have error := congrArg Outcome.error alike
  have output := congrArg Outcome.output alike
  exact ⟨error.trans (error_run_cons.1 succeeds).1, output⟩

def prepared : Session :=
  { stranded with placements := {} }

def pinsFile : Files :=
  ⟨fun path =>
    if path = "pins.ucf" then .ok (some "NET A0 LOC=\"P1\";\n".toUTF8) else .error .notFound⟩

theorem run_kept_transform :
    let before : Plan := [(.placeWing "LED->A", true), (.generate "all", true)]
    let step : Step := .transform "pins.ucf"
    let plan : Plan := before ++ [(step, false)]
    (∀ step ∈ plan.leftOut, step.isWingWork = true) ∧
      (run pinsFile prepared plan.steps).error = none ∧
      (execute pinsFile prepared step).error = none ∧
      (execute pinsFile prepared step).output = "NET A0 LOC=\"P1\";\n" ∧
      (execute pinsFile prepared step).output =
        (execute pinsFile (run pinsFile prepared before.steps).session step).output := by
  intro before step plan
  have wingWork : ∀ step ∈ plan.leftOut, step.isWingWork = true := by decide +kernel
  have succeeds : (run pinsFile prepared plan.steps).error = none := by decide +kernel
  have written : (execute pinsFile prepared step).output = "NET A0 LOC=\"P1\";\n" := by
    decide +kernel
  obtain ⟨error, output⟩ :=
    (run_kept pinsFile prepared plan wingWork succeeds).2 before step [] rfl rfl rfl
  exact ⟨wingWork, succeeds, error, written, output⟩

/-- An unknown wing that was replaced is met when the step that replaced it is left out. -/
theorem kept_steps_may_fail :
    let plan : Plan :=
      [(.placeWing "Nope->A", false), (.placeWing "LED->A", true), (.generate "all", false)]
    (∀ step ∈ plan.leftOut, step.isWingWork = true) ∧
      (run noFiles prepared plan.steps).error = none ∧
      (run noFiles prepared plan.kept).error = some (.unknownWing "Nope") := by
  decide +kernel

end Session

end Pinout
