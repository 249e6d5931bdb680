import Pinout.Proofs.Catalog.History
import Pinout.Proofs.Definition.Joining

/-! # Loading one text after another

Linking sets all parents anew, from the names of boards and from what the boards say. So nothing is
left of an earlier link, and boards may be registered in one go or with links in between. What is
stacked is not looked at either, so wings that are plugged in make no difference to what is loaded.
-/

namespace Pinout.Catalog

def unlinked (catalog : Catalog) : Catalog :=
  { catalog with entries := catalog.entries.map fun entry => { entry with parent := none } }

variable (catalog : Catalog)

theorem setParents_unlinked (parents : Array (Option BoardId)) :
    catalog.unlinked.setParents parents = catalog.setParents parents := by
  simp only [setParents, unlinked, Array.zipWith_map_left]

theorem unlinked_setParents {parents : Array (Option BoardId)}
    (size : parents.size = catalog.entries.size) :
    (catalog.setParents parents).unlinked = catalog.unlinked := by
  have entries : (catalog.setParents parents).unlinked.entries = catalog.unlinked.entries := by
    apply Array.ext
    · simp [unlinked, setParents, size]
    · intro id _ _
      simp [unlinked, setParents]
  simp only [unlinked, setParents] at entries ⊢
  rw [entries]

theorem resolved_unlinked : catalog.unlinked.resolved = catalog.resolved :=
  Array.map_map

theorem link_unlinked : catalog.unlinked.link.1 = catalog.link.1 := by
  rw [link_fst, link_fst, resolved_unlinked, setParents_unlinked]

theorem unlinked_link : catalog.link.1.unlinked = catalog.unlinked := by
  rw [link_fst, unlinked_setParents _ catalog.size_cutCycles_resolved]

theorem unlinked_register (kind : BoardKind) (board : Board) :
    (catalog.register kind board).1.unlinked = (catalog.unlinked.register kind board).1 := by
  cases kind <;> simp [register, unlinked, Array.map_push]

theorem unlinked_registerAll (kind : BoardKind) (boards : List Board) :
    (catalog.registerAll kind boards).1.unlinked =
      (catalog.unlinked.registerAll kind boards).1 := by
  induction boards generalizing catalog with
  | nil => rfl
  | cons board boards ih =>
    simp only [registerAll]
    rw [ih, unlinked_register]

theorem registerAll_append (kind : BoardKind) (boards more : List Board) :
    (catalog.registerAll kind (boards ++ more)).1 =
      ((catalog.registerAll kind boards).1.registerAll kind more).1 := by
  induction boards generalizing catalog with
  | nil => rfl
  | cons board boards ih => exact ih _

/-- A link that is followed by another one may be left out. -/
theorem link_registerAll_link (kind : BoardKind) (boards : List Board) :
    (catalog.link.1.registerAll kind boards).1.link.1 =
      (catalog.registerAll kind boards).1.link.1 := by
  rw [← link_unlinked, unlinked_registerAll, unlinked_link, ← unlinked_registerAll, link_unlinked]

theorem wired_register (kind : BoardKind) (board : Board) :
    (catalog.register kind board).1.wired = (catalog.wired.register kind board.wired).1 := by
  cases kind <;> simp [register, wired, Array.map_push, Board.wired]

theorem resolved_wired : catalog.wired.resolved = catalog.resolved :=
  Array.map_map

theorem wired_setParents (parents : Array (Option BoardId)) :
    (catalog.setParents parents).wired = catalog.wired.setParents parents := by
  simp only [setParents, wired, Array.zipWith_map_left, Array.map_zipWith]

theorem wired_link : catalog.link.1.wired = catalog.wired.link.1 := by
  rw [link_fst, link_fst, wired_setParents, resolved_wired]

theorem link_wired_snd : catalog.wired.link.2 = catalog.link.2 :=
  congrArg (fun parents => (cutCycles parents).2) catalog.resolved_wired

theorem cycleError?_wired (cut : List BoardId) (fault : Option Definition.Diagnostic) :
    catalog.wired.cycleError? cut fault = catalog.cycleError? cut fault := by
  simp only [cycleError?, board_wired]
  rfl

theorem load_snd (kind : BoardKind) (source : String) :
    (catalog.load kind source).2 =
      let reading := Definition.read source
      let registered := catalog.registerAll kind reading.boards
      match registered.1.link.1.cycleError? registered.1.link.2 reading.fault with
      | some error => .error error
      | none => .ok ⟨registered.2, reading.fault⟩ := by
  simp only [load]
  cases (catalog.registerAll kind (Definition.read source).boards).1.link.1.cycleError?
      (catalog.registerAll kind (Definition.read source).boards).1.link.2
      (Definition.read source).fault <;> rfl

section

variable {catalog} {catalog' : Catalog}

theorem register_congr (same : catalog.wired = catalog'.wired) (kind : BoardKind) (board : Board) :
    (catalog.register kind board).1.wired = (catalog'.register kind board).1.wired ∧
      (catalog.register kind board).2 = (catalog'.register kind board).2 := by
  constructor
  · rw [wired_register, wired_register, same]
  · have size : catalog.entries.size = catalog'.entries.size := by
      rw [← size_wired, same, size_wired]
    cases kind <;> exact size

theorem registerAll_congr (same : catalog.wired = catalog'.wired) (kind : BoardKind)
    (boards : List Board) :
    (catalog.registerAll kind boards).1.wired = (catalog'.registerAll kind boards).1.wired ∧
      (catalog.registerAll kind boards).2 = (catalog'.registerAll kind boards).2 := by
  induction boards generalizing catalog catalog' with
  | nil => exact ⟨same, rfl⟩
  | cons board boards ih =>
    obtain ⟨first, id⟩ := register_congr same kind board
    obtain ⟨later, ids⟩ := ih first
    exact ⟨later, congrArg₂ List.cons id ids⟩

/-- What is loaded and what is wrong with it does not depend on what is stacked. -/
theorem load_congr (same : catalog.wired = catalog'.wired) (kind : BoardKind) (source : String) :
    (catalog.load kind source).1.wired = (catalog'.load kind source).1.wired ∧
      (catalog.load kind source).2 = (catalog'.load kind source).2 := by
  obtain ⟨registered, ids⟩ := registerAll_congr same kind (Definition.read source).boards
  constructor
  · rw [load_fst, load_fst, wired_link, wired_link, registered]
  · have cut : (catalog.registerAll kind (Definition.read source).boards).1.link.2 =
        (catalog'.registerAll kind (Definition.read source).boards).1.link.2 := by
      rw [← link_wired_snd, registered, link_wired_snd]
    simp only [load_snd, ids, cut]
    rw [← cycleError?_wired, wired_link, registered, ← wired_link, cycleError?_wired]

/-- A name that is registered again leads elsewhere, but no name is lost. -/
theorem contains_register {kind : BoardKind} {name : String}
    (known : catalog.contains kind name = true) (kind' : BoardKind) (board : Board) :
    (catalog.register kind' board).1.contains kind name = true := by
  cases kind <;> cases kind' <;> simp only [contains, find?, registry, register] at known ⊢
  case board.wing | wing.board => exact known
  all_goals
    rw [Registry.find?_insert]
    split
    · rfl
    · exact known

theorem contains_load {kind : BoardKind} {name : String}
    (known : catalog.contains kind name = true) (kind' : BoardKind) (source : String) :
    (catalog.load kind' source).1.contains kind name = true := by
  -- linking leaves the registries alone
  have all (boards : List Board) : (catalog.registerAll kind' boards).1.contains kind name := by
    induction boards generalizing catalog with
    | nil => exact known
    | cons board boards ih => exact ih (contains_register known kind' board)
  rw [load_fst]
  exact all _

end

/-- A text behind a complete one, on the next lines, is read and loaded as if it stood alone. Its
fault, if it has one, is the same complaint behind the text in front and the line feed. -/
theorem read_and_load_join (source more : String)
    (complete : (Definition.read source).fault = none) :
    let joined := source ++ "\n" ++ more
    (Definition.read joined).boards =
        (Definition.read source).boards ++ (Definition.read more).boards ∧
      (Definition.read joined).fault = (Definition.read more).fault.map (fun fault =>
        .ofSource joined (fault.offset + (Text.byteLength source.toList + 1)) fault.complaint) ∧
      ∀ (catalog : Catalog) (kind : BoardKind),
        (catalog.load kind joined).1 = ((catalog.load kind source).1.load kind more).1 := by
  intro joined
  have read := Definition.read_join complete more
  refine ⟨congrArg (·.boards) read, congrArg (·.fault) read, fun catalog kind => ?_⟩
  rw [load_fst, load_fst, load_fst, link_registerAll_link, ← registerAll_append]
  exact congrArg (fun boards => (catalog.registerAll kind boards).1.link.1)
    (congrArg (·.boards) read)

theorem read_and_load_join_comment :
    let source := "One \x7b A : P1, P2 \x7d # a comment to the end"
    let more := "Two : One \x7b B : Q1 \x7d\nThree \x7b"
    let joined := source ++ "\n" ++ more
    (Definition.read source).fault = none ∧
      (Definition.read joined).boards =
        (Definition.read source).boards ++ (Definition.read more).boards ∧
      (Definition.read joined).fault = (Definition.read more).fault.map (fun fault =>
        .ofSource joined (fault.offset + (Text.byteLength source.toList + 1)) fault.complaint) ∧
      ∀ (catalog : Catalog) (kind : BoardKind),
        (catalog.load kind joined).1 = ((catalog.load kind source).1.load kind more).1 := by
  intro source more joined
  have complete : (Definition.read source).fault = none := by decide +kernel
  exact ⟨complete, read_and_load_join source more complete⟩

end Pinout.Catalog
