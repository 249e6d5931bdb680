import Pinout.Catalog.Loading
import Pinout.Proofs.Catalog.Pruning
import Pinout.Proofs.Wing.Wiring

/-! # Histories of a catalog

A catalog comes about by changes to an empty one. In each of them names lead to boards, parents are
boards, and all boards are rooted: only linking sets parents, and it cuts all cycles.
-/

namespace Pinout

inductive Change where
  | register (kind : BoardKind) (board : Board)
  | load (kind : BoardKind) (source : String)
  | link
  | reparent (id : BoardId) (parentName : Option String)
  | plug (board wing : BoardId) (token : String)
deriving Repr, DecidableEq

theorem Registry.find?_insert (registry : Registry) (names : List String) (id : BoardId)
    (name : String) :
    (registry.insert names id).find? name =
      if names.any (sameName · name) then some id else registry.find? name := by
  have last : ((names.map (·, id)).reverse.find? fun pair => sameName pair.1 name).map (·.2) =
      (names.reverse.find? (sameName · name)).map fun _ => id := by
    rw [← List.map_reverse, List.find?_map, Option.map_map]
    rfl
  rw [find?, insert, NameIndex.find?_insertAll, last]
  cases found : names.reverse.find? (sameName · name) with
  | none =>
    have absent : names.any (sameName · name) = false := by simpa using found
    rw [absent]
    rfl
  | some name' =>
    have here := List.find?_some found
    have member : names.any (sameName · name) = true :=
      List.any_eq_true.2 ⟨name', List.mem_reverse.1 (List.mem_of_find?_eq_some found), here⟩
    rw [member]
    rfl

namespace Catalog

/-- The catalog with a change made, whether or not an error is reported. -/
def apply (catalog : Catalog) : Change → Catalog
  | .register kind board => (catalog.register kind board).1
  | .load kind source => (catalog.load kind source).1
  | .link => catalog.relink.1
  | .reparent id parentName => catalog.modifyBoard id fun board => { board with parentName }
  | .plug board wing token => (Wing.plug catalog board wing token).1

def after (changes : List Change) : Catalog :=
  changes.foldl apply {}

/-- Names lead to boards, parents are boards, and no board is on a cycle or below one. -/
structure Sound (catalog : Catalog) : Prop where
  found : ∀ kind name id, catalog.find? kind name = some id → id < catalog.entries.size
  inRange : ∀ id above, catalog.parent? id = some above → above < catalog.entries.size
  rooted : ∀ id, Rooted catalog.parent? id

variable {catalog catalog' : Catalog}

theorem Sound.of_eq (sound : Sound catalog) (size : catalog'.entries.size = catalog.entries.size)
    (find : catalog'.find? = catalog.find?) (parent : catalog'.parent? = catalog.parent?) :
    Sound catalog' where
  found := by rw [find, size]; exact sound.found
  inRange := by rw [parent, size]; exact sound.inRange
  rooted := by rw [parent]; exact sound.rooted

theorem sound_empty : Sound {} where
  found kind name id h := by
    cases kind <;> simp [find?, registry, Registry.find?] at h
  inRange id above h := by simp [parent?] at h
  rooted id := .root (by simp [parent?])

theorem parent?_register (catalog : Catalog) (kind : BoardKind) (board : Board) :
    (catalog.register kind board).1.parent? = catalog.parent? := by
  funext id
  have pushed (entry : Entry) (orphan : entry.parent = none) :
      (catalog.entries.push entry)[id]?.bind (·.parent) = catalog.entries[id]?.bind (·.parent) := by
    rw [Array.getElem?_push]
    split
    · next last => simp [last, orphan]
    · rfl
  cases kind <;> exact pushed _ rfl

theorem size_register (catalog : Catalog) (kind : BoardKind) (board : Board) :
    (catalog.register kind board).1.entries.size = catalog.entries.size + 1 := by
  cases kind <;> exact Array.size_push _

/-- A name leads to the board registered, or where it led before. -/
theorem find?_register {kind kind' : BoardKind} {board : Board} {name : String} {id : BoardId}
    (h : (catalog.register kind board).1.find? kind' name = some id) :
    id = catalog.entries.size ∨ catalog.find? kind' name = some id := by
  cases kind <;> cases kind' <;> simp only [find?, registry, register] at h ⊢
  case board.wing | wing.board => exact .inr h
  all_goals
    rw [Registry.find?_insert] at h
    split at h
    · exact .inl (Option.some.inj h).symm
    · exact .inr h

theorem Sound.register (sound : Sound catalog) (kind : BoardKind) (board : Board) :
    Sound (catalog.register kind board).1 where
  found kind' name id h := by
    rw [size_register]
    rcases find?_register h with rfl | earlier
    · exact Nat.lt_succ_self _
    · exact Nat.lt_succ_of_lt (sound.found kind' name id earlier)
  inRange id above h := by
    rw [parent?_register] at h
    rw [size_register]
    exact Nat.lt_succ_of_lt (sound.inRange id above h)
  rooted := by
    rw [parent?_register]
    exact sound.rooted

theorem Sound.registerAll (sound : Sound catalog) (kind : BoardKind) (boards : List Board) :
    Sound (catalog.registerAll kind boards).1 := by
  induction boards generalizing catalog with
  | nil => exact sound
  | cons board boards ih => exact ih (sound.register kind board)

/-- A parent is looked for among the boards of the child's own kind, and where there is none of its
name among boards. -/
theorem resolveParent_eq_some_iff {board : Board} {id : BoardId} :
    catalog.resolveParent board = some id ↔
      ∃ name, board.parentName = some name ∧
        let own := catalog.find? (if board.isWing then .wing else .board) name
        own = some id ∨ own = none ∧ catalog.find? .board name = some id := by
  simp only [resolveParent, Option.bind_eq_some_iff, Option.or_eq_some_iff]

theorem resolveParent_lt (sound : Sound catalog) {board : Board} {id : BoardId}
    (h : catalog.resolveParent board = some id) : id < catalog.entries.size := by
  obtain ⟨name, _, own | ⟨_, other⟩⟩ := resolveParent_eq_some_iff.1 h
  · exact sound.found _ name id own
  · exact sound.found .board name id other

theorem size_setParents (catalog : Catalog) {parents : Array (Option BoardId)}
    (size : parents.size = catalog.entries.size) :
    (catalog.setParents parents).entries.size = catalog.entries.size := by
  simp [setParents, size]

theorem parent?_setParents (catalog : Catalog) {parents : Array (Option BoardId)}
    (size : parents.size = catalog.entries.size) :
    (catalog.setParents parents).parent? = fun id => parents[id]?.join := by
  funext id
  by_cases inside : id < catalog.entries.size
  · have inside' : id < parents.size := size ▸ inside
    simp [parent?, setParents, inside, inside']
  · have outside : parents.size ≤ id := size ▸ Nat.le_of_not_lt inside
    simp [parent?, setParents, outside]

def resolved (catalog : Catalog) : Array (Option BoardId) :=
  catalog.entries.map fun entry => catalog.resolveParent entry.board

theorem link_fst (catalog : Catalog) :
    catalog.link.1 = catalog.setParents (cutCycles catalog.resolved).1 :=
  rfl

theorem size_cutCycles_resolved (catalog : Catalog) :
    (cutCycles catalog.resolved).1.size = catalog.entries.size := by
  rw [(cutCycles_spec catalog.resolved).1, resolved, Array.size_map]

theorem resolved_lt (sound : Sound catalog) {id above : BoardId}
    (h : catalog.resolved[id]?.join = some above) : above < catalog.resolved.size := by
  rw [resolved, Array.size_map]
  rw [resolved, Array.getElem?_map, Option.join_eq_some_iff, Option.map_eq_some_iff] at h
  obtain ⟨entry, _, h⟩ := h
  exact resolveParent_lt sound h

theorem Sound.link (sound : Sound catalog) : Sound catalog.link.1 := by
  obtain ⟨size, kept, rooted⟩ := cutCycles_spec catalog.resolved
  have size' := catalog.size_cutCycles_resolved
  rw [link_fst]
  constructor
  · rw [size_setParents catalog size']
    exact sound.found
  · rw [size_setParents catalog size', parent?_setParents catalog size']
    intro id above h
    -- a parent that is left is the one its name leads to
    rcases kept id with same | gone
    · rw [← size', size]
      exact resolved_lt sound (same.symm.trans h)
    · cases gone.symm.trans h
  · rw [parent?_setParents catalog size']
    exact rooted

theorem relink_fst (catalog : Catalog) : catalog.relink.1 = catalog.link.1 := by
  simp only [relink]
  split <;> rfl

theorem load_fst (catalog : Catalog) (kind : BoardKind) (source : String) :
    (catalog.load kind source).1 =
      (catalog.registerAll kind (Definition.read source).boards).1.link.1 := by
  simp only [load]
  split <;> rfl

theorem parent?_modifyBoard (catalog : Catalog) (id : BoardId) (change : Board → Board) :
    (catalog.modifyBoard id change).parent? = catalog.parent? := by
  funext id'
  simp only [parent?, modifyBoard, Array.getElem?_modify]
  split
  · cases catalog.entries[id']? <;> rfl
  · rfl

theorem Sound.modifyBoard (sound : Sound catalog) (id : BoardId) (change : Board → Board) :
    Sound (catalog.modifyBoard id change) :=
  sound.of_eq Array.size_modify rfl (parent?_modifyBoard catalog id change)

/-- Soundness does not depend on what is stacked. -/
theorem Sound.of_wired (sound : Sound catalog) (same : catalog'.wired = catalog.wired) :
    Sound catalog' := by
  have find : catalog'.wired.find? = catalog.wired.find? := congrArg find? same
  have parent (catalog : Catalog) : catalog.wired.parent? = catalog.parent? :=
    funext catalog.parent?_wired
  refine sound.of_eq ?_ find ?_
  · rw [← size_wired catalog', same, size_wired]
  · rw [← parent catalog', same, parent]

theorem Sound.apply (sound : Sound catalog) (change : Change) : Sound (catalog.apply change) := by
  cases change with
  | register kind board => exact sound.register kind board
  | load kind source =>
    rw [Catalog.apply, load_fst]
    exact (sound.registerAll kind _).link
  | link =>
    rw [Catalog.apply, relink_fst]
    exact sound.link
  | reparent id parentName => exact sound.modifyBoard id fun board => { board with parentName }
  | plug board wing token => exact sound.of_wired (Wing.wired_plug catalog board wing token)

theorem sound_after (changes : List Change) : Sound (after changes) := by
  -- from any sound catalog, so that the induction can go on from where a change leads
  have run (catalog : Catalog) (sound : Sound catalog) :
      Sound (changes.foldl Catalog.apply catalog) := by
    induction changes generalizing catalog with
    | nil => exact sound
    | cons change changes ih => exact ih _ (sound.apply change)
  exact run {} sound_empty

end Catalog

end Pinout
