import Pinout.Proofs.Catalog.Embedding
import Pinout.Proofs.Catalog.Growing

/-! # Loading one more text

Every load resolves all parents anew. Boards that were there before look for the same names, so what
they show can only change where a new board takes one of these names, and cycles that were cut
before are found and cut again: a load behind one that failed fails like it.
-/

namespace Pinout

def Definition.Reading.names (reading : Reading) : List String :=
  reading.boards.flatMap (·.names)

namespace Catalog

/-! ## Names that are taken -/

theorem isNamed_eq_false {boards : List Board} {name : String}
    (elsewhere : ∀ taken ∈ boards.flatMap (·.names), sameName taken name = false) :
    ∀ board ∈ boards, board.isNamed name = false :=
  fun board member => List.any_eq_false.2 fun taken here => by
    simp [elsewhere taken (List.mem_flatMap.2 ⟨board, member, here⟩)]

/-- A name that no new board takes leads where it led before. -/
theorem find?_registerAll_of_elsewhere (catalog : Catalog) (kind : BoardKind) {boards : List Board}
    {name : String} (elsewhere : ∀ taken ∈ boards.flatMap (·.names), sameName taken name = false)
    (kind' : BoardKind) :
    (catalog.registerAll kind boards).1.find? kind' name = catalog.find? kind' name := by
  rw [find?_registerAll, Board.lastNamed?_eq_none_iff.2 (isNamed_eq_false elsewhere)]
  simp

variable {catalog : Catalog} {kind : BoardKind} {source : String} {id : BoardId}

theorem board?_load_of_lt (inside : id < catalog.entries.size) :
    (catalog.load kind source).1.board? id = catalog.board? id := by
  rw [load_fst, board?_link, board?_registerAll, if_pos inside]

theorem board?_load_add {position : Nat} {board : Board}
    (here : (Definition.read source).boards[position]? = some board) :
    (catalog.load kind source).1.board? (catalog.entries.size + position) =
      some (board.ofKind kind) := by
  rw [load_fst, board?_link, board?_registerAll, if_neg (Nat.not_lt.2 (Nat.le_add_right _ _)),
    Nat.add_sub_cancel_left, here]
  rfl

/-- A board has the parent that its name resolves to unless a cycle is cut there. -/
theorem parent?_load (catalog : Catalog) (kind : BoardKind) (source : String) (id : BoardId) :
    (catalog.load kind source).1.parent? id =
      if id ∈ (catalog.load kind source).1.link.2 then none
      else (catalog.load kind source).1.resolvedParent? id := by
  rw [← parent?_link, load_fst, link_link]

theorem resolvedParent?_load (catalog : Catalog) (kind : BoardKind) (source : String) :
    (catalog.load kind source).1.resolvedParent? =
      (catalog.registerAll kind (Definition.read source).boards).1.resolvedParent? := by
  rw [load_fst, resolvedParent?_link]

/-- No new board takes a name that a board of the catalog has for its parent. -/
def LeavesParents (catalog : Catalog) (reading : Definition.Reading) : Prop :=
  ∀ entry ∈ catalog.entries, ∀ parent ∈ entry.board.parentName,
    ∀ name ∈ reading.names, sameName name parent = false

instance (catalog : Catalog) (reading : Definition.Reading) :
    Decidable (catalog.LeavesParents reading) :=
  inferInstanceAs (Decidable (∀ entry ∈ catalog.entries, ∀ parent ∈ entry.board.parentName,
    ∀ name ∈ reading.names, sameName name parent = false))

theorem LeavesParents.resolvedParent? (leaves : catalog.LeavesParents (Definition.read source))
    (kind : BoardKind) (inside : id < catalog.entries.size) :
    (catalog.load kind source).1.resolvedParent? id = catalog.resolvedParent? id := by
  rw [resolvedParent?_load, Catalog.resolvedParent?, board?_registerAll, if_pos inside,
    Catalog.resolvedParent?]
  obtain ⟨board, here⟩ := exists_board?_of_lt inside
  obtain ⟨entry, there, rfl⟩ := Option.map_eq_some_iff.1 here
  rw [here, Option.bind_some, Option.bind_some, resolveParent, resolveParent]
  refine Option.bind_congr fun parent wanted => ?_
  have elsewhere := leaves entry (Array.mem_of_getElem? there) parent wanted
  simp only [find?_registerAll_of_elsewhere catalog kind elsewhere]

/-! ## What is kept -/

/-- Boards keep their parents when a text is loaded that changes none of those resolved before. -/
theorem parent?_load_of_lt (loads : List Load)
    (same : ∀ id < (loaded loads).entries.size,
      ((loaded loads).load kind source).1.resolvedParent? id = (loaded loads).resolvedParent? id)
    (inside : id < (loaded loads).entries.size) :
    ((loaded loads).load kind source).1.parent? id = (loaded loads).parent? id := by
  rw [resolvedParent?_load] at same
  have size := (loaded loads).size_registerAll kind (Definition.read source).boards
  have kept := ((sound_loaded loads).link_grown (size ▸ Nat.le_add_right _ _) same).1 id inside
  rw [load_fst, kept, link_loaded]

/-- Whatever else a text has, be it cycles or a fault, and whatever comes of loading it: a board that
was there before shows what it showed if the text takes none of the names that boards before it have
for their parents. -/
theorem load_keeps_others (loads : List Load) (kind : BoardKind) (source : String)
    (leaves : (loaded loads).LeavesParents (Definition.read source)) :
    let before := loaded loads
    let after := (before.load kind source).1
    ∀ id < before.entries.size,
      after.board? id = before.board? id ∧ after.parent? id = before.parent? id ∧
        after.lineage id = before.lineage id ∧ after.buses id = before.buses id ∧
        after.busNames id = before.busNames id ∧ after.pins id = before.pins id ∧
        after.configs id = before.configs id ∧ after.header id = before.header id := by
  intro before after id inside
  have embeds : Embeds (fun id => id) before after := by
    constructor
    · intro id board here
      exact (board?_load_of_lt (lt_of_board? here)).trans here
    · intro id inside
      rw [Option.map_id']
      exact parent?_load_of_lt loads (fun id inside => leaves.resolvedParent? kind inside) inside
  have sound : Sound after := (sound_loaded loads).apply (.load kind source)
  have shows := embeds.showsAs (sound_loaded loads) sound (bare_loaded loads) inside
  exact ⟨shows.board, shows.parent.trans Option.map_id_apply,
    shows.lineage.trans (List.map_id _), shows.buses.trans (List.map_id _), shows.busNames,
    shows.pins.trans (List.map_id _), shows.configs, shows.header⟩

/-- A text whose boards form a cycle, which takes a name again and has a fault, behind one that
failed because of a cycle. -/
theorem load_keeps_others_cycle :
    let loads : List Load :=
      [⟨.board, "A : B \x7b X : P1 \x7d\nB : a \x7b Y : P2 \x7d\nLow : A \x7b Z : P3 \x7d"⟩]
    let source := "C : D \x7b \x7d\nD : C \x7b W : P4 \x7d\nLow : A \x7b V : P5 \x7d\nE \x7b"
    let before := loaded loads
    let after := (before.load .board source).1
    before.LeavesParents (Definition.read source) ∧
      (∃ error, (before.load .board source).2 = .error error) ∧ before.lineage 2 = [1, 0, 2] ∧
      ∀ id < before.entries.size,
        after.board? id = before.board? id ∧ after.parent? id = before.parent? id ∧
          after.lineage id = before.lineage id ∧ after.buses id = before.buses id ∧
          after.busNames id = before.busNames id ∧ after.pins id = before.pins id ∧
          after.configs id = before.configs id ∧ after.header id = before.header id := by
  intro loads source before after
  have leaves : before.LeavesParents (Definition.read source) := by decide +kernel
  have names : (match (before.load .board source).2 with
      | .error error => error.names
      | .ok _ => []) = ["B", "D"] := by
    decide +kernel
  refine ⟨leaves, ?_, by decide +kernel, load_keeps_others loads .board source leaves⟩
  cases result : (before.load .board source).2 with
  | error error => exact ⟨error, rfl⟩
  | ok summary =>
    rw [result] at names
    cases names

/-! ## Cycles that are found again -/

def outcome? (loads : List Load) : Option (Except CatalogError LoadSummary) :=
  loads.getLast?.map fun load => ((loaded loads.dropLast).load load.kind load.source).2

def cutNames (catalog : Catalog) : List String :=
  catalog.link.2.map fun id => (catalog.board id).primaryName

theorem cutNames_link (catalog : Catalog) : catalog.link.1.cutNames = catalog.cutNames := by
  rw [cutNames, link_link_snd, cutNames]
  refine List.map_congr_left fun id _ => ?_
  rw [board, board?_link, board]

theorem load_cutNames (catalog : Catalog) (kind : BoardKind) (source : String) :
    (catalog.load kind source).1.link.2 = [] ∧
        (∃ summary, (catalog.load kind source).2 = .ok summary) ∨
      (catalog.load kind source).1.link.2 ≠ [] ∧
        ∃ error, (catalog.load kind source).2 = .error error ∧
          error.names = (catalog.load kind source).1.cutNames := by
  rw [load_fst, cutNames_link, link_link_snd]
  rcases catalog.load_cases kind source with ⟨nothing, ok⟩ | failed
  · exact .inl ⟨nothing, _, ok⟩
  · exact .inr failed

/-- The last load has failed just if linking anew would cut cycles, and has reported these. -/
theorem outcome?_cases (loads : List Load) :
    (loaded loads).link.2 = [] ∧ (∀ error, outcome? loads ≠ some (.error error)) ∨
      (loaded loads).link.2 ≠ [] ∧ ∃ error, outcome? loads = some (.error error) ∧
        error.names = (loaded loads).cutNames := by
  rcases List.eq_nil_or_concat loads with rfl | ⟨earlier, load, rfl⟩
  · refine .inl ⟨?_, nofun⟩
    refine (link_snd_eq_nil_iff _).2 fun id cycle => ?_
    obtain ⟨above, here, -⟩ := cycle.exists_parent
    cases here
  · rw [List.concat_eq_append, loaded_concat]
    have last : outcome? (earlier ++ [load]) =
        some ((loaded earlier).load load.kind load.source).2 := by
      simp [outcome?]
    rw [last]
    rcases (loaded earlier).load_cutNames load.kind load.source with
      ⟨nothing, summary, ok⟩ | ⟨cut, error, failed, names⟩
    · exact .inl ⟨nothing, fun error failed => by cases ok.symm.trans (Option.some.inj failed)⟩
    · exact .inr ⟨cut, error, congrArg some failed, names⟩

/-- A text whose boards are on no cycles and change no parent that was resolved before adds no cut
to those that were made before. -/
theorem link_snd_load (loads : List Load)
    (acyclic : ∀ id, (loaded loads).entries.size ≤ id →
      ¬ OnCycle ((loaded loads).load kind source).1.resolvedParent? id)
    (same : ∀ id < (loaded loads).entries.size,
      ((loaded loads).load kind source).1.resolvedParent? id = (loaded loads).resolvedParent? id) :
    ((loaded loads).load kind source).1.link.2 = (loaded loads).link.2 := by
  rw [resolvedParent?_load] at acyclic same
  have size := (loaded loads).size_registerAll kind (Definition.read source).boards
  obtain ⟨later, cut, outside⟩ :=
    ((sound_loaded loads).link_grown (size ▸ Nat.le_add_right _ _) same).2
  obtain ⟨-, -, onCycle, -⟩ := cutCycles_cuts (join_resolved
    ((loaded loads).registerAll kind (Definition.read source).boards).1)
  have nothing : later = [] := List.eq_nil_iff_forall_not_mem.2 fun id member =>
    acyclic id (outside id member) (onCycle id (cut ▸ List.mem_append_right _ member))
  rw [load_fst, link_link_snd, cut, nothing, List.append_nil]

theorem lt_of_mem_link_snd {catalog : Catalog} (member : id ∈ catalog.link.2) :
    id < catalog.entries.size := by
  obtain ⟨-, -, onCycle, -⟩ := cutCycles_cuts catalog.join_resolved
  obtain ⟨above, here, -⟩ := (onCycle id member).exists_parent
  exact lt_of_resolvedParent? here

/-- A text whose boards are on no cycles and change no parent that was resolved before is loaded
without an error, unless the load before it has failed: then the same boards are reported again.
Either way the boards are in the catalog with the parents that their names resolve to, and the
boards before them keep theirs. -/
theorem load_fails_like_before (loads : List Load) (kind : BoardKind) (source : String)
    (acyclic : ∀ id, (loaded loads).entries.size ≤ id →
      ¬ OnCycle ((loaded loads).load kind source).1.resolvedParent? id)
    (same : ∀ id < (loaded loads).entries.size,
      ((loaded loads).load kind source).1.resolvedParent? id = (loaded loads).resolvedParent? id) :
    let before := loaded loads
    let after := (before.load kind source).1
    let result := (before.load kind source).2
    ((∃ summary, result = .ok summary) ↔ ∀ error, outcome? loads ≠ some (.error error)) ∧
      (∀ error, result = .error error →
        ∃ earlier, outcome? loads = some (.error earlier) ∧ error.names = earlier.names) ∧
      (∀ position board, (Definition.read source).boards[position]? = some board →
        after.board? (before.entries.size + position) = some (board.ofKind kind)) ∧
      (∀ id, before.entries.size ≤ id → after.parent? id = after.resolvedParent? id) ∧
      ∀ id < before.entries.size, after.parent? id = before.parent? id := by
  intro before after result
  have cut : after.link.2 = before.link.2 := link_snd_load loads acyclic same
  have names : after.cutNames = before.cutNames := by
    rw [cutNames, cut, cutNames]
    refine List.map_congr_left fun id member => ?_
    rw [board, board?_load_of_lt (lt_of_mem_link_snd member), board]
  have now := before.load_cutNames kind source
  rw [show (before.load kind source).1.link.2 = _ from cut,
    show (before.load kind source).1.cutNames = _ from names] at now
  have earlier := outcome?_cases loads
  refine ⟨?_, fun error failed => ?_, fun position board => board?_load_add, fun id outside => ?_,
    fun id inside => parent?_load_of_lt loads same inside⟩
  · rcases now with ⟨nothing, ok⟩ | ⟨some, error, failed, -⟩
    · exact iff_of_true ok (earlier.resolve_right fun h => h.1 nothing).2
    · obtain ⟨error', failed', -⟩ := (earlier.resolve_left fun h => some h.1).2
      refine iff_of_false ?_ fun h => h error' failed'
      rintro ⟨summary, ok⟩
      cases failed.symm.trans ok
  · rcases now with ⟨-, summary, ok⟩ | ⟨some, error', failed', here⟩
    · cases ok.symm.trans failed
    · cases failed'.symm.trans failed
      obtain ⟨error', failed', there⟩ := (earlier.resolve_left fun h => some h.1).2
      exact ⟨error', failed', here.trans there.symm⟩
  · -- the boards that are cut are among those before
    have kept : id ∉ after.link.2 := fun member =>
      Nat.not_lt.2 outside (lt_of_mem_link_snd (cut ▸ member))
    exact (before.parent?_load kind source id).trans (if_neg kept)

/-- Boards that are nobody's parents are on no cycle. -/
theorem not_onCycle_of_le {catalog : Catalog} {size : Nat}
    (inside : ∀ child < catalog.entries.size, ∀ above ∈ catalog.resolvedParent? child, above < size)
    (outside : size ≤ id) : ¬ OnCycle catalog.resolvedParent? id := by
  intro cycle
  obtain ⟨child, -, step⟩ := Relation.TransGen.tail'_iff.1 cycle
  exact Nat.not_lt.2 outside (inside child (lt_of_resolvedParent? step) id step)

def circular : List Load :=
  [⟨.board, "A : B \x7b X : P1 \x7d\nB : A \x7b Y : P2 \x7d"⟩]

theorem load_fails_like_before_circular :
    let before := loaded circular
    let source := "C : A \x7b Z : P3 \x7d\nD \x7b"
    let after := (before.load .board source).1
    let result := (before.load .board source).2
    (∀ id, before.entries.size ≤ id → ¬ OnCycle after.resolvedParent? id) ∧
      (∀ id < before.entries.size, after.resolvedParent? id = before.resolvedParent? id) ∧
      outcome? circular = some (.error (.inheritanceCycle ["B"])) ∧
      (∃ error, result = .error error ∧ error.names = ["B"]) ∧ after.parent? 2 = some 0 := by
  intro before source after result
  have acyclic (id : BoardId) (outside : before.entries.size ≤ id) :
      ¬ OnCycle after.resolvedParent? id :=
    not_onCycle_of_le (by decide +kernel) outside
  have same : ∀ id < before.entries.size, after.resolvedParent? id = before.resolvedParent? id := by
    decide +kernel
  have earlier : outcome? circular = some (.error (.inheritanceCycle ["B"])) := by decide +kernel
  obtain ⟨succeeds, names, -, parent, -⟩ :=
    load_fails_like_before circular .board source acyclic same
  refine ⟨acyclic, same, earlier, ?_, (parent 2 (by decide +kernel)).trans (by decide +kernel)⟩
  cases failed : result with
  | ok summary => exact absurd earlier (succeeds.1 ⟨summary, failed⟩ _)
  | error error =>
    obtain ⟨error', here, there⟩ := names error failed
    cases earlier.symm.trans here
    exact ⟨error, rfl, there⟩

/-- A cycle that was cut and reported is cut and reported again when a board is loaded that has
nothing to do with it. -/
theorem load_fails_on_earlier_cycle :
    let before := loaded circular
    let after := before.load .board "C \x7b Z : P3 \x7d"
    (∀ id, before.entries.size ≤ id → ¬ OnCycle after.1.resolvedParent? id) ∧
      (∀ id < before.entries.size, after.1.resolvedParent? id = before.resolvedParent? id) ∧
      after.2 = .error (.inheritanceCycle ["B"]) := by
  intro before after
  refine ⟨fun id outside => not_onCycle_of_le (by decide +kernel) outside, ?_, ?_⟩ <;>
    decide +kernel

end Catalog

end Pinout
