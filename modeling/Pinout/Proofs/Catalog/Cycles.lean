import Pinout.Proofs.Catalog.History

/-! # Every cycle is cut once

Linking follows the parents that names resolve to, and cuts where a walk comes back to a board that
it has passed. What a walk has passed leads to where it stands, so the board cut there is on a cycle
of the parents that are left. Of those none was cut before, and a board has one parent only, so no
other board of that cycle was cut either. That some board of each cycle is cut follows from what is
left, where following parents always comes to an end.
-/

namespace Pinout.Catalog

namespace Pruning

/-- The boards cut so far have lost their parents, and no other boards have. They are on cycles, no
two of them on the same one. -/
structure Cuts (original : BoardId → Option BoardId) (pruning : Pruning) : Prop where
  parent : ∀ id, pruning.parent id = if id ∈ pruning.cut then none else original id
  nodup : pruning.cut.Nodup
  onCycle : ∀ id ∈ pruning.cut, OnCycle original id
  apart : ∀ id ∈ pruning.cut, ∀ other ∈ pruning.cut, Leads original id other → other = id

variable {original : BoardId → Option BoardId} {pruning : Pruning} {start current id : BoardId}

theorem Cuts.within (cuts : Cuts original pruning) (id above : BoardId)
    (here : pruning.parent id = some above) : original id = some above := by
  rw [cuts.parent] at here
  exact (Option.ite_none_left_eq_some.1 here).2

theorem Cuts.not_onCycle (cuts : Cuts original pruning) (member : id ∈ pruning.cut) :
    ¬ OnCycle pruning.parent id := by
  intro cycle
  obtain ⟨above, here, -⟩ := cycle.exists_parent
  rw [cuts.parent, if_pos member] at here
  cases here

theorem Cuts.cutAt (cuts : Cuts original pruning) (cycle : OnCycle pruning.parent current) :
    Cuts original (pruning.cutAt current) := by
  have onCycle : OnCycle original current := cycle.mono cuts.within
  -- the cycle that is closed here is also one of the original parents, which do not leave it
  have whole {other : BoardId} (member : other ∈ pruning.cut) : ¬ Leads original current other :=
    fun leads => cuts.not_onCycle member (cycle.of_leads cuts.within leads)
  constructor
  · intro id
    rw [parent_cutAt, without, cuts.parent]
    by_cases same : id = current <;> simp [Pruning.cutAt, same]
  · exact List.nodup_cons.2 ⟨fun member => whole member .refl, cuts.nodup⟩
  · exact List.forall_mem_cons.2 ⟨onCycle, cuts.onCycle⟩
  · intro id member other member' leads
    rcases List.mem_cons.1 member with rfl | earlier <;>
      rcases List.mem_cons.1 member' with rfl | earlier'
    · rfl
    · exact absurd leads (whole earlier')
    · exact absurd ((cuts.onCycle id earlier).leads_back leads) (whole earlier)
    · exact cuts.apart id earlier other earlier' leads

theorem Cuts.walk (cuts : Cuts original pruning) (walking : Walking pruning start current)
    (fuel : Nat) : Cuts original (walk start fuel current pruning) := by
  induction fuel generalizing current pruning with
  | zero => exact cuts
  | succ fuel ih =>
    rw [Pruning.walk]
    split
    · exact cuts
    · next above step =>
      split
      · have passed : Cuts original (pruning.pass above start) :=
          ⟨cuts.parent, cuts.nodup, cuts.onCycle, cuts.apart⟩
        exact ih passed (walking.goOn step)
      · next earlier here =>
        split
        · next same =>
          -- the parent was passed on the way to its child
          have back : Leads pruning.parent above current := walking.leads above (same ▸ here)
          exact cuts.cutAt (.head' step back)
        · exact cuts

theorem Cuts.cutFrom (cuts : Cuts original pruning) (settled : Settled pruning) (id : BoardId) :
    Cuts original (pruning.cutFrom id) := by
  unfold Pruning.cutFrom
  split
  · exact cuts
  · next fresh =>
    have absent : id ∉ pruning.passed := fun member => fresh (Std.TreeMap.contains_iff_mem.2 member)
    have passed : Cuts original (pruning.pass id id) :=
      ⟨cuts.parent, cuts.nodup, cuts.onCycle, cuts.apart⟩
    exact passed.walk (settled.begin absent) _

theorem Cuts.foldl (cuts : Cuts original pruning) (settled : Settled pruning) {ids : List BoardId}
    (inside : ∀ id ∈ ids, id < pruning.parents.size) :
    Cuts original (ids.foldl Pruning.cutFrom pruning) := by
  induction ids generalizing pruning with
  | nil => exact cuts
  | cons id ids ih =>
    obtain ⟨here, later⟩ := List.forall_mem_cons.1 inside
    have size := (extends_cutFrom pruning id).size
    exact ih (cuts.cutFrom settled id) (settled_cutFrom settled here)
      fun id member => size ▸ later id member

/-- Where following the parents that are left always ends, no cycle was missed. -/
theorem Cuts.exists_of_onCycle (cuts : Cuts original pruning)
    (rooted : ∀ id, Rooted pruning.parent id) (cycle : OnCycle original id) :
    ∃ other ∈ pruning.cut, Leads original id other := by
  by_contra none
  push Not at none
  have same {here : BoardId} (passed : Leads original id here) :
      pruning.parent here = original here := by
    rw [cuts.parent, if_neg fun member => none here member passed]
  -- the boards of the cycle would all have kept their parents
  have kept {other : BoardId}
      (leads : Relation.TransGen (fun id above => original id = some above) id other) :
      Relation.TransGen (fun id above => pruning.parent id = some above) id other := by
    induction leads with
    | single step => exact .single ((same .refl).trans step)
    | tail further step ih => exact ih.tail ((same further.to_reflTransGen).trans step)
  exact (rooted id).not_transGen (kept cycle)

end Pruning

theorem cutCycles_cuts {parents : Array (Option BoardId)} {original : BoardId → Option BoardId}
    (same : ∀ id : BoardId, parents[id]?.join = original id) :
    let left := (cutCycles parents).1
    let cut := (cutCycles parents).2
    (∀ id : BoardId, left[id]?.join = if id ∈ cut then none else original id) ∧ cut.Nodup ∧
      (∀ id ∈ cut, OnCycle original id) ∧
      ∀ id, OnCycle original id → ∃! other, other ∈ cut ∧ SameCycle original id other := by
  have nothing : Pruning.Cuts original { parents } :=
    ⟨fun id => by simp [Pruning.parent, same], List.nodup_nil, nofun, nofun⟩
  have cuts : Pruning.Cuts original ((List.range parents.size).foldl Pruning.cutFrom { parents }) :=
    nothing.foldl (Pruning.settled_nil parents) (by simp)
  have rooted := (cutCycles_spec parents).2.2
  simp only [cutCycles, List.mem_reverse, List.nodup_reverse] at rooted ⊢
  generalize (List.range parents.size).foldl Pruning.cutFrom { parents } = pruning at cuts rooted ⊢
  refine ⟨cuts.parent, cuts.nodup, cuts.onCycle, fun id cycle => ?_⟩
  obtain ⟨other, member, leads⟩ := cuts.exists_of_onCycle rooted cycle
  refine ⟨other, ⟨member, cycle.sameCycle leads⟩, ?_⟩
  rintro third ⟨member', same⟩
  exact cuts.apart other member third member'
    ((cycle.leads_back leads).trans same.1.to_reflTransGen)

def resolvedParent? (catalog : Catalog) (id : BoardId) : Option BoardId :=
  (catalog.board? id).bind catalog.resolveParent

theorem join_resolved (catalog : Catalog) (id : BoardId) :
    catalog.resolved[id]?.join = catalog.resolvedParent? id := by
  simp only [resolved, Array.getElem?_map, resolvedParent?, board?]
  cases catalog.entries[id]? <;> rfl

theorem board?_link (catalog : Catalog) : catalog.link.1.board? = catalog.board? := by
  have size := catalog.size_cutCycles_resolved
  rw [link_fst]
  funext id
  by_cases inside : id < catalog.entries.size
  · have inside' : id < (cutCycles catalog.resolved).1.size := size ▸ inside
    simp [board?, setParents, inside, inside']
  · have outside := Nat.le_of_not_lt inside
    simp [board?, setParents, outside]

theorem relink_snd (catalog : Catalog) :
    catalog.relink.2 =
      if catalog.link.2 = [] then .ok ()
      else
        .error (.inheritanceCycle (catalog.link.2.map fun id => (catalog.board id).primaryName)) := by
  have names (id : BoardId) : catalog.link.1.board id = catalog.board id := by
    rw [board, board?_link, board]
  simp only [relink]
  cases cut : catalog.link.2 with
  | nil => rfl
  | cons first rest => simp [cycleError?, names]

/-- Linking fails just if names resolve to parents that form a cycle. It takes the parent of one
board on each cycle, leaves all others the parents that their names resolve to, and reports the
boards without theirs by their primary names. -/
theorem relink_cuts_each_cycle_once (catalog : Catalog) :
    let resolved := catalog.resolvedParent?
    ((∃ error, catalog.relink.2 = .error error) ↔ ∃ id, OnCycle resolved id) ∧
      ∃ cut : List BoardId, cut.Nodup ∧ (∀ id ∈ cut, OnCycle resolved id) ∧
        (∀ id, OnCycle resolved id → ∃! other, other ∈ cut ∧ SameCycle resolved id other) ∧
        (∀ id, catalog.relink.1.parent? id = if id ∈ cut then none else resolved id) ∧
        ∀ error, catalog.relink.2 = .error error →
          error = .inheritanceCycle (cut.map fun id => (catalog.board id).primaryName) := by
  intro resolved
  obtain ⟨parents, nodup, onCycle, once⟩ := cutCycles_cuts catalog.join_resolved
  change ∀ id ∈ catalog.link.2, OnCycle resolved id at onCycle
  refine ⟨?_, catalog.link.2, nodup, onCycle, once, fun id => ?_, fun error failed => ?_⟩
  · rw [relink_snd]
    constructor
    · rintro ⟨error, failed⟩
      split at failed
      · cases failed
      · next cut =>
        obtain ⟨id, member⟩ := List.exists_mem_of_ne_nil _ cut
        exact ⟨id, onCycle id member⟩
    · rintro ⟨id, cycle⟩
      obtain ⟨other, ⟨member, -⟩, -⟩ := once id cycle
      exact ⟨_, if_neg (List.ne_nil_of_mem member)⟩
  · rw [relink_fst, link_fst, parent?_setParents catalog catalog.size_cutCycles_resolved]
    exact parents id
  · rw [relink_snd] at failed
    split at failed <;> cases failed
    rfl

/-- A wing has its parent among wings or else among boards, and a board among boards only. -/
example :
    let boards : List Board := [{ names := ["A"] }, { names := ["B"], parentName := some "W" }]
    let wings : List Board := [{ names := ["W"], parentName := some "a" },
      { names := ["A"], parentName := some "A" }]
    let catalog := ((({} : Catalog).registerAll .board boards).1.registerAll .wing wings).1
    (List.range 4).map catalog.resolvedParent? = [none, none, some 3, some 3] := by
  decide +kernel

end Pinout.Catalog
