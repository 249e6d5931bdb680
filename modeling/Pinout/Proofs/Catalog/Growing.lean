import Pinout.Proofs.Catalog.Forest
import Pinout.Proofs.Catalog.Registering

/-! # Catalogs that grow

Walks begin at the boards in order, and the boards that were there before lead to one another only.
So walks from them pass and cut the same boards when there are more boards behind, whatever the fuel
is. A walk from a later board ends where it meets one of the earlier boards, as they are all passed
by then, and cuts later boards only. What is resolved as before thus keeps its cuts, old ones
included, and new cuts are reported behind them.
-/

namespace Pinout.Catalog

namespace Pruning

variable {pruning small large : Pruning} {start current above id : BoardId}

theorem walk_of_none (none : pruning.parent current = none) (fuel : Nat) :
    walk start fuel current pruning = pruning := by
  cases fuel with
  | zero => rfl
  | succ fuel =>
    rw [walk]
    split
    · rfl
    · next above step => cases none.symm.trans step

theorem walk_of_fresh (step : pruning.parent current = some above)
    (fresh : pruning.passed[above]? = none) (fuel : Nat) :
    walk start (fuel + 1) current pruning = walk start fuel above (pruning.pass above start) := by
  rw [walk, show pruning.parents[current]?.join = some above from step]
  simp only [fresh]
  rfl

theorem walk_of_passed {earlier : BoardId} (step : pruning.parent current = some above)
    (here : pruning.passed[above]? = some earlier) (fuel : Nat) :
    walk start (fuel + 1) current pruning =
      if earlier = start then pruning.cutAt current else pruning := by
  rw [walk, show pruning.parents[current]?.join = some above from step]
  simp only [here]
  rfl

/-- The same walks over some parents and over more of them. The fewer do not lead outside. -/
structure Grown (small large : Pruning) : Prop where
  size : small.parents.size ≤ large.parents.size
  parent : ∀ id < small.parents.size, large.parent id = small.parent id
  cut : large.cut = small.cut
  passed : large.passed = small.passed
  inside : ∀ id above, small.parent id = some above → above < small.parents.size

theorem Grown.pass (grown : Grown small large) (id start : BoardId) :
    Grown (small.pass id start) (large.pass id start) where
  size := grown.size
  parent := grown.parent
  cut := grown.cut
  passed := congrArg (·.insert id start) grown.passed
  inside := grown.inside

theorem Grown.cutAt (grown : Grown small large) (id : BoardId) :
    Grown (small.cutAt id) (large.cutAt id) where
  size := by
    rw [(extends_cutAt small id).size, (extends_cutAt large id).size]
    exact grown.size
  parent id' inside := by
    rw [(extends_cutAt small id).size] at inside
    rw [parent_cutAt, parent_cutAt, without, without, grown.parent id' inside]
  cut := congrArg (id :: ·) grown.cut
  passed := grown.passed
  inside id' above here := by
    rw [(extends_cutAt small id).size]
    rw [parent_cutAt] at here
    exact grown.inside id' above (Option.ite_none_left_eq_some.1 here).2

/-- A walk with enough fuel goes the same way with more fuel and more boards. -/
theorem Grown.walk (grown : Grown small large) {fuel fuel' : Nat} (more : fuel ≤ fuel')
    (enough : small.parent current = none ∨ (ahead small).card < fuel)
    (inside : current < small.parents.size) :
    Grown (walk start fuel current small) (walk start fuel' current large) := by
  induction fuel generalizing current small large fuel' with
  | zero =>
    have none : small.parent current = none := enough.resolve_right (Nat.not_lt_zero _)
    rw [walk_of_none none, walk_of_none ((grown.parent current inside).trans none)]
    exact grown
  | succ fuel ih =>
    obtain ⟨fuel', rfl⟩ := Nat.exists_eq_add_of_le' (Nat.le_of_add_left_le more)
    have same := grown.parent current inside
    cases step : small.parent current with
    | none =>
      rw [walk_of_none step, walk_of_none (same.trans step)]
      exact grown
    | some above =>
      cases here : small.passed[above]? with
      | none =>
        rw [walk_of_fresh step here, walk_of_fresh (same.trans step) (grown.passed ▸ here)]
        have inside' := grown.inside current above step
        have fewer : (ahead (small.pass above start)).card < (ahead small).card :=
          card_ahead_pass inside' (by simp [Std.TreeMap.mem_iff_isSome_getElem?, here])
        have enough : (ahead small).card < fuel + 1 := enough.resolve_left fun none => by
          cases none.symm.trans step
        exact ih (grown.pass above start) (Nat.le_of_succ_le_succ more) (.inr (by omega)) inside'
      | some earlier =>
        rw [walk_of_passed step here, walk_of_passed (same.trans step) (grown.passed ▸ here)]
        split
        · exact grown.cutAt current
        · exact grown

theorem Grown.cutFrom (grown : Grown small large) (inside : id < small.parents.size) :
    Grown (small.cutFrom id) (large.cutFrom id) := by
  unfold Pruning.cutFrom
  rw [grown.passed]
  split
  · exact grown
  · next fresh =>
    have absent : id ∉ small.passed := fun member => fresh (Std.TreeMap.contains_iff_mem.2 member)
    have begun := grown.pass id id
    rw [← grown.passed]
    have walked : Grown (Pruning.walk id small.parents.size id (small.pass id id))
        (Pruning.walk id large.parents.size id (large.pass id id)) :=
      begun.walk grown.size (.inr (card_ahead_lt inside absent)) inside
    simpa only [Pruning.pass, grown.passed] using walked

theorem Grown.foldl (grown : Grown small large) {ids : List BoardId}
    (inside : ∀ id ∈ ids, id < small.parents.size) :
    Grown (ids.foldl Pruning.cutFrom small) (ids.foldl Pruning.cutFrom large) := by
  induction ids generalizing small large with
  | nil => exact grown
  | cons id ids ih =>
    obtain ⟨here, later⟩ := List.forall_mem_cons.1 inside
    have size := (extends_cutFrom small id).size
    exact ih (grown.cutFrom here) fun id member => size ▸ later id member

/-- Parents are taken away from `size` on only. -/
structure Beyond (size : Nat) (before after : Pruning) : Prop where
  parent : ∀ id < size, after.parent id = before.parent id
  cut : ∃ later, after.cut = later ++ before.cut ∧ ∀ id ∈ later, size ≤ id

variable {size : Nat}

theorem beyond_refl (size : Nat) (pruning : Pruning) : Beyond size pruning pruning :=
  ⟨fun _ _ => rfl, [], rfl, nofun⟩

theorem Beyond.trans {first second third : Pruning} (h : Beyond size first second)
    (h' : Beyond size second third) : Beyond size first third where
  parent id inside := (h'.parent id inside).trans (h.parent id inside)
  cut := by
    obtain ⟨later, cut, after⟩ := h.cut
    obtain ⟨later', cut', after'⟩ := h'.cut
    refine ⟨later' ++ later, ?_, fun id member => ?_⟩
    · rw [cut', cut, List.append_assoc]
    · exact (List.mem_append.1 member).elim (after' id) (after id)

theorem beyond_cutAt (pruning : Pruning) (outside : size ≤ id) :
    Beyond size pruning (pruning.cutAt id) where
  parent id' inside := by
    rw [parent_cutAt, without_of_ne (Nat.lt_of_lt_of_le inside outside).ne]
  cut := ⟨[id], rfl, List.forall_mem_singleton.2 outside⟩

theorem beyond_walk (passed : ∀ id < size, id ∈ pruning.passed) (outside : size ≤ current)
    (fuel : Nat) : Beyond size pruning (walk start fuel current pruning) := by
  induction fuel generalizing current pruning with
  | zero => exact beyond_refl size pruning
  | succ fuel ih =>
    cases step : pruning.parent current with
    | none =>
      rw [walk_of_none step]
      exact beyond_refl size pruning
    | some above =>
      cases here : pruning.passed[above]? with
      | none =>
        rw [walk_of_fresh step here]
        -- a board that is not passed yet is none of the earlier ones
        have outside' : size ≤ above := by
          refine Nat.le_of_not_lt fun inside => ?_
          simpa [Std.TreeMap.mem_iff_isSome_getElem?, here] using passed above inside
        have kept := (extends_pass pruning above start).passed
        have further := ih (fun id inside => kept id (passed id inside)) outside'
        exact ⟨further.parent, further.cut⟩
      | some earlier =>
        rw [walk_of_passed step here]
        split
        · exact beyond_cutAt pruning outside
        · exact beyond_refl size pruning

theorem beyond_cutFrom (passed : ∀ id < size, id ∈ pruning.passed) (outside : size ≤ id) :
    Beyond size pruning (pruning.cutFrom id) := by
  unfold cutFrom
  split
  · exact beyond_refl size pruning
  · have kept := (extends_pass pruning id id).passed
    have walked : Beyond size (pruning.pass id id)
        (walk id pruning.parents.size id (pruning.pass id id)) :=
      beyond_walk (fun id inside => kept id (passed id inside)) outside _
    exact ⟨walked.parent, walked.cut⟩

theorem beyond_foldl (passed : ∀ id < size, id ∈ pruning.passed) {ids : List BoardId}
    (outside : ∀ id ∈ ids, size ≤ id) : Beyond size pruning (ids.foldl cutFrom pruning) := by
  induction ids generalizing pruning with
  | nil => exact beyond_refl size pruning
  | cons id ids ih =>
    obtain ⟨here, later⟩ := List.forall_mem_cons.1 outside
    have kept := (extends_cutFrom pruning id).passed
    exact (beyond_cutFrom passed here).trans
      (ih (fun id inside => kept id (passed id inside)) later)

end Pruning

/-- Parents keep their cuts when there are more boards that they do not lead to. -/
theorem cutCycles_grown {parents more : Array (Option BoardId)} (size : parents.size ≤ more.size)
    (same : ∀ id : BoardId, id < parents.size → more[id]?.join = parents[id]?.join)
    (inside : ∀ id above : BoardId, parents[id]?.join = some above → above < parents.size) :
    (∀ id : BoardId, id < parents.size →
        (cutCycles more).1[id]?.join = (cutCycles parents).1[id]?.join) ∧
      ∃ later, (cutCycles more).2 = (cutCycles parents).2 ++ later ∧
        ∀ id ∈ later, parents.size ≤ id := by
  have start : Pruning.Grown { parents } { parents := more } := ⟨size, same, rfl, rfl, inside⟩
  have earlier : ∀ id ∈ List.range parents.size, id < parents.size := by simp
  have grown := start.foldl earlier
  obtain ⟨-, kept, all⟩ := Pruning.settled_foldl (Pruning.settled_nil parents) _ earlier
  -- the later walks begin when all earlier boards are passed
  obtain ⟨extra, rest⟩ := Nat.exists_eq_add_of_le size
  have later : ∀ id ∈ (List.range extra).map (parents.size + ·), parents.size ≤ id := by simp
  have beyond := Pruning.beyond_foldl
    (fun id here => grown.passed ▸ all id (List.mem_range.2 here)) later
  rw [← List.foldl_append, ← List.range_add, ← rest] at beyond
  refine ⟨fun id here => ?_, ?_⟩
  · exact (beyond.parent id here).trans (grown.parent id (kept.size.symm ▸ here))
  · obtain ⟨later, cut, outside⟩ := beyond.cut
    refine ⟨later.reverse, ?_, fun id member => outside id (List.mem_reverse.1 member)⟩
    simp only [cutCycles, cut, grown.cut, List.reverse_append]

variable {catalog grown : Catalog}

/-- Boards keep their parents, and cycles their cuts, when boards are added that change no parent
that was resolved before. -/
theorem Sound.link_grown (sound : Sound catalog)
    (size : catalog.entries.size ≤ grown.entries.size)
    (same : ∀ id < catalog.entries.size, grown.resolvedParent? id = catalog.resolvedParent? id) :
    (∀ id < catalog.entries.size, grown.link.1.parent? id = catalog.link.1.parent? id) ∧
      ∃ later, grown.link.2 = catalog.link.2 ++ later ∧
        ∀ id ∈ later, catalog.entries.size ≤ id := by
  have sizes (catalog : Catalog) : catalog.resolved.size = catalog.entries.size := Array.size_map
  have size' : catalog.resolved.size ≤ grown.resolved.size := by rwa [sizes, sizes]
  have same' (id : BoardId) (inside : id < catalog.resolved.size) :
      grown.resolved[id]?.join = catalog.resolved[id]?.join := by
    rw [join_resolved, join_resolved]
    exact same id (sizes catalog ▸ inside)
  have cuts := cutCycles_grown size' same' fun id above here => resolved_lt sound here
  simp only [sizes] at cuts
  simp only [link_fst, parent?_setParents _ (size_cutCycles_resolved _)]
  exact cuts

end Pinout.Catalog
