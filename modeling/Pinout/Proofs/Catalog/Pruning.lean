import Mathlib.Data.Finset.Card
import Mathlib.Data.Finset.Range
import Pinout.Catalog.Basic
import Pinout.Proofs.Catalog.Rooted

/-! # Cycles are cut

Walks over parents start at every board in turn. A walk leaves behind boards that lead to the one
where it stands, and ends at a board without a parent, at one that an earlier walk has settled, or
where it closes a cycle, which is cut there; so all that it has passed is rooted then. Since it
passes a board at most once, it ends before its fuel does.
-/

namespace Pinout.Catalog

namespace Pruning

def parent (pruning : Pruning) (id : BoardId) : Option BoardId :=
  pruning.parents[id]?.join

/-- Parents are taken away and boards are passed, and nothing else happens. -/
structure Extends (before after : Pruning) : Prop where
  size : after.parents.size = before.parents.size
  parent : ∀ id, after.parent id = before.parent id ∨ after.parent id = none
  passed : ∀ id, id ∈ before.passed → id ∈ after.passed

theorem Extends.refl (pruning : Pruning) : Extends pruning pruning :=
  ⟨rfl, fun _ => .inl rfl, fun _ => id⟩

theorem Extends.trans {first second third : Pruning} (h : Extends first second)
    (h' : Extends second third) : Extends first third where
  size := h'.size.trans h.size
  parent id := by
    rcases h'.parent id with same | gone
    · rw [same]
      exact h.parent id
    · exact .inr gone
  passed id member := h'.passed id (h.passed id member)

def pass (pruning : Pruning) (id start : BoardId) : Pruning :=
  { pruning with passed := pruning.passed.insert id start }

def cutAt (pruning : Pruning) (id : BoardId) : Pruning :=
  { pruning with
    parents := pruning.parents.setIfInBounds id none
    cut := id :: pruning.cut }

theorem getElem?_passed_pass (pruning : Pruning) (id start id' : BoardId) :
    (pruning.pass id start).passed[id']? =
      if id = id' then some start else pruning.passed[id']? := by
  simp [pass, Std.TreeMap.getElem?_insert]

theorem parent_cutAt (pruning : Pruning) (id : BoardId) :
    (pruning.cutAt id).parent = without pruning.parent id := by
  funext id'
  simp only [parent, cutAt, without, Array.getElem?_setIfInBounds]
  by_cases same : id = id'
  · subst same
    by_cases inside : id < pruning.parents.size <;> simp [inside]
  · simp [same, Ne.symm same]

theorem extends_pass (pruning : Pruning) (id start : BoardId) :
    Extends pruning (pruning.pass id start) :=
  ⟨rfl, fun _ => .inl rfl, fun _ member => by simp [pass, member]⟩

theorem extends_cutAt (pruning : Pruning) (id : BoardId) : Extends pruning (pruning.cutAt id) where
  size := by simp [cutAt]
  parent id' := by
    rw [parent_cutAt]
    by_cases same : id' = id
    · exact .inr (if_pos same)
    · exact .inl (without_of_ne same)
  passed _ member := member

theorem extends_walk (start : BoardId) (fuel : Nat) (current : BoardId) (pruning : Pruning) :
    Extends pruning (walk start fuel current pruning) := by
  induction fuel generalizing current pruning with
  | zero => exact .refl pruning
  | succ fuel ih =>
    rw [walk]
    split
    · exact .refl pruning
    · next above _ =>
      split
      · exact (extends_pass pruning above start).trans (ih above _)
      · split
        · exact extends_cutAt pruning current
        · exact .refl pruning

theorem extends_cutFrom (pruning : Pruning) (id : BoardId) :
    Extends pruning (pruning.cutFrom id) := by
  unfold cutFrom
  split
  · exact .refl pruning
  · exact (extends_pass pruning id id).trans (extends_walk id _ id _)

theorem mem_cutFrom (pruning : Pruning) (id : BoardId) : id ∈ (pruning.cutFrom id).passed := by
  unfold cutFrom
  split
  · next member => exact Std.TreeMap.contains_iff_mem.1 member
  · refine (extends_walk id _ id _).passed id ?_
    exact Std.TreeMap.mem_insert_self

/-- All that is passed is rooted, the boards where walks began included. -/
structure Settled (pruning : Pruning) : Prop where
  rooted : ∀ id start : BoardId, pruning.passed[id]? = some start → Rooted pruning.parent id
  starts : ∀ id start : BoardId, pruning.passed[id]? = some start → start ∈ pruning.passed

/-- A walk from `start` stands at `current`. What it has passed leads there, and what earlier walks
have passed is rooted. -/
structure Walking (pruning : Pruning) (start current : BoardId) : Prop where
  leads : ∀ id : BoardId, pruning.passed[id]? = some start → Leads pruning.parent id current
  rooted : ∀ id earlier : BoardId, pruning.passed[id]? = some earlier → earlier ≠ start →
    Rooted pruning.parent id
  starts : ∀ id earlier : BoardId, pruning.passed[id]? = some earlier → earlier ∈ pruning.passed
  begun : start ∈ pruning.passed

section

variable {pruning : Pruning} {start current above : BoardId}

theorem Settled.begin (settled : Settled pruning) (fresh : start ∉ pruning.passed) :
    Walking (pruning.pass start start) start start where
  leads id here := by
    rw [getElem?_passed_pass] at here
    split at here
    · next same => exact same ▸ .refl
    · exact absurd (settled.starts id start here) fresh
  rooted id earlier here other := by
    rw [getElem?_passed_pass] at here
    split at here
    · exact absurd (Option.some.inj here).symm other
    · exact settled.rooted id earlier here
  starts id earlier here := by
    rw [getElem?_passed_pass] at here
    split at here
    · cases here
      exact Std.TreeMap.mem_insert_self
    · exact (extends_pass pruning start start).passed earlier (settled.starts id earlier here)
  begun := Std.TreeMap.mem_insert_self

theorem Walking.goOn (walking : Walking pruning start current)
    (step : pruning.parent current = some above) :
    Walking (pruning.pass above start) start above where
  leads id here := by
    rw [getElem?_passed_pass] at here
    split at here
    · next same => exact same ▸ .refl
    · exact (walking.leads id here).tail step
  rooted id earlier here other := by
    rw [getElem?_passed_pass] at here
    split at here
    · exact absurd (Option.some.inj here).symm other
    · exact walking.rooted id earlier here other
  starts id earlier here := by
    have kept := (extends_pass pruning above start).passed
    rw [getElem?_passed_pass] at here
    split at here
    · cases here
      exact kept start walking.begun
    · exact kept earlier (walking.starts id earlier here)
  begun := (extends_pass pruning above start).passed start walking.begun

/-- Where the walk ends at a rooted board, all that it has passed is rooted. -/
theorem Walking.settled (walking : Walking pruning start current)
    (rooted : Rooted pruning.parent current) : Settled pruning where
  rooted id earlier here := by
    by_cases same : earlier = start
    · exact rooted.of_leads (walking.leads id (same ▸ here))
    · exact walking.rooted id earlier here same
  starts := walking.starts

theorem Walking.settled_cutAt (walking : Walking pruning start current) :
    Settled (pruning.cutAt current) where
  rooted id earlier here := by
    rw [parent_cutAt]
    by_cases same : earlier = start
    · -- the board cut is a root now, and this walk's boards still lead there
      exact (Rooted.root (if_pos rfl)).of_leads (walking.leads id (same ▸ here)).without
    · exact (walking.rooted id earlier here same).without current
  starts := walking.starts

def ahead (pruning : Pruning) : Finset BoardId :=
  (Finset.range pruning.parents.size).filter (· ∉ pruning.passed)

theorem card_ahead_pass (inside : above < pruning.parents.size) (fresh : above ∉ pruning.passed) :
    (ahead (pruning.pass above start)).card < (ahead pruning).card := by
  apply Finset.card_lt_card
  refine (Finset.ssubset_iff_of_subset fun id member => ?_).2 ⟨above, ?_, ?_⟩
  · simp only [ahead, pass, Finset.mem_filter, Std.TreeMap.mem_insert, not_or] at member ⊢
    exact ⟨member.1, member.2.2⟩
  · simp [ahead, inside, fresh]
  · simp [ahead, pass]

/-- There are fewer boards ahead of a walk that begins than boards. -/
theorem card_ahead_lt (inside : start < pruning.parents.size) (fresh : start ∉ pruning.passed) :
    (ahead (pruning.pass start start)).card < pruning.parents.size :=
  calc (ahead (pruning.pass start start)).card
    _ < (ahead pruning).card := card_ahead_pass inside fresh
    _ ≤ pruning.parents.size := by
      rw [← Finset.card_range pruning.parents.size]
      exact Finset.card_filter_le _ _

/-- The fuel lasts: a walk either has a board ahead of it for each further parent, or stands where
there is none, which may be outside of the catalog. -/
theorem settled_walk {fuel : Nat}
    (enough : pruning.parent current = none ∨ (ahead pruning).card < fuel)
    (walking : Walking pruning start current) : Settled (walk start fuel current pruning) := by
  induction fuel generalizing current pruning with
  | zero => exact walking.settled (.root (enough.resolve_right (Nat.not_lt_zero _)))
  | succ fuel ih =>
    rw [walk]
    split
    · next none => exact walking.settled (.root none)
    · next above step =>
      have enough : (ahead pruning).card < fuel + 1 := enough.resolve_left fun none => by
        cases none.symm.trans step
      split
      · -- the walk goes on, and one board less is ahead of it
        next fresh =>
        change Settled (walk start fuel above (pruning.pass above start))
        refine ih ?_ (walking.goOn step)
        by_cases inside : above < pruning.parents.size
        · have absent : above ∉ pruning.passed := by
            simp [Std.TreeMap.mem_iff_isSome_getElem?, fresh]
          have fewer : (ahead (pruning.pass above start)).card < (ahead pruning).card :=
            card_ahead_pass inside absent
          exact .inr (by omega)
        · exact .inl (by simp [parent, pass, Nat.le_of_not_lt inside])
      · next earlier here =>
        -- a board that this walk has passed closes a cycle, any other one is rooted
        split
        · exact walking.settled_cutAt
        · next other =>
          exact walking.settled (.child step (walking.rooted above earlier here other))

theorem settled_cutFrom (settled : Settled pruning) {id : BoardId}
    (inside : id < pruning.parents.size) : Settled (pruning.cutFrom id) := by
  unfold cutFrom
  split
  · exact settled
  · next fresh =>
    have absent : id ∉ pruning.passed := fun member => fresh (Std.TreeMap.contains_iff_mem.2 member)
    change Settled (walk id pruning.parents.size id (pruning.pass id id))
    exact settled_walk (.inr (card_ahead_lt inside absent)) (settled.begin absent)

end

theorem settled_foldl {pruning : Pruning} (settled : Settled pruning) (ids : List BoardId)
    (inside : ∀ id ∈ ids, id < pruning.parents.size) :
    let after := ids.foldl cutFrom pruning
    Settled after ∧ Extends pruning after ∧ ∀ id ∈ ids, id ∈ after.passed := by
  induction ids generalizing pruning with
  | nil => exact ⟨settled, .refl pruning, List.forall_mem_nil _⟩
  | cons id ids ih =>
    obtain ⟨here, later⟩ := List.forall_mem_cons.1 inside
    have first := extends_cutFrom pruning id
    obtain ⟨settled', rest, passed⟩ := ih (settled_cutFrom settled here)
      fun id member => first.size ▸ later id member
    exact ⟨settled', first.trans rest,
      List.forall_mem_cons.2 ⟨rest.passed id (mem_cutFrom pruning id), passed⟩⟩

theorem settled_nil (parents : Array (Option BoardId)) : Settled { parents } :=
  ⟨by simp, by simp⟩

end Pruning

/-- Cutting roots all boards and takes nothing but parents away. -/
theorem cutCycles_spec (parents : Array (Option BoardId)) :
    let left := (cutCycles parents).1
    left.size = parents.size ∧
      (∀ id : BoardId, left[id]?.join = parents[id]?.join ∨ left[id]?.join = none) ∧
      ∀ id : BoardId, Rooted (fun id => left[id]?.join) id := by
  obtain ⟨settled, kept, passed⟩ :=
    Pruning.settled_foldl (Pruning.settled_nil parents) (List.range parents.size) (by simp)
  refine ⟨kept.size, kept.parent, fun id => ?_⟩
  by_cases inside : id < parents.size
  · have member := passed id (List.mem_range.2 inside)
    rw [Std.TreeMap.mem_iff_isSome_getElem?, Option.isSome_iff_exists] at member
    obtain ⟨start, here⟩ := member
    exact settled.rooted id start here
  · have outside : (cutCycles parents).1.size ≤ id := kept.size ▸ Nat.le_of_not_lt inside
    exact .root (by simp [outside])

end Pinout.Catalog
