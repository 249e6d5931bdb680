import Mathlib.Data.List.Chain
import Mathlib.Data.List.Perm.Subperm
import Pinout.Catalog.PinView
import Pinout.Proofs.Catalog.History

/-! # Inheritance is a forest

In a catalog that changes have led to, the ancestors of a board are a line from a board without a
parent, and what a board shows is what its parent shows and then its own.
-/

namespace Pinout

/-- A board behind all of its ancestors. -/
inductive Line (parent : BoardId → Option BoardId) : BoardId → List BoardId → Prop
  | root {id : BoardId} : parent id = none → Line parent id [id]
  | child {id above : BoardId} {line : List BoardId} :
    parent id = some above → Line parent above line → Line parent id (line ++ [id])

namespace Line

variable {parent : BoardId → Option BoardId} {id : BoardId} {line : List BoardId}

theorem exists_of_rooted (rooted : Rooted parent id) : ∃ line, Line parent id line := by
  induction rooted with
  | @root id none => exact ⟨[id], .root none⟩
  | @child id above here _ ih =>
    obtain ⟨line, h⟩ := ih
    exact ⟨line ++ [id], .child here h⟩

theorem rooted (h : Line parent id line) : Rooted parent id := by
  induction h with
  | root none => exact .root none
  | child here _ ih => exact .child here ih

theorem getLast?_eq (h : Line parent id line) : line.getLast? = some id := by
  cases h with
  | root => rfl
  | child => exact List.getLast?_concat

theorem head?_eq (h : Line parent id line) :
    ∃ first, line.head? = some first ∧ parent first = none := by
  induction h with
  | @root id none => exact ⟨id, rfl, none⟩
  | child _ _ ih =>
    obtain ⟨first, head, none⟩ := ih
    exact ⟨first, by simp [head], none⟩

theorem isChain (h : Line parent id line) :
    line.IsChain fun above id => parent id = some above := by
  induction h with
  | root => exact List.isChain_singleton _
  | @child id above line here behind ih =>
    refine ih.append (List.isChain_singleton id) fun last isLast first isFirst => ?_
    rw [behind.getLast?_eq] at isLast
    cases isLast
    cases isFirst
    exact here

theorem leads_of_mem (h : Line parent id line) {ancestor : BoardId} (member : ancestor ∈ line) :
    Leads parent id ancestor := by
  induction h with
  | root =>
    cases List.mem_singleton.1 member
    exact .refl
  | child here _ ih =>
    rcases List.mem_append.1 member with further | own
    · exact (ih further).head here
    · cases List.mem_singleton.1 own
      exact .refl

theorem nodup (h : Line parent id line) : line.Nodup := by
  induction h with
  | root => exact List.nodup_singleton _
  | @child id above line here behind ih =>
    -- a board that is its own ancestor is on a cycle
    have fresh : id ∉ line := fun member =>
      (behind.child here).rooted.not_transGen
        (Relation.TransGen.head' here (behind.leads_of_mem member))
    rw [← List.concat_eq_append]
    exact (List.nodup_concat line id).2 ⟨fresh, ih⟩

/-- There are no more ancestors than boards. -/
theorem length_le (h : Line parent id line) {size : Nat}
    (inRange : ∀ id above, parent id = some above → above < size) : line.length ≤ size + 1 := by
  cases h with
  | root => exact Nat.succ_le_succ (Nat.zero_le size)
  | @child _ above line here behind =>
    -- all but the last are parents, and none is there twice
    have inside : line ⊆ List.range size := by
      intro ancestor member
      refine List.mem_range.2 ?_
      rcases (behind.leads_of_mem member).cases_tail with rfl | ⟨id', _, step⟩
      · exact inRange id ancestor here
      · exact inRange id' ancestor step
    have bound := (List.subperm_of_subset behind.nodup inside).length_le
    rw [List.length_range] at bound
    rw [List.length_append]
    exact Nat.succ_le_succ bound

end Line

namespace Catalog

variable {catalog : Catalog} {id : BoardId} {line : List BoardId}

theorem lineageBefore_of_line (h : Line catalog.parent? id line) {fuel : Nat}
    (enough : line.length ≤ fuel + 1) : catalog.lineageBefore [] fuel id = line := by
  induction h generalizing fuel with
  | @root id none => cases fuel <;> simp [lineageBefore, none]
  | @child id above line here behind ih =>
    have positive : 0 < line.length := by
      cases behind <;> simp
    rw [List.length_append, List.length_singleton] at enough
    obtain ⟨fuel, rfl⟩ : ∃ less, fuel = less + 1 := ⟨fuel - 1, by omega⟩
    simp only [lineageBefore, here]
    rw [lineageBefore_eq_append, ih (by omega)]

theorem Sound.line_lineage (sound : Sound catalog) (id : BoardId) :
    Line catalog.parent? id (catalog.lineage id) := by
  obtain ⟨line, h⟩ := Line.exists_of_rooted (sound.rooted id)
  rw [lineage, lineageBefore_of_line h (h.length_le sound.inRange)]
  exact h

theorem Sound.lineageBefore_eq (sound : Sound catalog) (id : BoardId) {fuel : Nat}
    (enough : catalog.entries.size ≤ fuel) :
    catalog.lineageBefore [] fuel id = catalog.lineage id := by
  have h := sound.line_lineage id
  exact lineageBefore_of_line h ((h.length_le sound.inRange).trans (Nat.succ_le_succ enough))

theorem Sound.lineage_eq (sound : Sound catalog) {above : BoardId}
    (here : catalog.parent? id = some above) :
    catalog.lineage id = catalog.lineage above ++ [id] := by
  have h := (sound.line_lineage above).child here
  rw [lineage, lineageBefore_of_line h (h.length_le sound.inRange)]

theorem busCount_eq (catalog : Catalog) (id : BoardId) :
    catalog.busCount id = (catalog.buses id).length := by
  rw [busCount, buses]
  induction catalog.lineage id with
  | nil => rfl
  | cons ancestor line ih => simp [ih, ownBuses]

def ownHeader (catalog : Catalog) (id : BoardId) : String :=
  match (catalog.board id).header with
  | none => ""
  | some header => header ++ "\n"

theorem header_eq (catalog : Catalog) (id : BoardId) :
    catalog.header id = String.join ((catalog.lineage id).map catalog.ownHeader) := by
  rw [header]
  induction catalog.lineage id with
  | nil => rfl
  | cons ancestor line ih =>
    rw [List.filterMap_cons, List.map_cons, String.join_cons, ← ih, ownHeader]
    cases (catalog.board ancestor).header <;> simp

structure Inherits (catalog : Catalog) (id above : BoardId) : Prop where
  buses : catalog.buses id = catalog.buses above ++ catalog.ownBuses id
  pins : catalog.pins id = catalog.pins above ++ (catalog.ownBuses id).flatMap catalog.pinsOf
  configs : catalog.configs id = catalog.configs above ++ (catalog.board id).configs
  header : catalog.header id = catalog.header above ++ catalog.ownHeader id

theorem inherits_of_lineage {above : BoardId}
    (h : catalog.lineage id = catalog.lineage above ++ [id]) : catalog.Inherits id above := by
  have buses : catalog.buses id = catalog.buses above ++ catalog.ownBuses id := by
    simp [Catalog.buses, h]
  exact {
    buses
    pins := by rw [pins, buses, List.flatMap_append, ← pins]
    configs := by simp [configs, h]
    header := by simp [header_eq, h, String.join_append] }

/-- The ancestors of a board, the most distant one first, and the board. -/
structure IsLineage (catalog : Catalog) (id : BoardId) (line : List BoardId) : Prop where
  begins : ∃ first, line.head? = some first ∧ catalog.parent? first = none
  ends : line.getLast? = some id
  follows : line.IsChain fun above id => catalog.parent? id = some above
  distinct : line.Nodup

/-- Whatever is registered, loaded, linked, renamed and plugged in, in whatever order: parents are
boards and form no cycle, the line of a board's ancestors is complete without all of its fuel, and
boards inherit from their parents. -/
theorem inheritance_after (changes : List Change) :
    let catalog := after changes
    (∀ id above, catalog.parent? id = some above → above < catalog.entries.size) ∧
      (∀ id, ¬ Relation.TransGen (fun id above => catalog.parent? id = some above) id id) ∧
      (∀ id, catalog.IsLineage id (catalog.lineage id)) ∧
      (∀ id fuel, catalog.entries.size ≤ fuel →
        catalog.lineageBefore [] fuel id = catalog.lineage id) ∧
      (∀ id above, catalog.parent? id = some above → catalog.Inherits id above) ∧
      ∀ id, catalog.busCount id = (catalog.buses id).length := by
  intro catalog
  have sound : Sound catalog := sound_after changes
  refine ⟨sound.inRange, fun id => (sound.rooted id).not_transGen, fun id => ?_,
    fun id _ enough => sound.lineageBefore_eq id enough,
    fun id above here => inherits_of_lineage (sound.lineage_eq here), catalog.busCount_eq⟩
  have line := sound.line_lineage id
  exact ⟨line.head?_eq, line.getLast?_eq, line.isChain, line.nodup⟩

end Catalog

end Pinout
