import Mathlib.Logic.Relation
import Pinout.Board

/-! # Following parents

Parents are a partial function on boards. A board is rooted where following parents from it comes to
an end, and boards that are all rooted have no cycle. Taking a parent away roots its board and keeps
the others rooted, and leaves all ways to that board as they are.
-/

namespace Pinout

/-- Following parents from a board ends. -/
inductive Rooted (parent : BoardId → Option BoardId) : BoardId → Prop
  | root {id : BoardId} : parent id = none → Rooted parent id
  | child {id above : BoardId} : parent id = some above → Rooted parent above → Rooted parent id

/-- Following parents from the first board passes the second one, or they are the same. -/
def Leads (parent : BoardId → Option BoardId) : BoardId → BoardId → Prop :=
  Relation.ReflTransGen fun id above => parent id = some above

/-- Following parents from a board comes back to it. -/
def OnCycle (parent : BoardId → Option BoardId) (id : BoardId) : Prop :=
  Relation.TransGen (fun id above => parent id = some above) id id

/-- Following parents from either of two boards passes the other one. -/
def SameCycle (parent : BoardId → Option BoardId) (id other : BoardId) : Prop :=
  Relation.TransGen (fun id above => parent id = some above) id other ∧
    Relation.TransGen (fun id above => parent id = some above) other id

variable {parent : BoardId → Option BoardId}

theorem Rooted.of_leads {id above : BoardId} (leads : Leads parent id above)
    (rooted : Rooted parent above) : Rooted parent id := by
  induction leads using Relation.ReflTransGen.head_induction_on with
  | refl => exact rooted
  | head step _ ih => exact .child step ih

/-- A rooted board is on no cycle. -/
theorem Rooted.not_transGen {id : BoardId} (rooted : Rooted parent id) :
    ¬ Relation.TransGen (fun id above => parent id = some above) id id := by
  induction rooted with
  | root none =>
    intro cycle
    obtain ⟨_, step, _⟩ := Relation.TransGen.head'_iff.1 cycle
    cases none.symm.trans step
  | child here _ ih =>
    intro cycle
    obtain ⟨_, step, back⟩ := Relation.TransGen.head'_iff.1 cycle
    cases here.symm.trans step
    -- the cycle can be entered one board further up
    exact ih (Relation.TransGen.tail' back here)

theorem OnCycle.exists_parent {id : BoardId} (cycle : OnCycle parent id) :
    ∃ above, parent id = some above ∧ Leads parent above id := by
  obtain ⟨above, step, back⟩ := Relation.TransGen.head'_iff.1 cycle
  exact ⟨above, step, back⟩

theorem OnCycle.mono {part whole : BoardId → Option BoardId} {id : BoardId}
    (within : ∀ id above, part id = some above → whole id = some above)
    (cycle : OnCycle part id) : OnCycle whole id :=
  Relation.TransGen.mono within id id cycle

/-- Where some parents of a graph close a cycle, all parents lead around that cycle. -/
theorem OnCycle.of_leads {part whole : BoardId → Option BoardId} {id other : BoardId}
    (within : ∀ id above, part id = some above → whole id = some above)
    (cycle : OnCycle part id) (leads : Leads whole id other) : OnCycle part other := by
  induction leads with
  | refl => exact cycle
  | @tail here next _ step ih =>
    obtain ⟨above, kept, back⟩ := ih.exists_parent
    -- a board has one parent, so the step stays on the cycle
    cases (within here above kept).symm.trans step
    exact Relation.TransGen.tail' back kept

theorem OnCycle.leads_back {id other : BoardId} (cycle : OnCycle parent id)
    (leads : Leads parent id other) : Leads parent other id := by
  induction leads with
  | refl => exact .refl
  | @tail here next further step ih =>
    obtain ⟨above, step', back⟩ := (cycle.of_leads (fun _ _ same => same) further).exists_parent
    cases step'.symm.trans step
    exact back.trans ih

theorem OnCycle.sameCycle {id other : BoardId} (cycle : OnCycle parent id)
    (leads : Leads parent id other) : SameCycle parent id other :=
  ⟨cycle.trans_left leads, .trans_right (cycle.leads_back leads) cycle⟩

def without (parent : BoardId → Option BoardId) (board id : BoardId) : Option BoardId :=
  if id = board then none else parent id

theorem without_of_ne {board id : BoardId} (h : id ≠ board) :
    without parent board id = parent id :=
  if_neg h

theorem Rooted.without {id : BoardId} (rooted : Rooted parent id) (board : BoardId) :
    Rooted (without parent board) id := by
  induction rooted with
  | @root id none =>
    by_cases same : id = board
    · exact .root (if_pos same)
    · exact .root ((without_of_ne same).trans none)
  | @child id above here _ ih =>
    by_cases same : id = board
    · exact .root (if_pos same)
    · exact .child ((without_of_ne same).trans here) ih

theorem Leads.without {id board : BoardId} (leads : Leads parent id board) :
    Leads (without parent board) id board := by
  induction leads using Relation.ReflTransGen.head_induction_on with
  | refl => exact .refl
  | @head id above here _ ih =>
    -- the way is cut short where it comes to the board for the first time
    by_cases same : id = board
    · exact same ▸ .refl
    · exact .head ((without_of_ne same).trans here) ih

end Pinout
