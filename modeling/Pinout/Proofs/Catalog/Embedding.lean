import Pinout.Proofs.Catalog.Forest
import Pinout.Proofs.Catalog.Registering

/-! # Catalogs inside of others

The boards of one catalog may all be in another one, under other numbers. Where their parents are
the same boards there, so are all of their ancestors, and what a board shows is the same but for the
numbers that positions are addressed by.
-/

namespace Pinout

def BusRef.moved (move : BoardId → BoardId) (ref : BusRef) : BusRef :=
  { ref with board := move ref.board }

def BusView.moved (move : BoardId → BoardId) (view : BusView) : BusView :=
  { view with ref := view.ref.moved move }

/-- The position with its board and its owner under other numbers. Its pins are the same, so none of
them may have come from a wing. -/
def PinView.moved (move : BoardId → BoardId) (view : PinView) : PinView :=
  { view with
    ref := { view.ref with bus := view.ref.bus.moved move }
    owner := view.owner.moved move }

namespace Catalog

/-- The boards of the first catalog are in the second one, each at the number that `move` gives for
its own, and so are their parents. -/
structure Embeds (move : BoardId → BoardId) (part whole : Catalog) : Prop where
  board : ∀ id, ∀ board ∈ part.board? id, whole.board? (move id) = some board
  parent : ∀ id < part.entries.size, whole.parent? (move id) = (part.parent? id).map move

structure ShowsAs (move : BoardId → BoardId) (part whole : Catalog) (id : BoardId) : Prop where
  board : whole.board? (move id) = part.board? id
  parent : whole.parent? (move id) = (part.parent? id).map move
  lineage : whole.lineage (move id) = (part.lineage id).map move
  buses : whole.buses (move id) = (part.buses id).map (·.moved move)
  busNames : whole.busNames (move id) = part.busNames id
  pins : whole.pins (move id) = (part.pins id).map (·.moved move)
  configs : whole.configs (move id) = part.configs id
  header : whole.header (move id) = part.header id

variable {move : BoardId → BoardId} {part whole : Catalog} {id : BoardId}

theorem exists_board?_of_lt {catalog : Catalog} (inside : id < catalog.entries.size) :
    ∃ board, catalog.board? id = some board := by
  simp [Catalog.board?, inside]

theorem lt_of_board? {catalog : Catalog} {board : Board} (here : catalog.board? id = some board) :
    id < catalog.entries.size := by
  simpa [Catalog.board?] using Option.isSome_of_mem here

/-- A board that has a parent is in the catalog. -/
theorem lt_of_resolvedParent? {catalog : Catalog} {above : BoardId}
    (here : catalog.resolvedParent? id = some above) : id < catalog.entries.size := by
  obtain ⟨board, known, -⟩ := Option.bind_eq_some_iff.1 here
  exact lt_of_board? known

theorem Embeds.board_eq (embeds : Embeds move part whole) (inside : id < part.entries.size) :
    whole.board (move id) = part.board id := by
  obtain ⟨board, here⟩ := exists_board?_of_lt inside
  rw [Catalog.board, Catalog.board, embeds.board id board here, here]

theorem Sound.lt_of_mem_lineage (sound : Sound part) (inside : id < part.entries.size)
    {ancestor : BoardId} (member : ancestor ∈ part.lineage id) : ancestor < part.entries.size := by
  rcases ((sound.line_lineage id).leads_of_mem member).cases_tail with rfl | ⟨child, -, step⟩
  · exact inside
  · exact sound.inRange child ancestor step

theorem Embeds.line (embeds : Embeds move part whole) (sound : Sound part)
    {line : List BoardId} (h : Line part.parent? id line) (inside : id < part.entries.size) :
    Line whole.parent? (move id) (line.map move) := by
  induction h with
  | @root id none =>
    have none' : whole.parent? (move id) = Option.none := by rw [embeds.parent id inside, none]; rfl
    exact .root none'
  | @child id above line here _ ih =>
    have here' : whole.parent? (move id) = some (move above) := by
      rw [embeds.parent id inside, here]
      rfl
    rw [List.map_append]
    exact .child here' (ih (sound.inRange id above here))

theorem Embeds.lineage (embeds : Embeds move part whole) (sound : Sound part)
    (sound' : Sound whole) (inside : id < part.entries.size) :
    whole.lineage (move id) = (part.lineage id).map move := by
  have line := embeds.line sound (sound.line_lineage id) inside
  exact lineageBefore_of_line line (line.length_le sound'.inRange)

section

variable (embeds : Embeds move part whole) (sound : Sound part) (sound' : Sound whole)
  (inside : id < part.entries.size)

include embeds

theorem Embeds.ownBuses (inside : id < part.entries.size) :
    whole.ownBuses (move id) = (part.ownBuses id).map (·.moved move) := by
  rw [Catalog.ownBuses, embeds.board_eq inside, Catalog.ownBuses, List.map_map]
  rfl

include sound sound' inside

/-- What each level of a board adds is the same, so all levels together are. -/
theorem Embeds.flatMap_lineage {α β : Type} {f : BoardId → List α} {g : BoardId → List β}
    (h : β → α) (same : ∀ ancestor < part.entries.size, f (move ancestor) = (g ancestor).map h) :
    (whole.lineage (move id)).flatMap f = ((part.lineage id).flatMap g).map h := by
  rw [embeds.lineage sound sound' inside, List.flatMap_map, List.map_flatMap]
  exact List.flatMap_congr fun ancestor member => same ancestor (sound.lt_of_mem_lineage inside member)

theorem Embeds.buses : whole.buses (move id) = (part.buses id).map (·.moved move) :=
  embeds.flatMap_lineage sound sound' inside _ fun _ here => embeds.ownBuses here

theorem Embeds.busNames : whole.busNames (move id) = part.busNames id := by
  rw [Catalog.busNames, embeds.buses sound sound' inside, List.map_map]
  rfl

theorem Embeds.configs : whole.configs (move id) = part.configs id := by
  have levels := embeds.flatMap_lineage sound sound' inside
    (f := fun ancestor => (whole.board ancestor).configs)
    (g := fun ancestor => (part.board ancestor).configs) (fun config => config)
    fun ancestor here => by rw [embeds.board_eq here, List.map_id']
  rwa [List.map_id'] at levels

theorem Embeds.header : whole.header (move id) = part.header id := by
  rw [Catalog.header, embeds.lineage sound sound' inside, List.filterMap_map, Catalog.header]
  refine congrArg String.join (List.filterMap_congr fun ancestor member => ?_)
  rw [Function.comp_apply, embeds.board_eq (sound.lt_of_mem_lineage inside member)]

end

theorem Embeds.pinsOf (embeds : Embeds move part whole) (bare : part.Bare)
    (inside : id < part.entries.size) {bus : BusView} (own : bus ∈ part.ownBuses id) :
    whole.pinsOf (bus.moved move) = (part.pinsOf bus).map (·.moved move) := by
  obtain ⟨board, here⟩ := exists_board?_of_lt inside
  have same : part.board id = board := by rw [Catalog.board, here]; rfl
  obtain ⟨⟨bus, position⟩, member, rfl⟩ := List.mem_map.1 own
  rw [same] at member
  have slots := bare id board here bus (List.fst_mem_of_mem_zipIdx member)
  simp only [Catalog.pinsOf, List.map_map]
  refine List.map_congr_left fun numbered member => ?_
  obtain ⟨slot, index⟩ := numbered
  -- the pin came from no wing, so its bus is its owner
  have origin := (slots slot (List.fst_mem_of_mem_zipIdx member)).2
  simp [pinView, PinView.moved, BusView.moved, BusRef.moved, ownerAdditions, origin,
    embeds.board_eq inside]

theorem Embeds.pins (embeds : Embeds move part whole) (sound : Sound part) (sound' : Sound whole)
    (bare : part.Bare) (inside : id < part.entries.size) :
    whole.pins (move id) = (part.pins id).map (·.moved move) := by
  simp only [Catalog.pins, Catalog.buses, List.flatMap_assoc]
  refine embeds.flatMap_lineage sound sound' inside _ fun ancestor here => ?_
  rw [embeds.ownBuses here, List.flatMap_map, List.map_flatMap]
  exact List.flatMap_congr fun bus own => embeds.pinsOf bare here own

theorem Embeds.showsAs (embeds : Embeds move part whole) (sound : Sound part)
    (sound' : Sound whole) (bare : part.Bare) (inside : id < part.entries.size) :
    ShowsAs move part whole id where
  board := by
    obtain ⟨board, here⟩ := exists_board?_of_lt inside
    rw [embeds.board id board here, here]
  parent := embeds.parent id inside
  lineage := embeds.lineage sound sound' inside
  buses := embeds.buses sound sound' inside
  busNames := embeds.busNames sound sound' inside
  pins := embeds.pins sound sound' bare inside
  configs := embeds.configs sound sound' inside
  header := embeds.header sound sound' inside

end Catalog

end Pinout
