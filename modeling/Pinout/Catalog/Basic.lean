import Pinout.Catalog.Registry
import Std.Data.TreeMap

/-! # The catalog

All boards and wings of a run. Boards keep their position for good; names are looked up in a
registry per kind. Parents are named in definitions and resolved to boards by `link`, which first
looks among boards of the same kind and then among boards. Where parents form a cycle, it is cut at
the board whose parent was already passed, and the cut boards are reported.
-/

namespace Pinout

structure Entry where
  board : Board
  parent : Option BoardId := none
deriving Repr, DecidableEq

structure Catalog where
  entries : Array Entry := #[]
  boardNames : Registry := {}
  wingNames : Registry := {}
deriving Repr

namespace Catalog

def registry (catalog : Catalog) : BoardKind → Registry
  | .board => catalog.boardNames
  | .wing => catalog.wingNames

def find? (catalog : Catalog) (kind : BoardKind) (name : String) : Option BoardId :=
  (catalog.registry kind).find? name

def findAny? (catalog : Catalog) (name : String) : Option BoardId :=
  (catalog.find? .board name).or (catalog.find? .wing name)

def contains (catalog : Catalog) (kind : BoardKind) (name : String) : Bool :=
  (catalog.find? kind name).isSome

def boards (catalog : Catalog) (kind : BoardKind) : List BoardId :=
  (catalog.registry kind).boards

def board? (catalog : Catalog) (id : BoardId) : Option Board :=
  catalog.entries[id]?.map (·.board)

def board (catalog : Catalog) (id : BoardId) : Board :=
  (catalog.board? id).getD {}

def parent? (catalog : Catalog) (id : BoardId) : Option BoardId :=
  catalog.entries[id]?.bind (·.parent)

def bus? (catalog : Catalog) (ref : BusRef) : Option Bus :=
  (catalog.board? ref.board).bind (·.buses[ref.position]?)

def modifyBoard (catalog : Catalog) (id : BoardId) (change : Board → Board) : Catalog :=
  { catalog with
    entries := catalog.entries.modify id fun entry => { entry with board := change entry.board } }

def modifyBus (catalog : Catalog) (ref : BusRef) (change : Bus → Bus) : Catalog :=
  catalog.modifyBoard ref.board fun board =>
    { board with buses := board.buses.modify ref.position change }

/-- Adds a board under all of its names. Its parent is resolved by `link`. -/
def register (catalog : Catalog) (kind : BoardKind) (board : Board) : Catalog × BoardId :=
  let id := catalog.entries.size
  match kind with
  | .board =>
    ({ catalog with
      entries := catalog.entries.push { board }
      boardNames := catalog.boardNames.insert board.names id }, id)
  | .wing =>
    ({ catalog with
      entries := catalog.entries.push { board := { board with isWing := true } }
      wingNames := catalog.wingNames.insert board.names id }, id)

def registerAll (catalog : Catalog) (kind : BoardKind) :
    List Board → Catalog × List BoardId
  | [] => (catalog, [])
  | board :: boards =>
    let (catalog, id) := catalog.register kind board
    let (catalog, ids) := catalog.registerAll kind boards
    (catalog, id :: ids)

/-- The board that a board's parent name leads to. -/
def resolveParent (catalog : Catalog) (board : Board) : Option BoardId :=
  let kind := if board.isWing then .wing else .board
  board.parentName.bind fun name =>
    (catalog.find? kind name).or (catalog.find? .board name)

/-- What walks over parents have done: the parents that are left, the boards that lost theirs, and
for every board that a walk has passed the board where that walk began. -/
structure Pruning where
  parents : Array (Option BoardId)
  /-- The last one first. -/
  cut : List BoardId := []
  passed : Std.TreeMap BoardId BoardId := {}
deriving Repr

namespace Pruning

/-- Goes on with the walk from `start`, which stands at `current`. A parent that this walk has passed
closes a cycle, and one that an earlier walk has passed has no cycle above it any more. At most
`fuel` parents are followed. -/
def walk (start : BoardId) : Nat → BoardId → Pruning → Pruning
  | 0, _, pruning => pruning
  | fuel + 1, current, pruning =>
    match pruning.parents[current]?.join with
    | none => pruning
    | some parent =>
      match pruning.passed[parent]? with
      | none =>
        walk start fuel parent { pruning with passed := pruning.passed.insert parent start }
      | some earlier =>
        if earlier = start then
          { pruning with
            parents := pruning.parents.setIfInBounds current none
            cut := current :: pruning.cut }
        else
          pruning

def cutFrom (pruning : Pruning) (id : BoardId) : Pruning :=
  if pruning.passed.contains id then
    pruning
  else
    walk id pruning.parents.size id { pruning with passed := pruning.passed.insert id id }

end Pruning

/-- Parents without cycles, and the boards that lost theirs. -/
def cutCycles (parents : Array (Option BoardId)) : Array (Option BoardId) × List BoardId :=
  let pruning := (List.range parents.size).foldl Pruning.cutFrom { parents }
  (pruning.parents, pruning.cut.reverse)

def setParents (catalog : Catalog) (parents : Array (Option BoardId)) : Catalog :=
  { catalog with
    entries := catalog.entries.zipWith (fun entry parent => { entry with parent }) parents }

/-- Resolves all parents, and cuts cycles. The second part holds the boards at which one was cut. -/
def link (catalog : Catalog) : Catalog × List BoardId :=
  let (parents, cut) :=
    cutCycles (catalog.entries.map fun entry => catalog.resolveParent entry.board)
  (catalog.setParents parents, cut)

end Catalog

end Pinout
