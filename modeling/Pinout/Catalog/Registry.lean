import Pinout.Board
import Pinout.NameIndex
import Std.Data.TreeSet

/-! # Registries

The names of boards of one kind. A name that is registered again moves to the later board; the
earlier one can still be reached by its other names, and is no longer listed when it has none left.
-/

namespace Pinout

inductive BoardKind where
  | board
  | wing
deriving Repr, DecidableEq

/-- Boards by name, and all boards in the order they were registered. -/
structure Registry where
  names : NameIndex BoardId := {}
  order : Array BoardId := #[]
deriving Repr

namespace Registry

def insert (registry : Registry) (names : List String) (id : BoardId) : Registry where
  names := registry.names.insertAll (names.map (·, id))
  order := registry.order.push id

def find? (registry : Registry) (name : String) : Option BoardId :=
  registry.names.find? name

/-- The boards that some name still leads to, in the order they were registered. -/
def boards (registry : Registry) : List BoardId :=
  let reachable := Std.TreeSet.ofList registry.names.values
  registry.order.toList.filter reachable.contains

theorem mem_boards_iff {registry : Registry} {id : BoardId} :
    id ∈ registry.boards ↔ id ∈ registry.order ∧ id ∈ registry.names.values := by
  simp [boards]

end Registry

end Pinout
