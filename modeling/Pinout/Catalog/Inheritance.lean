import Pinout.Catalog.Basic
import Std.Data.TreeSet

/-! # Inheritance

A board shows what its ancestors have, the most distant first, and then what it has itself. Buses of
the same name are all there; a name leads to the last of them, that of the most derived board.
-/

namespace Pinout

structure BusView where
  ref : BusRef
  bus : Bus
deriving Repr, DecidableEq

namespace Catalog

/-- A board behind its ancestors, at most `fuel` of them, and in front of the boards given. -/
def lineageBefore (catalog : Catalog) (behind : List BoardId) : Nat → BoardId → List BoardId
  | 0, id => id :: behind
  | fuel + 1, id =>
    match catalog.parent? id with
    | none => id :: behind
    | some parent => catalog.lineageBefore (id :: behind) fuel parent

theorem lineageBefore_eq_append (catalog : Catalog) (behind : List BoardId) (fuel : Nat)
    (id : BoardId) :
    catalog.lineageBefore behind fuel id = catalog.lineageBefore [] fuel id ++ behind := by
  induction fuel generalizing behind id with
  | zero => rfl
  | succ fuel ih =>
    simp only [lineageBefore]
    split
    · rfl
    · rw [ih (id :: behind), ih [id], List.append_assoc, List.singleton_append]

/-- A board behind all of its ancestors. There are fewer of them than boards. -/
def lineage (catalog : Catalog) (id : BoardId) : List BoardId :=
  catalog.lineageBefore [] catalog.entries.size id

def ownBuses (catalog : Catalog) (id : BoardId) : List BusView :=
  (catalog.board id).buses.zipIdx.map fun (bus, position) => ⟨⟨id, position⟩, bus⟩

def buses (catalog : Catalog) (id : BoardId) : List BusView :=
  (catalog.lineage id).flatMap catalog.ownBuses

def busCount (catalog : Catalog) (id : BoardId) : Nat :=
  (catalog.lineage id).foldr (fun ancestor count => (catalog.board ancestor).buses.length + count) 0

/-- Texts without those that repeat an earlier one in any spelling. The lower-case forms of those
that stand before are in `seen`. -/
def distinctNames (seen : Std.TreeSet String) : List String → List String
  | [] => []
  | name :: names =>
    let folded := Text.lower name
    if seen.contains folded then distinctNames seen names
    else name :: distinctNames (seen.insert folded) names

/-- The names of a board's buses, each in its first spelling. -/
def busNames (catalog : Catalog) (id : BoardId) : List String :=
  distinctNames {} ((catalog.buses id).map (·.bus.name))

def containsBus (catalog : Catalog) (id : BoardId) (name : String) : Bool :=
  (catalog.lineage id).any fun ancestor => ((catalog.board ancestor).ownBus? name).isSome

def busIndex? (catalog : Catalog) (id : BoardId) (name : String) : Option Nat :=
  let wanted := Caseless.ofString name
  lastIndex? (wanted.agrees ·.bus.name) (catalog.buses id)

def busNamed? (catalog : Catalog) (id : BoardId) (name : String) : Option BusView :=
  (catalog.busIndex? id name).bind fun index => (catalog.buses id)[index]?

/-- All that names of a board's buses lead to, for many lookups. -/
def busesByName (catalog : Catalog) (id : BoardId) : NameIndex BusView :=
  .ofList ((catalog.buses id).map fun view => (view.bus.name, view))

theorem find?_busesByName (catalog : Catalog) (id : BoardId) (name : String) :
    (catalog.busesByName id).find? name = catalog.busNamed? id name := by
  simp [busesByName, NameIndex.find?_ofList, busNamed?, busIndex?, bind_lastIndex?,
    ← List.map_reverse, List.find?_map, Function.comp_def, agrees_ofString]

/-- The configurations of all levels, repeated keys included. -/
def configs (catalog : Catalog) (id : BoardId) : List Assignment :=
  (catalog.lineage id).flatMap fun ancestor => (catalog.board ancestor).configs

/-- The headers of all levels, each with a line feed behind it. -/
def header (catalog : Catalog) (id : BoardId) : String :=
  String.join <| (catalog.lineage id).filterMap fun ancestor =>
    (catalog.board ancestor).header.map (· ++ "\n")

end Catalog

end Pinout
