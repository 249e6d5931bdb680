import Pinout.Constraint.Selection
import Pinout.Grid

/-! # Writing constraint files

A generated file holds the header of the board, its configurations, and one row per chosen pin. A
row names the net, the chip pin, the additions, and the header pin in a comment. A position without
a net or without a chip pin is written as a comment, or left out.
-/

namespace Pinout.Constraint

structure Options where
  /-- Rows are ordered by net. -/
  sorted : Bool := false
  /-- The column of additions is not padded. -/
  collapseColumns : Bool := false
  /-- Positions no net is routed to are left out. -/
  excludeUnusedPins : Bool := false
  /-- Blanks stand around equals signs. -/
  spacesAroundEquals : Bool := false
deriving Repr, DecidableEq

namespace Options

def equals (options : Options) : String :=
  if options.spacesAroundEquals then " = " else "="

def assignment (options : Options) : Assignment → String
  | (key, some value) => key ++ options.equals ++ value
  | (key, none) => key

end Options

def netColumn : Nat := 0

def additionsColumn : Nat := 2

def additionsCell (options : Options) (additions : Additions) : String :=
  if additions.isEmpty then
    ""
  else
    "| " ++ " | ".intercalate (additions.entries.map options.assignment) ++ ";"

def row? (options : Options) (view : PinView) : Option (List String) :=
  let cells (net : String) : List String :=
    [net,
      "LOC" ++ options.equals ++ "\"" ++ view.physicalName.getD "" ++ "\"",
      additionsCell options view.additions,
      "# " ++ view.canonicalName]
  match view.netName, view.physicalName with
  | some net, some _ => some (cells ("NET " ++ net))
  | _, _ =>
    if options.excludeUnusedPins then none else some (cells ("#NET " ++ view.canonicalName))

def grid (options : Options) (pins : List PinView) : Grid :=
  let rows : Grid := { rows := pins.filterMap (row? options) }
  let rows := if options.sorted then rows.sortBy netColumn else rows
  if options.collapseColumns then rows.collapse additionsColumn else rows

def headerText (catalog : Catalog) (board : BoardId) : String :=
  let header := catalog.header board
  if header.isEmpty then "" else header ++ "\n"

/-- The configurations, one on a line, with an empty line behind them. -/
def configsText (catalog : Catalog) (board : BoardId) (options : Options) : String :=
  let configs := catalog.configs board
  String.join (configs.map fun config => "CONFIG " ++ options.assignment config ++ ";\n") ++
    if configs.isEmpty then "" else "\n"

def generate (catalog : Catalog) (board : BoardId) (filter : PinFilter) (options : Options) :
    Except BusRangeError String := do
  let pins ← filter.select catalog board
  return headerText catalog board ++ configsText catalog board options ++
    (grid options pins).render

end Pinout.Constraint
