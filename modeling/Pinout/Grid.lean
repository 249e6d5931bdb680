import Pinout.Text.Blank
import Pinout.Text.Lower

/-! # Aligned columns

Rows of cells written as left-aligned columns with one space between them, optionally under
headings that are underlined. A column is as wide as its widest cell in any row, counted in
characters, and no line keeps blanks at its end. One column may be collapsed: its cells are written
without padding, and an empty one takes no room at all.
-/

namespace Pinout

/-- A table of text cells. Rows may differ in length. -/
structure Grid where
  headings : List String := []
  rows : List (List String) := []
  collapsed : Option Nat := none
deriving Repr, DecidableEq

namespace Grid

def collapse (grid : Grid) (column : Nat) : Grid :=
  { grid with collapsed := some column }

def sortKey (column : Nat) (row : List String) : String :=
  Text.lower (row[column]?.getD "")

/-- Rows in the order of one column without regard to case; equal rows stay as they are. -/
def sortBy (grid : Grid) (column : Nat) : Grid :=
  let keyed := grid.rows.map fun row => (sortKey column row, row)
  { grid with rows := (keyed.mergeSort fun a b => a.1 ≤ b.1).map (·.2) }

theorem rows_sortBy (grid : Grid) (column : Nat) :
    (grid.sortBy column).rows =
      grid.rows.mergeSort fun a b => sortKey column a ≤ sortKey column b := by
  let key (row : List String) : String × List String := (sortKey column row, row)
  have sorted : (grid.rows.mergeSort fun a b => sortKey column a ≤ sortKey column b).map key =
      (grid.rows.map key).mergeSort fun a b => a.1 ≤ b.1 :=
    List.map_mergeSort fun _ _ _ _ => rfl
  show ((grid.rows.map key).mergeSort fun a b => a.1 ≤ b.1).map (·.2) = _
  rw [← sorted, List.map_map]
  exact List.map_id _

def size (grid : Grid) : Nat :=
  grid.rows.length

def isEmpty (grid : Grid) : Bool :=
  grid.rows.isEmpty

def widen : List Nat → List String → List Nat
  | widths, [] => widths
  | [], cell :: row => cell.length :: widen [] row
  | width :: widths, cell :: row => max width cell.length :: widen widths row

def widths (grid : Grid) : List Nat :=
  grid.rows.foldl widen (grid.headings.map String.length)

def cellText (collapsed : Bool) (width : Nat) (cell : String) : List Char :=
  if collapsed then
    if cell.isEmpty then [] else cell.toList ++ [' ']
  else
    cell.toList ++ List.replicate (width - cell.length) ' ' ++ [' ']

def cellsText (collapsed : Option Nat) : Nat → List Nat → List String → List Char
  | _, _, [] => []
  | column, widths, cell :: cells =>
    cellText (collapsed == some column) (widths.headD 0) cell ++
      cellsText collapsed (column + 1) widths.tail cells

def lineText (collapsed : Option Nat) (widths : List Nat) (cells : List String) : List Char :=
  Text.trimEnd (cellsText collapsed 0 widths cells) ++ ['\n']

def headingLines (headings : List String) (widths : List Nat) : List (List String) :=
  if headings.isEmpty then
    []
  else
    [headings,
      (widths.take headings.length).map fun width => String.ofList (List.replicate width '=')]

def render (grid : Grid) : String :=
  let widths := grid.widths
  .ofList <|
    (headingLines grid.headings widths ++ grid.rows).flatMap (lineText grid.collapsed widths)

instance : ToString Grid where
  toString := render

end Grid

end Pinout
