import Mathlib.Algebra.Ring.Nat
import Mathlib.Data.List.Forall2
import Pinout.Proofs.Grid

/-! # Columns that line up

Widths are gathered row by row, and every line looks up the width of each of its cells. The widths
that are found are those of the widest cells, and there is one for every cell. So where no column is
collapsed, the cells of a column start at one place, behind the columns in front of it.
-/

namespace Pinout.Grid

open Text

/-! ## Widths -/

def column (grid : Grid) (k : Nat) : List String :=
  (grid.headings :: grid.rows).filterMap (·[k]?)

def columnWidth (grid : Grid) (k : Nat) : Nat :=
  ((grid.column k).map String.length).max?.getD 0

/-- Where a column starts: behind the columns in front of it, each with a space. -/
def columnStart (grid : Grid) (k : Nat) : Nat :=
  ((List.range k).map (grid.columnWidth · + 1)).sum

theorem length_widen (widths : List Nat) (row : List String) :
    (widen widths row).length = max widths.length row.length := by
  fun_induction widen widths row with
  | case1 widths => simp
  | case2 cell row ih => simp [ih]
  | case3 width widths cell row ih => simp [ih]

theorem getD_widen (widths : List Nat) (row : List String) (k : Nat) :
    (widen widths row).getD k 0 = max (widths.getD k 0) ((row[k]?.map String.length).getD 0) := by
  fun_induction widen widths row generalizing k with
  | case1 widths => simp
  | case2 cell row ih =>
    cases k with
    | zero => simp
    | succ k => simpa using ih k
  | case3 width widths cell row ih =>
    cases k with
    | zero => simp
    | succ k => simpa using ih k

/-- There is a width for every cell. -/
theorem length_le_length_widths {grid : Grid} {cells : List String}
    (member : cells ∈ grid.headings :: grid.rows) : cells.length ≤ grid.widths.length := by
  have grows (rows : List (List String)) (widths : List Nat) :
      widths.length ≤ (rows.foldl widen widths).length ∧
        ∀ row ∈ rows, row.length ≤ (rows.foldl widen widths).length := by
    induction rows generalizing widths with
    | nil => simp
    | cons row rows ih =>
      obtain ⟨before, others⟩ := ih (widen widths row)
      rw [length_widen] at before
      rw [List.foldl_cons, List.forall_mem_cons]
      exact ⟨by omega, by omega, others⟩
  obtain ⟨headings, rows⟩ := grows grid.rows (grid.headings.map String.length)
  rw [List.length_map] at headings
  rcases List.mem_cons.1 member with rfl | member
  · exact headings
  · exact rows cells member

theorem columnWidth_eq_foldl (grid : Grid) (k : Nat) :
    grid.columnWidth k = ((grid.column k).map String.length).foldl max 0 := by
  rw [columnWidth, List.foldl_max, Nat.zero_max]

/-- The width that is found is that of the widest cell. -/
theorem getD_widths (grid : Grid) (k : Nat) : grid.widths.getD k 0 = grid.columnWidth k := by
  have gathers (rows : List (List String)) (widths : List Nat) :
      (rows.foldl widen widths).getD k 0 =
        ((rows.filterMap (·[k]?)).map String.length).foldl max (widths.getD k 0) := by
    induction rows generalizing widths with
    | nil => rfl
    | cons row rows ih =>
      rw [List.foldl_cons, ih, getD_widen]
      cases here : row[k]? <;> simp [here]
  rw [widths, gathers, columnWidth_eq_foldl, column]
  cases here : grid.headings[k]? <;> simp [here]

theorem getElem?_widths {grid : Grid} {k : Nat} (inside : k < grid.widths.length) :
    grid.widths[k]? = some (grid.columnWidth k) := by
  rw [← getD_widths, List.getD_eq_getElem?_getD, List.getElem?_eq_getElem inside]
  rfl

theorem length_le_columnWidth {grid : Grid} {cells : List String} {k : Nat} {cell : String}
    (member : cells ∈ grid.headings :: grid.rows) (here : cells[k]? = some cell) :
    cell.length ≤ grid.columnWidth k :=
  List.le_max?_getD_of_mem (List.mem_map_of_mem (List.mem_filterMap.2 ⟨cells, member, here⟩))

/-! ## Lines -/

/-- A line of as many equals signs as each headed column is wide. -/
def underline (grid : Grid) : List String :=
  (List.range grid.headings.length).map fun k =>
    String.ofList (List.replicate (grid.columnWidth k) '=')

theorem lineCells_eq (grid : Grid) :
    grid.lineCells =
      (if grid.headings = [] then [] else [grid.headings, grid.underline]) ++ grid.rows := by
  have inside := length_le_length_widths (List.mem_cons_self (a := grid.headings) (l := grid.rows))
  have taken : grid.widths.take grid.headings.length =
      (List.range grid.headings.length).map grid.columnWidth := by
    refine List.ext_getElem? fun k => ?_
    rw [List.getElem?_take, List.getElem?_map]
    split
    · next headed => rw [getElem?_widths (by omega), List.getElem?_range headed]; rfl
    · next beyond => rw [List.getElem?_eq_none (by simpa using beyond), Option.map_none]
  rw [lineCells, headingLines, taken, List.map_map]
  simp only [List.isEmpty_iff]
  rfl

theorem oneLine_underline (grid : Grid) : ∀ cell ∈ grid.underline, OneLine cell.toList := by
  intro cell member c inside
  obtain ⟨k, -, rfl⟩ := List.mem_map.1 member
  rw [String.toList_ofList] at inside
  rw [List.eq_of_mem_replicate inside]
  decide

/-- Every cell of a line fits into its column. -/
theorem fits_of_mem_lineCells {grid : Grid} {cells : List String}
    (member : cells ∈ grid.lineCells) :
    cells.length ≤ grid.widths.length ∧
      ∀ k cell, cells[k]? = some cell → cell.length ≤ grid.columnWidth k := by
  have drawn {cells : List String} (member : cells ∈ grid.headings :: grid.rows) :
      cells.length ≤ grid.widths.length ∧
        ∀ k cell, cells[k]? = some cell → cell.length ≤ grid.columnWidth k :=
    ⟨length_le_length_widths member, fun _ _ => length_le_columnWidth member⟩
  rw [lineCells_eq, List.mem_append] at member
  rcases member with member | member
  · split at member
    · cases member
    · rcases List.mem_cons.1 member with rfl | member
      · exact drawn List.mem_cons_self
      · rw [List.mem_singleton.1 member]
        refine ⟨?_, fun k cell here => ?_⟩
        · rw [underline, List.length_map, List.length_range]
          exact length_le_length_widths List.mem_cons_self
        · rw [underline, List.getElem?_map, Option.map_eq_some_iff] at here
          obtain ⟨k', there, rfl⟩ := here
          obtain ⟨-, rfl⟩ := List.getElem?_eq_some_iff.1 there
          simp
  · exact drawn (List.mem_cons_of_mem _ member)

/-! ## Looking up widths -/

/-- The cells of a line from the given column on, unless a cell has no width. -/
def cellsText? (collapsed : Option Nat) (widths : List Nat) :
    Nat → List String → Option (List Char)
  | _, [] => some []
  | column, cell :: cells => do
    let text ←
      if collapsed == some column then some (cellText true 0 cell)
      else widths[column]?.map (cellText false · cell)
    return text ++ (← cellsText? collapsed widths (column + 1) cells)

def render? (grid : Grid) : Option String := do
  let lines : List (List Char) ← grid.lineCells.mapM (cellsText? grid.collapsed grid.widths 0)
  return .ofList (lines.flatMap fun line => trimEnd line ++ ['\n'])

theorem cellsText?_eq {collapsed : Option Nat} {widths : List Nat} {column : Nat}
    {cells : List String} (inside : column + cells.length ≤ widths.length) :
    cellsText? collapsed widths column cells =
      some (cellsText collapsed column (widths.drop column) cells) := by
  induction cells generalizing column with
  | nil => rfl
  | cons cell cells ih =>
    rw [List.length_cons] at inside
    obtain ⟨width, here⟩ : ∃ width, widths[column]? = some width :=
      ⟨_, List.getElem?_eq_getElem (by omega)⟩
    have first : (widths.drop column).headD 0 = width := by
      rw [List.headD_eq_head?_getD, List.head?_drop, here, Option.getD_some]
    rw [cellsText?, ih (by omega), cellsText, first, List.tail_drop, here]
    cases collapsed == some column <;> rfl

/-- Every width that is looked up is found. -/
theorem render?_eq (grid : Grid) : grid.render? = some grid.render := by
  have found : ∀ cells ∈ grid.lineCells, cellsText? grid.collapsed grid.widths 0 cells =
      some (cellsText grid.collapsed 0 grid.widths cells) := by
    intro cells member
    have inside := (fits_of_mem_lineCells member).1
    exact cellsText?_eq (by omega)
  have all : grid.lineCells.mapM (cellsText? grid.collapsed grid.widths 0) =
      some (grid.lineCells.map (cellsText grid.collapsed 0 grid.widths)) := by
    generalize grid.lineCells = lines at found
    induction lines with
    | nil => rfl
    | cons cells lines ih =>
      rw [List.forall_mem_cons] at found
      rw [List.mapM_cons, found.1, ih found.2]
      rfl
  rw [render?, all, render]
  simp only [Option.bind_eq_bind, Option.bind_some, List.flatMap_map]
  rfl

/-! ## Places -/

theorem columnStart_succ (grid : Grid) (k : Nat) :
    grid.columnStart (k + 1) = grid.columnStart k + grid.columnWidth k + 1 := by
  simp [columnStart, List.range_succ, Nat.add_assoc]

theorem length_cellText {width : Nat} {cell : String} (fits : cell.length ≤ width) :
    (cellText false width cell).length = width + 1 := by
  simp only [cellText, Bool.false_eq_true, if_false, List.length_append, List.length_replicate,
    List.length_singleton, String.length_toList]
  omega

/-- Behind the padded cells in front of it, a cell is followed by what pads it. -/
theorem exists_cellsText {widths : List Nat} {cells : List String} {k : Nat} {cell : String}
    (fits : ∀ j cell, cells[j]? = some cell → cell.length ≤ widths.getD j 0)
    (here : cells[k]? = some cell) (column : Nat) :
    ∃ before after,
      cellsText none column widths cells = before ++
        (cell.toList ++ (List.replicate (widths.getD k 0 - cell.length + 1) ' ' ++ after)) ∧
      before.length = ((List.range k).map (widths.getD · 0 + 1)).sum := by
  induction cells generalizing widths k column with
  | nil => cases here
  | cons first cells ih =>
    have width : widths.headD 0 = widths.getD 0 0 := by cases widths <;> rfl
    rw [cellsText, width]
    cases k with
    | zero =>
      cases here
      refine ⟨[], cellsText none (column + 1) widths.tail cells, ?_, rfl⟩
      simp [cellText, List.replicate_succ']
    | succ k =>
      have shift (j : Nat) : widths.tail.getD j 0 = widths.getD (j + 1) 0 := by
        cases widths <;> rfl
      obtain ⟨before, after, behind, length⟩ := ih
        (fun j cell there => shift j ▸ fits (j + 1) cell there) here (column + 1)
      refine ⟨cellText false (widths.getD 0 0) first ++ before, after, ?_, ?_⟩
      · rw [behind, shift, List.append_assoc]
        rfl
      · rw [List.length_append, length_cellText (fits 0 first rfl), length,
          List.range_succ_eq_map]
        simp only [shift, List.map_cons, List.map_map, List.sum_cons]
        rfl

/-- The cells of a line stand where their columns start, with spaces up to the next column, and none
behind the last of them. -/
structure Aligned (grid : Grid) (cells : List String) (line : String) : Prop where
  start : ∀ k cell, cells[k]? = some cell → cell ≠ "" → trimEnd cell.toList = cell.toList →
    ∃ before after, line.toList = before ++ (cell.toList ++ after) ∧
      before.length = grid.columnStart k
  gap : ∀ k cell, cells[k]? = some cell → ∀ i, grid.columnStart k + cell.length ≤ i →
    i < grid.columnStart (k + 1) → ∀ c ∈ line.toList[i]?, c = ' '
  trimmed : trimEnd line.toList = line.toList

theorem aligned_line {grid : Grid} (flat : grid.collapsed = none) {cells : List String}
    (member : cells ∈ grid.lineCells) : Aligned grid cells (grid.line cells) := by
  have fits := (fits_of_mem_lineCells member).2
  have padded {k : Nat} {cell : String} (here : cells[k]? = some cell) :
      ∃ before after, cellsText none 0 grid.widths cells = before ++
          (cell.toList ++ (List.replicate (grid.columnWidth k - cell.length + 1) ' ' ++ after)) ∧
        before.length = grid.columnStart k := by
    have fits (j : Nat) (cell : String) (there : cells[j]? = some cell) :
        cell.length ≤ grid.widths.getD j 0 := by
      rw [getD_widths]
      exact fits j cell there
    simpa only [getD_widths, columnStart] using exists_cellsText fits here 0
  have text : (grid.line cells).toList = trimEnd (cellsText none 0 grid.widths cells) := by
    rw [line, String.toList_ofList, flat]
  constructor
  case start =>
    intro k cell here nonempty whole
    obtain ⟨before, after, split, length⟩ := padded here
    -- the last character of the cell is visible, so nothing in front of it is trimmed
    obtain ⟨front, last, chars⟩ : ∃ front last, cell.toList = front ++ [last] :=
      (List.eq_nil_or_concat' cell.toList).resolve_left (by simpa using nonempty)
    have visible : isBlank last = false :=
      trimEnd_eq_self_iff.1 whole last (by rw [chars]; simp)
    generalize List.replicate (grid.columnWidth k - cell.length + 1) ' ' ++ after = behind at split
    refine ⟨before, trimEnd behind, ?_, length⟩
    calc (grid.line cells).toList
      _ = trimEnd ((before ++ front) ++ last :: behind) := by rw [text, split, chars]; simp
      _ = (before ++ front) ++ last :: trimEnd behind := trimEnd_append_cons visible _ _
      _ = before ++ (cell.toList ++ trimEnd behind) := by rw [chars]; simp
  case gap =>
    intro k cell here i behind inFront c inside
    obtain ⟨before, after, split, length⟩ := padded here
    rw [columnStart_succ] at inFront
    have chars := String.length_toList (s := cell)
    have there : (cellsText none 0 grid.widths cells)[i]? = some c := by
      obtain ⟨rest, whole⟩ := trimEnd_isPrefix (cellsText none 0 grid.widths cells)
      rw [text] at inside
      rw [← whole, List.getElem?_append_left (List.getElem?_eq_some_iff.1 inside).1]
      exact inside
    rw [split, List.getElem?_append_right (by omega), List.getElem?_append_right (by omega),
      List.getElem?_append_left (by simp; omega)] at there
    exact List.eq_of_mem_replicate (List.mem_of_getElem? there)
  case trimmed =>
    rw [text, trimEnd_trimEnd]

/-- A table whose cells stay on one line, without a collapsed column, is rendered without fail: to
one line for its headings and one that underlines them, if it has headings, and one for each row. On
all of them the cells are aligned. -/
theorem columns_line_up {grid : Grid} (flat : grid.collapsed = none)
    (oneLine : ∀ cells ∈ grid.headings :: grid.rows, ∀ cell ∈ cells, OneLine cell.toList) :
    grid.render? = some grid.render ∧
      List.Forall₂ (Aligned grid)
        ((if grid.headings = [] then [] else [grid.headings, grid.underline]) ++ grid.rows)
        (linesOf grid.render) := by
  refine ⟨render?_eq grid, ?_⟩
  rw [← lineCells_eq, linesOf_render, List.forall₂_map_right_iff, List.forall₂_same]
  · exact fun cells member => aligned_line flat member
  · intro cells member
    rw [lineCells_eq, List.mem_append] at member
    rcases member with member | member
    · split at member
      · cases member
      · rcases List.mem_cons.1 member with rfl | member
        · exact oneLine _ List.mem_cons_self
        · rw [List.mem_singleton.1 member]
          exact oneLine_underline grid
    · exact oneLine cells (List.mem_cons_of_mem _ member)

/-- Rows of four lengths, the longest of them longer than the headings. -/
def ragged : Grid :=
  { headings := ["Näme", "T"]
    rows := [["é", "", "x"], [], ["", "Wing"], ["ab c", "ü", "", "| p q"]] }

theorem columns_line_up_ragged :
    ragged.collapsed = none ∧
      (∀ cells ∈ ragged.headings :: ragged.rows, ∀ cell ∈ cells, OneLine cell.toList) ∧
      linesOf ragged.render =
        ["Näme T", "==== ====", "é         x", "", "     Wing", "ab c ü      | p q"] ∧
      ragged.render? = some ragged.render ∧
      List.Forall₂ (Aligned ragged) ([ragged.headings, ragged.underline] ++ ragged.rows)
        (linesOf ragged.render) :=
  ⟨rfl, by decide, by decide +kernel, columns_line_up rfl (by decide)⟩

end Pinout.Grid
