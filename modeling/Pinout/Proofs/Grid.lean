import Pinout.Grid
import Pinout.Proofs.Text.Fields
import Pinout.Proofs.Text.Lines
import Pinout.Proofs.Text.Unblanked

/-! # The lines of a table

A cell is followed by spaces and nothing else. So a table whose cells stay on one line has the lines
of its headings and of its rows. Widths and collapsed columns change nothing but the blanks of a line,
and widths do not depend on the order of the rows.
-/

namespace Pinout

namespace Grid

open Text

theorem cellText_eq_append (collapsed : Bool) (width : Nat) (cell : String) :
    ∃ room, cellText collapsed width cell = cell.toList ++ List.replicate room ' ' := by
  unfold cellText
  split
  · split
    · next empty => exact ⟨0, by simp [String.isEmpty_iff.1 empty]⟩
    · exact ⟨1, rfl⟩
  · exact ⟨width - cell.length + 1, by simp [List.replicate_succ']⟩

theorem mem_cellsText {collapsed : Option Nat} {column : Nat} {widths : List Nat}
    {cells : List String} {c : Char} (member : c ∈ cellsText collapsed column widths cells) :
    c = ' ' ∨ ∃ cell ∈ cells, c ∈ cell.toList := by
  induction cells generalizing column widths with
  | nil => cases member
  | cons cell cells ih =>
    rw [cellsText] at member
    obtain ⟨room, text⟩ := cellText_eq_append (collapsed == some column) (widths.headD 0) cell
    rw [text, List.mem_append, List.mem_append] at member
    rcases member with (here | here) | here
    · exact .inr ⟨cell, List.mem_cons_self, here⟩
    · exact .inl (List.eq_of_mem_replicate here)
    · exact (ih here).imp_right fun ⟨cell', there, inside⟩ =>
        ⟨cell', List.mem_cons_of_mem cell there, inside⟩

theorem oneLine_cellsText (collapsed : Option Nat) (column : Nat) (widths : List Nat)
    {cells : List String} (oneLine : ∀ cell ∈ cells, OneLine cell.toList) :
    OneLine (cellsText collapsed column widths cells) := by
  intro c member
  rcases mem_cellsText member with rfl | ⟨cell, here, inside⟩
  · decide
  · exact oneLine cell here c inside

theorem unblanked_cellText (collapsed : Bool) (width : Nat) (cell : String) :
    unblanked (.ofList (cellText collapsed width cell)) = unblanked cell := by
  obtain ⟨room, text⟩ := cellText_eq_append collapsed width cell
  have padding : (List.replicate room ' ').filter (!isBlank ·) = [] :=
    List.filter_replicate_of_neg (by decide)
  rw [text, unblanked, String.toList_ofList, List.filter_append, padding, List.append_nil]
  rfl

theorem unblanked_cellsText (collapsed : Option Nat) (column : Nat) (widths : List Nat)
    (cells : List String) :
    unblanked (.ofList (cellsText collapsed column widths cells)) =
      String.join (cells.map unblanked) := by
  induction cells generalizing column widths with
  | nil => rfl
  | cons cell cells ih =>
    rw [cellsText, String.ofList_append, unblanked_append, unblanked_cellText, ih, List.map_cons,
      String.join_cons]

theorem widen_comm (widths : List Nat) (row row' : List String) :
    widen (widen widths row) row' = widen (widen widths row') row := by
  induction row generalizing widths row' with
  | nil => cases row' <;> cases widths <;> rfl
  | cons cell row ih =>
    cases row' with
    | nil => cases widths <;> rfl
    | cons cell' row' =>
      cases widths with
      | nil => simp only [widen, ih, Nat.max_comm]
      | cons width widths => simp only [widen, ih, Nat.max_right_comm]

/-- How wide the columns are does not depend on the order of the rows. -/
theorem widths_congr {grid grid' : Grid} (headings : grid.headings = grid'.headings)
    (rows : grid.rows.Perm grid'.rows) : grid.widths = grid'.widths := by
  rw [widths, widths, headings]
  exact rows.foldl_eq' (fun row _ row' _ widths => widen_comm widths row row') _

def line (grid : Grid) (cells : List String) : String :=
  .ofList (trimEnd (cellsText grid.collapsed 0 grid.widths cells))

/-- Without its blanks, a line is the cells of its row one after the other. -/
theorem unblanked_line (grid : Grid) (cells : List String) :
    unblanked (grid.line cells) = String.join (cells.map unblanked) := by
  rw [line, unblanked_trimEnd, unblanked_cellsText]

/-- The cells of each line: headings and what underlines them, and the rows. -/
def lineCells (grid : Grid) : List (List String) :=
  headingLines grid.headings grid.widths ++ grid.rows

theorem lineCells_of_noHeadings {grid : Grid} (noHeadings : grid.headings = []) :
    grid.lineCells = grid.rows := by
  rw [lineCells, noHeadings]
  rfl

theorem linesOf_render {grid : Grid}
    (oneLine : ∀ cells ∈ grid.lineCells, ∀ cell ∈ cells, OneLine cell.toList) :
    linesOf grid.render = grid.lineCells.map grid.line := by
  have text : grid.render = String.join ((grid.lineCells.map grid.line).map (· ++ "\n")) := by
    rw [← String.toList_inj, render, String.toList_ofList]
    simp only [String.toList_join, List.flatMap_map, String.toList_append, line,
      String.toList_ofList]
    rfl
  have oneLine' : ∀ line ∈ grid.lineCells.map grid.line, OneLine line.toList := by
    intro line member c inside
    obtain ⟨cells, here, rfl⟩ := List.mem_map.1 member
    rw [Grid.line, String.toList_ofList] at inside
    exact oneLine_cellsText _ _ _ (oneLine cells here) c ((trimEnd_isPrefix _).subset inside)
  rw [text, linesOf_join oneLine']

end Grid

end Pinout
