import Pinout.Constraint.Generation
import Pinout.Proofs.Catalog.Texts
import Pinout.Proofs.Grid
import Pinout.Proofs.Sorting

/-! # Rows of a generated file

Which positions have a row, and in which order the rows stand, is settled before anything is laid
out. The lines of a file are those of its header, those of its configurations and one for each row.
-/

namespace Pinout

def PinView.isRouted (view : PinView) : Bool :=
  view.netName.isSome && view.physicalName.isSome

namespace Constraint

open Text

/-! ## Rows -/

/-- The first cell of the row of a position, which is a comment where nothing is routed. -/
def netCell (view : PinView) : String :=
  if view.isRouted then "NET " ++ view.netName.getD "" else "#NET " ++ view.canonicalName

def cells (options : Options) (view : PinView) : List String :=
  [netCell view, "LOC" ++ options.equals ++ "\"" ++ view.physicalName.getD "" ++ "\"",
    additionsCell options view.additions, "# " ++ view.canonicalName]

theorem row?_eq (options : Options) (view : PinView) :
    row? options view =
      if view.isRouted || !options.excludeUnusedPins then some (cells options view) else none := by
  rw [row?, cells, netCell, PinView.isRouted]
  cases view.netName with
  | none => cases options.excludeUnusedPins <;> rfl
  | some net =>
    cases view.physicalName with
    | none => cases options.excludeUnusedPins <;> rfl
    | some pin => rfl

def shown (options : Options) (views : List PinView) : List PinView :=
  views.filter fun view => view.isRouted || !options.excludeUnusedPins

theorem filterMap_row? (options : Options) (views : List PinView) :
    views.filterMap (row? options) = (shown options views).map (cells options) := by
  rw [shown, ← List.filterMap_eq_map, List.filterMap_filter]
  exact List.filterMap_congr fun view _ => row?_eq options view

def arranged (options : Options) (views : List PinView) : List PinView :=
  if options.sorted then
    (shown options views).mergeSort fun a b => lower (netCell a) ≤ lower (netCell b)
  else
    shown options views

theorem stablySorted_arranged {options : Options} (sorted : options.sorted = true)
    (views : List PinView) :
    StablySorted (fun view => lower (netCell view)) (shown options views)
      (arranged options views) := by
  rw [arranged, if_pos sorted]
  exact stablySorted_mergeSort _ _

theorem arranged_of_unsorted {options : Options} (unsorted : options.sorted = false)
    (views : List PinView) : arranged options views = shown options views := by
  rw [arranged, if_neg (by simp [unsorted])]

theorem perm_arranged (options : Options) (views : List PinView) :
    (arranged options views).Perm (shown options views) := by
  rw [arranged]
  split
  · exact List.mergeSort_perm ..
  · exact .refl _

theorem rows_grid (options : Options) (views : List PinView) :
    (grid options views).rows = (arranged options views).map (cells options) := by
  have collapsed (rows : Grid) :
      (if options.collapseColumns then rows.collapse additionsColumn else rows).rows =
        rows.rows := by
    split <;> rfl
  rw [grid, collapsed, arranged]
  split
  · have sorted : ((shown options views).mergeSort
          fun a b => lower (netCell a) ≤ lower (netCell b)).map (cells options) =
        ((shown options views).map (cells options)).mergeSort
          fun a b => Grid.sortKey netColumn a ≤ Grid.sortKey netColumn b :=
      List.map_mergeSort fun _ _ _ _ => rfl
    rw [Grid.rows_sortBy, filterMap_row?, sorted]
  · exact filterMap_row? options views

theorem headings_grid (options : Options) (views : List PinView) :
    (grid options views).headings = [] := by
  unfold grid Grid.sortBy Grid.collapse
  dsimp only
  split <;> split <;> rfl

theorem collapsed_grid (options : Options) (views : List PinView) :
    (grid options views).collapsed =
      if options.collapseColumns then some additionsColumn else none := by
  unfold grid Grid.sortBy Grid.collapse
  dsimp only
  split <;> split <;> rfl

/-! ## Texts of rows -/

theorem Options.plain_equals (options : Options) : Plain options.equals := by
  rw [Options.equals]
  split <;> decide

section

variable {p : String → Prop} (glued : Glued p)
include glued

theorem Options.glued_assignment (options : Options) {assignment : Assignment}
    (texts : ∀ text ∈ assignmentTexts assignment, p text) : p (options.assignment assignment) := by
  obtain ⟨key, value⟩ := assignment
  obtain ⟨own, others⟩ := List.forall_mem_cons.1 texts
  cases value with
  | none => exact own
  | some value =>
    exact glued.append (glued.append own (glued.plain options.plain_equals))
      (others value List.mem_cons_self)

theorem glued_additionsCell (options : Options) {additions : Additions}
    (texts : ∀ text ∈ additionTexts additions, p text) : p (additionsCell options additions) := by
  rw [additionsCell]
  split
  · exact glued.plain (by decide)
  · have parts : ∀ part ∈ additions.entries.map options.assignment, p part := by
      intro part member
      obtain ⟨assignment, inside, rfl⟩ := List.mem_map.1 member
      exact options.glued_assignment glued fun text here =>
        texts text (List.mem_flatMap.2 ⟨assignment, inside, here⟩)
    refine glued.append (glued.append (glued.plain (by decide)) ?_) (glued.plain (by decide))
    exact glued.intercalate (glued.plain (by decide)) parts

/-- What holds of all that is shown of a position holds of its row but for the pin, which has
quotation marks. -/
theorem glued_cells (options : Options) {view : PinView} (texts : ∀ text ∈ view.texts, p text) :
    p (netCell view) ∧ p (view.physicalName.getD "") ∧ p (additionsCell options view.additions) ∧
      p ("# " ++ view.canonicalName) := by
  have name : p view.canonicalName := texts _ List.mem_cons_self
  refine ⟨?_, ?_, ?_, glued.append (glued.plain (by decide)) name⟩
  · rw [netCell]
    split
    · refine glued.append (glued.plain (by decide)) ?_
      cases here : view.netName with
      | none => exact glued.plain (by decide)
      | some net => exact texts net (by simp [PinView.texts, here])
    · exact glued.append (glued.plain (by decide)) name
  · cases here : view.physicalName with
    | none => exact glued.plain (by decide)
    | some pin => exact texts pin (by simp [PinView.texts, here])
  · exact glued_additionsCell glued options fun text here => texts text (List.mem_append_right _ here)

end

theorem oneLine_cells (options : Options) {view : PinView}
    (texts : ∀ text ∈ view.texts, OneLine text.toList) :
    ∀ cell ∈ cells options view, OneLine cell.toList := by
  have glued := glued_oneLine
  obtain ⟨net, pin, additions, name⟩ := glued_cells glued options texts
  have mark : OneLine "\"".toList := by decide
  have key : OneLine ("LOC" ++ options.equals).toList :=
    glued.append (glued.plain (by decide)) (glued.plain options.plain_equals)
  have quoted := glued.append (glued.append (glued.append key mark) pin) mark
  simp only [cells, List.forall_mem_cons]
  exact ⟨net, quoted, additions, name, nofun⟩

/-! ## Lines -/

theorem ended_header (catalog : Catalog) (board : BoardId) :
    Ended (catalog.header board).toList := by
  refine ended_join fun text member => ?_
  obtain ⟨ancestor, -, here⟩ := List.mem_filterMap.1 member
  obtain ⟨header, -, rfl⟩ := Option.map_eq_some_iff.1 here
  rw [String.toList_append]
  exact ended_concat header.toList

theorem ended_headerText (catalog : Catalog) (board : BoardId) :
    Ended (headerText catalog board).toList := by
  unfold headerText
  dsimp only
  split
  · exact .inl rfl
  · rw [String.toList_append]
    exact ended_concat _

def configLines (catalog : Catalog) (board : BoardId) (options : Options) : List String :=
  (catalog.configs board).map (fun config => "CONFIG " ++ options.assignment config ++ ";") ++
    if (catalog.configs board).isEmpty then [] else [""]

theorem configsText_eq_join (catalog : Catalog) (board : BoardId) (options : Options) :
    configsText catalog board options =
      String.join ((configLines catalog board options).map (· ++ "\n")) := by
  have ended (config : Assignment) : "CONFIG " ++ options.assignment config ++ ";\n" =
      "CONFIG " ++ options.assignment config ++ ";" ++ "\n" := by
    simp [String.append_assoc]
  rw [configsText, configLines, List.map_append, String.join_append, List.map_map]
  simp only [ended]
  congr 1
  split <;> rfl

theorem ended_configsText (catalog : Catalog) (board : BoardId) (options : Options) :
    Ended (configsText catalog board options).toList := by
  rw [configsText_eq_join]
  refine ended_join fun text member => ?_
  obtain ⟨line, -, rfl⟩ := List.mem_map.1 member
  rw [String.toList_append]
  exact ended_concat line.toList

theorem generate_eq_ok {catalog : Catalog} {board : BoardId} {filter : PinFilter}
    {options : Options} {text : String} (h : generate catalog board filter options = .ok text) :
    ∃ views, filter.select catalog board = .ok views ∧
      text = headerText catalog board ++ configsText catalog board options ++
        (grid options views).render := by
  unfold generate at h
  cases selected : filter.select catalog board with
  | error error => rw [selected] at h; exact nomatch h
  | ok views =>
    rw [selected] at h
    exact ⟨views, rfl, (Except.ok.inj h).symm⟩

def front (catalog : Catalog) (board : BoardId) (options : Options) : List String :=
  linesOf (headerText catalog board) ++ linesOf (configsText catalog board options)

def rowLine (options : Options) (views : List PinView) (view : PinView) : String :=
  (grid options views).line (cells options view)

/-- A row is trimmed behind its second cell only, as this one ends with a quotation mark. -/
theorem exists_rowLine (options : Options) (views : List PinView) (view : PinView) :
    ∃ room rest,
      (∀ c ∈ rest, c = ' ' ∨ ∃ cell ∈ [additionsCell options view.additions,
        "# " ++ view.canonicalName], c ∈ cell.toList) ∧
      (rowLine options views view).toList =
        (netCell view).toList ++
          (List.replicate room ' ' ++ ("LOC" ++ options.equals ++ "\"").toList) ++
          (view.physicalName.getD "").toList ++ '"' :: rest := by
  let table := grid options views
  let pinCell := "LOC" ++ options.equals ++ "\"" ++ view.physicalName.getD "" ++ "\""
  let others := [additionsCell options view.additions, "# " ++ view.canonicalName]
  obtain ⟨room, netText⟩ :=
    Grid.cellText_eq_append (table.collapsed == some 0) (table.widths.headD 0) (netCell view)
  obtain ⟨room', pinText⟩ :=
    Grid.cellText_eq_append (table.collapsed == some 1) (table.widths.tail.headD 0) pinCell
  let back := List.replicate room' ' ' ++
    Grid.cellsText table.collapsed 2 table.widths.tail.tail others
  refine ⟨room, trimEnd back, fun c member => ?_, ?_⟩
  · rcases List.mem_append.1 ((trimEnd_isPrefix back).subset member) with padding | inCells
    · exact .inl (List.eq_of_mem_replicate padding)
    · exact Grid.mem_cellsText inCells
  · rw [rowLine, Grid.line, String.toList_ofList,
      ← trimEnd_append_cons (show isBlank '"' = false by decide)]
    congr 1
    rw [cells, Grid.cellsText, Grid.cellsText, netText, pinText]
    simp [pinCell, back, others, table]

/-- In a plain row, what stands behind the pin has no quotation mark. -/
theorem exists_plain_rowLine (options : Options) (views : List PinView) {view : PinView}
    (plain : ∀ text ∈ view.texts, Plain text) :
    ∃ room rest, ('"' ∉ rest ∧ OneLine rest) ∧
      (rowLine options views view).toList =
        (netCell view).toList ++
          (List.replicate room ' ' ++ ("LOC" ++ options.equals ++ "\"").toList) ++
          (view.physicalName.getD "").toList ++ '"' :: rest := by
  obtain ⟨-, -, additions, name⟩ := glued_cells glued_plain options plain
  obtain ⟨room, rest, source, whole⟩ := exists_rowLine options views view
  have plainRest (c : Char) (member : c ∈ rest) : c ≠ '"' ∧ isBreak c = false := by
    rcases source c member with rfl | ⟨cell, here, inside⟩
    · decide
    · have plainCell : Plain cell := by
        simp only [List.mem_cons, List.not_mem_nil, or_false] at here
        rcases here with rfl | rfl
        · exact additions
        · exact name
      exact ⟨ne_of_mem_of_not_mem inside plainCell.1, plainCell.2 c inside⟩
  exact ⟨room, rest, ⟨fun quote => (plainRest _ quote).1 rfl, fun c member => (plainRest c member).2⟩,
    whole⟩

theorem linesOf_rows (options : Options) {views : List PinView}
    (texts : ∀ view ∈ views, ∀ text ∈ view.texts, OneLine text.toList) :
    linesOf (grid options views).render =
      (arranged options views).map (rowLine options views) := by
  have cells : (grid options views).lineCells = (arranged options views).map (cells options) := by
    rw [Grid.lineCells_of_noHeadings (headings_grid options views), rows_grid]
  have oneLine : ∀ row ∈ (grid options views).lineCells, ∀ cell ∈ row, OneLine cell.toList := by
    intro row member
    rw [cells] at member
    obtain ⟨view, here, rfl⟩ := List.mem_map.1 member
    have chosen := List.mem_of_mem_filter ((perm_arranged options views).subset here)
    exact oneLine_cells options (texts view chosen)
  rw [Grid.linesOf_render oneLine, cells, List.map_map]
  rfl

/-- A file has the lines of its header, those of its configurations, and one for each row. -/
theorem linesOf_generated (catalog : Catalog) (board : BoardId) (options : Options)
    {views : List PinView}
    (texts : ∀ view ∈ views, ∀ text ∈ view.texts, OneLine text.toList) :
    linesOf (headerText catalog board ++ configsText catalog board options ++
        (grid options views).render) =
      front catalog board options ++ (arranged options views).map (rowLine options views) := by
  have ended : Ended (headerText catalog board ++ configsText catalog board options).toList := by
    rw [String.toList_append]
    exact (ended_headerText catalog board).append (ended_configsText catalog board options)
  rw [linesOf_append ended, linesOf_append (ended_headerText catalog board),
    linesOf_rows options texts]
  rfl

end Constraint

end Pinout
