import Pinout.Proofs.Constraint.Rows
import Pinout.Proofs.Constraint.Selection

/-! # Layouts of one file

Whatever the options, a file for some positions has the same lines but for blanks. Sorting puts the
rows into another order and leaves everything else as it was, and positions that are not routed have
a row of their own or none.
-/

namespace Pinout.Constraint

open Text

theorem unblanked_equals (options : Options) : unblanked options.equals = "=" := by
  rw [Options.equals]
  split <;> rfl

theorem unblanked_assignment (options options' : Options) (assignment : Assignment) :
    unblanked (options.assignment assignment) = unblanked (options'.assignment assignment) := by
  obtain ⟨key, value⟩ := assignment
  cases value with
  | none => rfl
  | some value => simp [Options.assignment, unblanked_equals]

theorem unblanked_additionsCell (options options' : Options) (additions : Additions) :
    unblanked (additionsCell options additions) = unblanked (additionsCell options' additions) := by
  rw [additionsCell, additionsCell]
  split
  · rfl
  · simp only [unblanked_append, unblanked_intercalate, List.map_map, Function.comp_def,
      unblanked_assignment options options']

theorem unblanked_rowLine (options options' : Options) (views views' : List PinView)
    (view : PinView) :
    unblanked (rowLine options views view) = unblanked (rowLine options' views' view) := by
  simp only [rowLine, Grid.unblanked_line, cells, List.map_cons, unblanked_append,
    unblanked_equals, unblanked_additionsCell options options']

theorem oneLine_configLines {catalog : Catalog} {board : BoardId} (options : Options)
    (oneLine : ∀ text ∈ catalog.texts, OneLine text.toList) :
    ∀ line ∈ configLines catalog board options, OneLine line.toList := by
  intro line member
  rcases List.mem_append.1 member with inside | inside
  · obtain ⟨config, here, rfl⟩ := List.mem_map.1 inside
    have glued := glued_oneLine
    have assignment := options.glued_assignment glued fun text there =>
      oneLine text (Catalog.texts_of_mem_configs here there)
    exact glued.append (glued.append (glued.plain (by decide)) assignment) (glued.plain (by decide))
  · split at inside
    · cases inside
    · rw [List.mem_singleton.1 inside]
      exact List.forall_mem_nil _

theorem linesOf_configsText {catalog : Catalog} {board : BoardId} (options : Options)
    (oneLine : ∀ text ∈ catalog.texts, OneLine text.toList) :
    linesOf (configsText catalog board options) = configLines catalog board options := by
  rw [configsText_eq_join, linesOf_join (oneLine_configLines options oneLine)]

theorem unblanked_front {catalog : Catalog} {board : BoardId} (options options' : Options)
    (oneLine : ∀ text ∈ catalog.texts, OneLine text.toList) :
    (front catalog board options).map unblanked = (front catalog board options').map unblanked := by
  rw [front, front, linesOf_configsText options oneLine, linesOf_configsText options' oneLine,
    List.map_append, List.map_append, configLines, configLines]
  simp only [List.map_append, List.map_map, Function.comp_def, unblanked_append,
    unblanked_assignment options options']

def isUnusedRow (line : String) : Bool :=
  "#NET ".toList.isPrefixOf line.toList

theorem isUnusedRow_rowLine (options : Options) (views : List PinView) (view : PinView) :
    isUnusedRow (rowLine options views view) = !view.isRouted := by
  obtain ⟨room, rest, -, whole⟩ := exists_rowLine options views view
  rw [isUnusedRow, whole, netCell]
  cases view.isRouted <;> simp [List.isPrefixOf]

theorem shown_congr {options options' : Options}
    (same : options.excludeUnusedPins = options'.excludeUnusedPins) (views : List PinView) :
    shown options views = shown options' views := by
  rw [shown, shown, same]

/-- Leaving positions out leaves the others in their order, also when they are sorted. -/
theorem arranged_of_excluded {options options' : Options}
    (sorted : options.sorted = options'.sorted) (all : options.excludeUnusedPins = false)
    (excluded : options'.excludeUnusedPins = true) (views : List PinView) :
    arranged options' views = (arranged options views).filter PinView.isRouted := by
  have left : shown options' views = (shown options views).filter PinView.isRouted := by
    simp [shown, all, excluded]
  cases choice : options.sorted with
  | false =>
    rw [arranged_of_unsorted choice, arranged_of_unsorted (sorted ▸ choice), left]
  | true =>
    -- both sides are stable rearrangements of the rows that are left
    have here := (stablySorted_arranged choice views).filter PinView.isRouted
    rw [← left] at here
    exact (stablySorted_arranged (sorted ▸ choice) views).unique here

/-- Rows in another order are written the same way. -/
theorem rowLine_sorted (options : Options) (sorted : Bool) (views : List PinView) :
    rowLine { options with sorted } views = rowLine options views := by
  let options' : Options := { options with sorted }
  have rows : (grid options' views).rows.Perm (grid options views).rows := by
    rw [rows_grid, rows_grid]
    exact ((perm_arranged options' views).trans (perm_arranged options views).symm).map
      (cells options)
  have widths : (grid options' views).widths = (grid options views).widths :=
    Grid.widths_congr ((headings_grid options' views).trans (headings_grid options views).symm) rows
  have collapsed : (grid options' views).collapsed = (grid options views).collapsed :=
    (collapsed_grid options' views).trans (collapsed_grid options views).symm
  funext view
  rw [rowLine, rowLine, Grid.line, Grid.line, widths, collapsed]
  rfl

/-- A file with one row for each of some positions, those that are not left out. -/
structure HasRows (catalog : Catalog) (board : BoardId) (options : Options) (views : List PinView)
    (text : String) (rows : List PinView) : Prop where
  perm : rows.Perm (views.filter fun view => view.isRouted || !options.excludeUnusedPins)
  lines : linesOf text = front catalog board options ++ rows.map (rowLine options views)

theorem hasRows_generated (catalog : Catalog) (board : BoardId) (options : Options)
    {views : List PinView} (texts : ∀ view ∈ views, ∀ text ∈ view.texts, OneLine text.toList) :
    HasRows catalog board options views
      (headerText catalog board ++ configsText catalog board options ++
        (grid options views).render)
      (arranged options views) where
  perm := perm_arranged options views
  lines := linesOf_generated catalog board options texts

/-- Files with the same positions have the same lines, blanks and order apart. -/
theorem HasRows.perm_lines {catalog : Catalog} {board : BoardId} {options options' : Options}
    {views : List PinView} {text text' : String} {rows rows' : List PinView}
    (here : HasRows catalog board options views text rows)
    (there : HasRows catalog board options' views text' rows')
    (same : options.excludeUnusedPins = options'.excludeUnusedPins)
    (oneLine : ∀ text ∈ catalog.texts, OneLine text.toList) :
    ((linesOf text).map unblanked).Perm ((linesOf text').map unblanked) := by
  have perm : rows.Perm rows' := (same ▸ here.perm).trans there.perm.symm
  have lines : (rows.map (rowLine options views)).map unblanked =
      (rows.map (rowLine options' views)).map unblanked := by
    simp only [List.map_map, Function.comp_def, unblanked_rowLine options options' views views]
  rw [here.lines, there.lines, List.map_append, List.map_append,
    unblanked_front options options' oneLine, lines]
  exact ((perm.map _).map unblanked).append_left _

/-- However a file is laid out, blanks apart it has the same lines: the same ones in front, and the
same row for a position. Sorting only moves rows, and it moves them to where their nets stand in the
alphabet. Leaving out what is not routed takes these rows away and keeps the others in order. -/
theorem generate_layout (catalog : Catalog) (board : BoardId) (filter : PinFilter)
    (options options' : Options) (text : String)
    (generated : generate catalog board filter options = .ok text)
    (oneLine : ∀ text ∈ catalog.texts, OneLine text.toList) :
    ∃ (text' : String) (views rows rows' : List PinView),
      generate catalog board filter options' = .ok text' ∧
      filter.select catalog board = .ok views ∧
      HasRows catalog board options views text rows ∧
      HasRows catalog board options' views text' rows' ∧
      (front catalog board options).map unblanked = (front catalog board options').map unblanked ∧
      (∀ view, (netCell view).toList <+: (rowLine options views view).toList ∧
        unblanked (rowLine options views view) = unblanked (rowLine options' views view)) ∧
      (options.excludeUnusedPins = options'.excludeUnusedPins →
        ((linesOf text).map unblanked).Perm ((linesOf text').map unblanked) ∧
          (options.sorted = false → options'.sorted = true →
            StablySorted (fun view => lower (netCell view)) rows rows')) ∧
      (options' = { options with sorted := options'.sorted } →
        front catalog board options' = front catalog board options ∧
          rowLine options' views = rowLine options views) ∧
      (options.sorted = options'.sorted → options.excludeUnusedPins = false →
        options'.excludeUnusedPins = true →
        (rows'.map (rowLine options' views)).map unblanked =
          ((rows.map (rowLine options views)).filter (!isUnusedRow ·)).map unblanked) := by
  obtain ⟨views, selected, rfl⟩ := generate_eq_ok generated
  have texts : ∀ view ∈ views, ∀ text ∈ view.texts, OneLine text.toList := fun view chosen =>
    glued_oneLine.texts_of_mem_pins oneLine (PinFilter.mem_pins_of_select selected chosen)
  have generated' : generate catalog board filter options' =
      .ok (headerText catalog board ++ configsText catalog board options' ++
        (grid options' views).render) := by
    rw [generate, selected]
    rfl
  have here := hasRows_generated catalog board options texts
  have there := hasRows_generated catalog board options' texts
  refine ⟨_, views, arranged options views, arranged options' views, generated', selected, here,
    there, unblanked_front options options' oneLine, fun view => ⟨?_, ?_⟩, fun same => ⟨?_, ?_⟩, ?_,
    ?_⟩
  · obtain ⟨room, rest, -, whole⟩ := exists_rowLine options views view
    rw [whole, List.append_assoc, List.append_assoc]
    exact List.prefix_append ..
  · exact unblanked_rowLine options options' views views view
  · exact here.perm_lines there same oneLine
  · intro unsorted sorted
    rw [arranged_of_unsorted unsorted, shown_congr same]
    exact stablySorted_arranged sorted views
  · intro onlySorted
    rw [onlySorted]
    exact ⟨rfl, rowLine_sorted options _ views⟩
  · intro sorted all excluded
    have used : (!isUnusedRow ·) ∘ rowLine options views = PinView.isRouted :=
      funext fun view => by simp [isUnusedRow_rowLine]
    rw [arranged_of_excluded sorted all excluded, List.filter_map, used, List.map_map, List.map_map]
    exact List.map_congr_left fun view _ => unblanked_rowLine options' options views views view

/-- A board with a letter that takes two bytes, and with additions on one of its buses. -/
def uneven : Catalog :=
  let slots : List Slot := [⟨{ name := some "P2" }, []⟩, ⟨{}, []⟩]
  { entries := #[
      { board :=
          { names := ["uneven"], header := some "# a\n# b",
            buses := [{ name := "é", slots, additions := ⟨[("DRIVE", some "8")]⟩ },
              { name := "B", slots := [⟨{ name := some "P1" }, []⟩] }],
            configs := [("VCCAUX", some "2.5")] } }] }

theorem generate_layout_uneven :
    let options : Options := { sorted := true, collapseColumns := true }
    let options' : Options := { collapseColumns := true, excludeUnusedPins := true }
    let text := "# a\n# b\n\nCONFIG VCCAUX=2.5;\n\n" ++
      "NET é(0) LOC=\"P2\" | DRIVE=8; # é0\n" ++
      "#NET é1  LOC=\"\"   | DRIVE=8; # é1\n" ++
      "NET B    LOC=\"P1\"            # B\n"
    generate uneven 0 .all {} = .ok text ∧ (∀ text ∈ uneven.texts, OneLine text.toList) ∧
      (∃ text', generate uneven 0 .all options = .ok text' ∧
        ((linesOf text).map unblanked).Perm ((linesOf text').map unblanked)) ∧
      generate uneven 0 .all options' = .ok ("# a\n# b\n\nCONFIG VCCAUX=2.5;\n\n" ++
        "NET é(0) LOC=\"P2\" | DRIVE=8; # é0\n" ++
        "NET B    LOC=\"P1\" # B\n") := by
  intro options options' text
  have generated : generate uneven 0 .all {} = .ok text := by decide +kernel
  have oneLine : ∀ text ∈ uneven.texts, OneLine text.toList := by decide +kernel
  obtain ⟨text', _, _, _, written, -, -, -, -, -, same, -, -⟩ :=
    generate_layout uneven 0 .all {} options text generated oneLine
  exact ⟨generated, oneLine, ⟨text', written, (same rfl).1⟩, by decide +kernel⟩

end Pinout.Constraint
