import Pinout.Proofs.Catalog.Plain
import Pinout.Proofs.Constraint.Rows
import Pinout.Proofs.Constraint.Selection
import Pinout.Proofs.Constraint.Validation

/-! # Checking a generated file

In a generated file, the only quotation marks are those of the header and those around the chip pin
of each row. A line is read with the pin between its quotation marks whatever the net is called, so
a file that was generated for a plain board is not wrong on that board.
-/

namespace Pinout.Constraint

open Text

structure Quotes (pin text : List Char) : Prop where
  noQuote : '"' ∉ pin
  between : ∃ before after, '"' ∉ before ∧ '"' ∉ after ∧
    text = before ++ '"' :: (pin ++ '"' :: after)

/-- What is found in such a text is its pin. -/
theorem Quotes.eq_of_locate? {pin text : List Char} (quotes : Quotes pin text) {located : Located}
    (h : locate? text = some located) : located.pin = pin := by
  obtain ⟨noQuote, before, after, noBefore, noAfter, rfl⟩ := quotes
  obtain ⟨-, absent, front, rest, whole⟩ := quoted_of_locate? h
  have same : front ++ '"' :: (located.pin ++ '"' :: rest) =
      before ++ '"' :: (pin ++ '"' :: after) := by
    simpa using whole.symm
  -- two quotation marks are used up, so none is left in front
  have noFront : '"' ∉ front := by
    rw [← List.count_eq_zero]
    have marks := congrArg (List.count '"') same
    simp only [List.count_append, List.count_cons_self, List.count_eq_zero.2 noQuote,
      List.count_eq_zero.2 noBefore, List.count_eq_zero.2 noAfter] at marks
    omega
  obtain ⟨-, pins⟩ := append_quote_inj noFront noBefore same
  exact (append_quote_inj absent noQuote pins).1

theorem locPin?_eq_none_of_noQuote {line : String} (h : '"' ∉ line.toList) :
    locPin? line = none := by
  rw [locPin?, Option.map_eq_none_iff, Option.eq_none_iff_forall_ne_some]
  intro located found
  obtain ⟨-, -, front, rest, whole⟩ := quoted_of_locate? found
  exact h (by simp [whole])

/-- Only the second cell of a row has quotation marks, and the chip pin between them. -/
theorem quotes_rowLine (options : Options) (views : List PinView) {view : PinView}
    (plain : ∀ text ∈ view.texts, Plain text) :
    Quotes (view.physicalName.getD "").toList (rowLine options views view).toList := by
  obtain ⟨net, pin, -, -⟩ := glued_cells glued_plain options plain
  obtain ⟨room, rest, ⟨noQuote, -⟩, whole⟩ := exists_plain_rowLine options views plain
  have key : Plain ("LOC" ++ options.equals) := plain_append.2 ⟨by decide, options.plain_equals⟩
  refine ⟨pin.1, (netCell view).toList ++ List.replicate room ' ' ++
    ("LOC" ++ options.equals).toList, rest, ?_, noQuote, by simp [whole]⟩
  simpa [net.1] using key.1

/-- Where a row is read as a line with a pin, that is the chip pin of its position. -/
theorem physicalName_of_rowLine {options : Options} {views : List PinView} {view : PinView}
    (plain : ∀ text ∈ view.texts, Plain text) {pin : String}
    (found : locPin? (rowLine options views view) = some pin) : view.physicalName = some pin := by
  obtain ⟨located, here, rfl⟩ := Option.map_eq_some_iff.1 found
  have same := (quotes_rowLine options views plain).eq_of_locate? here
  -- an empty name would not be found
  have nonempty := (quoted_of_locate? here).1
  rw [same] at nonempty ⊢
  rw [String.ofList_toList]
  cases named : view.physicalName with
  | none => simp [named] at nonempty
  | some name => rfl

theorem noQuote_configsText {catalog : Catalog} (plain : PlainCatalog catalog) (board : BoardId)
    (options : Options) : '"' ∉ (configsText catalog board options).toList := by
  intro quote
  rw [configsText, String.toList_append, String.toList_join, List.mem_append] at quote
  rcases quote with quote | quote
  · obtain ⟨text, member, inside⟩ := List.mem_flatMap.1 quote
    obtain ⟨config, here, rfl⟩ := List.mem_map.1 member
    have assignment := options.glued_assignment glued_plain fun text inside =>
      plain.texts text (Catalog.texts_of_mem_configs here inside)
    simp [assignment.1] at inside
  · split at quote <;> simp at quote

section

variable {catalog : Catalog} {board : BoardId} {options : Options} {line : List Char}

theorem locPin?_of_mem_headerText
    (header : ∀ line ∈ linesOf (catalog.header board), locPin? line = none)
    (member : line ∈ segments (headerText catalog board).toList) :
    locPin? (.ofList line) = none := by
  by_cases empty : line = []
  · subst empty
    exact locPin?_eq_none_of_noQuote List.not_mem_nil
  · have inside : line ∈ segments (catalog.header board).toList := by
      rw [headerText] at member
      split at member
      · exact absurd (List.mem_singleton.1 member) empty
      · -- the empty line behind the header is none of its lines
        rw [String.toList_append] at member
        refine (mem_segments_append (ended_header catalog board) member).resolve_right ?_
        simpa [segments, isBreak] using empty
    exact header _ (List.mem_map_of_mem (mem_lines_of_mem_segments inside empty))

theorem locPin?_of_mem_configsText (plain : PlainCatalog catalog)
    (member : line ∈ segments (configsText catalog board options).toList) :
    locPin? (.ofList line) = none := by
  refine locPin?_eq_none_of_noQuote fun quote => ?_
  rw [String.toList_ofList] at quote
  exact noQuote_configsText plain board options (mem_of_mem_segments member quote)

theorem mem_physicalNames_of_mem_grid (plain : PlainCatalog catalog) {views : List PinView}
    (ofBoard : ∀ view ∈ views, view ∈ catalog.pins board)
    (member : line ∈ segments (grid options views).render.toList) {pin : String}
    (found : locPin? (.ofList line) = some pin) : pin ∈ catalog.physicalNames board := by
  have texts : ∀ view ∈ views, ∀ text ∈ view.texts, Plain text :=
    fun view here => glued_plain.texts_of_mem_pins plain.texts (ofBoard view here)
  have nonempty : line ≠ [] := by
    rintro rfl
    cases found.symm.trans (locPin?_eq_none_of_noQuote List.not_mem_nil)
  have row : String.ofList line ∈ linesOf (grid options views).render :=
    List.mem_map_of_mem (mem_lines_of_mem_segments member nonempty)
  rw [linesOf_rows options fun view here text inside => (texts view here text inside).2] at row
  obtain ⟨view, here, same⟩ := List.mem_map.1 row
  rw [← same] at found
  have chosen := List.mem_of_mem_filter ((perm_arranged options views).subset here)
  exact List.mem_filterMap.2
    ⟨view, ofBoard view chosen, physicalName_of_rowLine (texts view chosen) found⟩

end

/-- What was generated for a board is right on it, whichever pins were chosen and however the file
was laid out. -/
theorem validate_generate (catalog : Catalog) (board : BoardId) (filter : PinFilter)
    (options : Options) (text : String)
    (generated : generate catalog board filter options = .ok text) (plain : PlainCatalog catalog)
    (header : ∀ line ∈ linesOf (catalog.header board), locPin? line = none) :
    validate catalog board text = [] := by
  obtain ⟨views, selected, rfl⟩ := generate_eq_ok generated
  rw [validate_eq_reports, reports_eq_nil_iff]
  intro line member pin found
  obtain ⟨cs, inside, rfl⟩ := List.mem_map.1 member
  have member := mem_segments_of_mem_lines inside
  rw [String.toList_append, String.toList_append, List.append_assoc] at member
  rcases mem_segments_append (ended_headerText catalog board) member with inHeader | member
  · cases found.symm.trans (locPin?_of_mem_headerText header inHeader)
  rcases mem_segments_append (ended_configsText catalog board options) member with
    inConfigs | inGrid
  · cases found.symm.trans (locPin?_of_mem_configsText plain inConfigs)
  · have ofBoard : ∀ view ∈ views, view ∈ catalog.pins board :=
      fun _ chosen => PinFilter.mem_pins_of_select selected chosen
    exact not_not_intro (mem_physicalNames_of_mem_grid plain ofBoard inGrid found)

/-- A board with a bus named like a constraint, a wing on the last position of it, and positions
without a chip pin. -/
def constraintNamed : Catalog :=
  let signal : Pin := { name := some "NETyLOC", origin := some ⟨1, 0⟩ }
  let slots : List Slot :=
    [⟨{ name := some "P 1", additions := ⟨[("PULLUP", none)]⟩ }, []⟩, ⟨{}, []⟩,
      ⟨{ name := some "" }, []⟩, ⟨signal, [{ name := some "P2" }]⟩]
  let bus : Bus :=
    { name := "NETxLOC=", slots, additions := ⟨[("IOSTANDARD", some "LVTTL")]⟩ }
  { entries := #[
      { board :=
          { names := ["base"], buses := [bus], header := some "# NET \"q\"",
            configs := [("VCCAUX", some "2.5")] } },
      { board :=
          { names := ["wing"], isWing := true,
            buses := [{ name := "W", slots := [⟨{ name := signal.name }, []⟩] }] } }] }

theorem validate_generate_constraintNamed :
    let options : Options := { collapseColumns := true, spacesAroundEquals := true }
    let text :=
      "# NET \"q\"\n\nCONFIG VCCAUX = 2.5;\n\n" ++
        "NET NETxLOC=(0) LOC = \"P 1\" | IOSTANDARD = LVTTL | PULLUP; # NETxLOC=0\n" ++
        "#NET NETxLOC=1  LOC = \"\"    | IOSTANDARD = LVTTL; # NETxLOC=1\n" ++
        "NET NETxLOC=(2) LOC = \"\"    | IOSTANDARD = LVTTL; # NETxLOC=2\n" ++
        "NET NETyLOC     LOC = \"P2\"  # NETxLOC=3\n"
    generate constraintNamed 0 (.only ["netXloc="]) options = .ok text ∧
      PlainCatalog constraintNamed ∧
      (∀ line ∈ linesOf (constraintNamed.header 0), locPin? line = none) ∧
      locPin? "NET NETyLOC     LOC = \"P2\"  # NETxLOC=3" = some "P2" ∧
      validate constraintNamed 0 text = [] := by
  intro options text
  have generated : generate constraintNamed 0 (.only ["netXloc="]) options = .ok text := by
    decide +kernel
  have plain : PlainCatalog constraintNamed := by decide +kernel
  have header : ∀ line ∈ linesOf (constraintNamed.header 0), locPin? line = none := by
    decide +kernel
  exact ⟨generated, plain, header, by decide +kernel,
    validate_generate constraintNamed 0 (.only ["netXloc="]) options text generated plain header⟩

end Pinout.Constraint
