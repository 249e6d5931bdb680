import Pinout.Proofs.Constraint.Generated
import Pinout.Proofs.Constraint.Grammar

/-! # Reading a generated file

The row of a position with a net and a chip pin is a constraint line of this net and this pin, and
any other row is a comment. So the pins that are read in a file are those of the chosen positions,
each once and in the order in which they were chosen.
-/

namespace Pinout.Constraint

open Text

def IsNetName (name : String) : Prop :=
  name ≠ "" ∧ ∀ c ∈ name.toList, isBlank c = false

instance (name : String) : Decidable (IsNetName name) :=
  have : Decidable (∀ c ∈ name.toList, isBlank c = false) :=
    List.decidableBAll (isBlank · = false) name.toList
  inferInstanceAs (Decidable (_ ∧ _))

theorem blanks_replicate (room : Nat) : Blanks (List.replicate room ' ') := by
  intro c member
  rw [List.eq_of_mem_replicate member]
  decide

theorem opening_equals (options : Options) (room : Nat) :
    Opening (List.replicate room ' ' ++ ("LOC" ++ options.equals ++ "\"").toList) := by
  have blank : Blanks [' '] := blanks_replicate 1
  have noBlank : Blanks [] := List.forall_mem_nil _
  rw [Options.equals]
  split
  · exact ⟨_, [' '], [' '], blanks_replicate room, blank, blank, by simp⟩
  · exact ⟨_, [], [], blanks_replicate room, noBlank, noBlank, by simp⟩

theorem locPin?_of_comment {line : String} {rest : List Char} (comment : line.toList = '#' :: rest) :
    locPin? line = none := by
  have visible : ('#' :: rest).dropWhile isBlank = '#' :: rest :=
    List.dropWhile_cons_of_neg (by decide)
  rw [locPin?, comment, locate?, pinTail?, afterWord?, visible]
  rfl

section

variable (options : Options) (views : List PinView) {view : PinView}
  (plain : ∀ text ∈ view.texts, Plain text)
include plain

theorem reads_rowLine {net pin : String} (named : view.netName = some net)
    (wired : view.physicalName = some pin) (isNet : IsNetName net) (nonempty : pin ≠ "") :
    Reads (rowLine options views view).toList net.toList pin.toList := by
  obtain ⟨room, rest, ⟨-, oneLine⟩, whole⟩ := exists_plain_rowLine options views plain
  have first : (netCell view).toList = [] ++ ['N', 'E', 'T'] ++ [' '] ++ net.toList := by
    rw [netCell, PinView.isRouted, named, wired]
    simp
  have noQuote : '"' ∉ pin.toList :=
    (plain pin (by simp [PinView.texts, wired])).1
  have noFeed : '\n' ∉ rest := fun member => absurd (oneLine _ member) (by decide)
  rw [whole, wired, Option.getD_some, first]
  exact ⟨[], [' '], _, rest, List.forall_mem_nil _, blanks_replicate 1,
    ⟨by simpa using isNet.1, isNet.2⟩, opening_equals options room,
    ⟨by simpa using nonempty, noQuote⟩, noFeed, rfl⟩

/-- A position with a net and a chip pin has a constraint line, any other has a comment. -/
theorem locPin?_rowLine (nets : ∀ net ∈ view.netName, IsNetName net)
    (pins : ∀ pin ∈ view.physicalName, pin ≠ "") :
    locPin? (rowLine options views view) = if view.isRouted then view.physicalName else none := by
  split
  · next routed =>
    obtain ⟨named, wired⟩ := Bool.and_eq_true_iff.1 routed
    obtain ⟨net, named⟩ := Option.isSome_iff_exists.1 named
    obtain ⟨pin, wired⟩ := Option.isSome_iff_exists.1 wired
    have reads := reads_rowLine options views plain named wired (nets net named) (pins pin wired)
    -- the longest name may be another one, but there is only one pin to be found
    obtain ⟨-, pin', found, -⟩ := exists_longest_of_reads reads
    rw [found, physicalName_of_rowLine plain found]
  · next unrouted =>
    obtain ⟨room, rest, -, whole⟩ := exists_rowLine options views view
    have first : (netCell view).toList = '#' :: ("NET " ++ view.canonicalName).toList := by
      rw [netCell, if_neg unrouted]
      simp
    rw [first] at whole
    exact locPin?_of_comment whole

end

theorem filterMap_front {catalog : Catalog} {board : BoardId} (plain : PlainCatalog catalog)
    (header : ∀ line ∈ linesOf (catalog.header board), locPin? line = none) (options : Options) :
    (front catalog board options).filterMap locPin? = [] := by
  rw [List.filterMap_eq_nil_iff]
  intro line member
  rcases List.mem_append.1 member with here | here
  · obtain ⟨cs, inside, rfl⟩ := List.mem_map.1 here
    exact locPin?_of_mem_headerText header (mem_segments_of_mem_lines inside)
  · obtain ⟨cs, inside, rfl⟩ := List.mem_map.1 here
    exact locPin?_of_mem_configsText plain (mem_segments_of_mem_lines inside)

/-- Leaving positions out does not change which pins are found, as their rows are comments. -/
theorem filterMap_shown (options : Options) (views : List PinView) :
    ((shown options views).filterMap fun view =>
        if view.isRouted then view.physicalName else none) =
      (views.filter PinView.isRouted).filterMap PinView.physicalName := by
  rw [shown, List.filterMap_filter, List.filterMap_filter]
  refine List.filterMap_congr fun view _ => ?_
  cases view.isRouted <;> simp

/-- The pins that are read in a generated file are those of the chosen positions that have both a
net and a chip pin, in the order in which they were chosen. -/
theorem filterMap_locPin?_generate (catalog : Catalog) (board : BoardId) (filter : PinFilter)
    (options : Options) (text : String) (unsorted : options.sorted = false)
    (generated : generate catalog board filter options = .ok text) (plain : PlainCatalog catalog)
    (nets : ∀ view ∈ catalog.pins board, ∀ net ∈ view.netName, IsNetName net)
    (pins : ∀ view ∈ catalog.pins board, ∀ pin ∈ view.physicalName, pin ≠ "")
    (header : ∀ line ∈ linesOf (catalog.header board), locPin? line = none) :
    ∃ views, filter.select catalog board = .ok views ∧
      (linesOf text).filterMap locPin? =
        (views.filter fun view => view.netName.isSome && view.physicalName.isSome).filterMap
          PinView.physicalName := by
  obtain ⟨views, selected, rfl⟩ := generate_eq_ok generated
  refine ⟨views, selected, ?_⟩
  have ofBoard (view : PinView) (chosen : view ∈ views) : view ∈ catalog.pins board :=
    PinFilter.mem_pins_of_select selected chosen
  have texts (view : PinView) (chosen : view ∈ views) : ∀ text ∈ view.texts, Plain text :=
    glued_plain.texts_of_mem_pins plain.texts (ofBoard view chosen)
  have rows : (shown options views).filterMap (locPin? ∘ rowLine options views) =
      (shown options views).filterMap fun view =>
        if view.isRouted then view.physicalName else none := by
    refine List.filterMap_congr fun view member => ?_
    have chosen := List.mem_of_mem_filter member
    rw [Function.comp_apply, locPin?_rowLine options views (texts view chosen)
      (nets view (ofBoard view chosen)) (pins view (ofBoard view chosen))]
  rw [linesOf_generated catalog board options fun view chosen text here =>
      (texts view chosen text here).2, arranged_of_unsorted unsorted, List.filterMap_append,
    filterMap_front plain header, List.nil_append, List.filterMap_map, rows, filterMap_shown]
  rfl

/-- A board whose nets are called like the words of a constraint. Under a wing lie one position whose
signal has no name, and one without a chip pin. -/
def constraintWords : Catalog :=
  let covered (signal : Option String) (chip : Option String) : Slot :=
    ⟨{ name := signal, origin := some ⟨1, 0⟩ }, [{ name := chip }]⟩
  let slots : List Slot :=
    [⟨{ name := some "P1", additions := ⟨[("PULLUP", none)]⟩ }, []⟩, ⟨{}, []⟩,
      covered none (some "P3"), covered (some "NET") none, covered (some "LOC=") (some "P 5")]
  { entries := #[
      { board :=
          { names := ["base"], header := some "# NET",
            buses := [{ name := "A", aliasName := some "NETxLOC", slots },
              { name := "B", slots := [⟨{ name := some "P9" }, []⟩] }],
            configs := [("VCCAUX", some "2.5")] } },
      { board :=
          { names := ["wing"], isWing := true,
            buses := [{ name := "W", slots := [⟨{ name := some "NET" }, []⟩] }] } }] }

theorem filterMap_locPin?_generate_constraintWords :
    let options : Options := { collapseColumns := true, spacesAroundEquals := true }
    let text :=
      "# NET\n\nCONFIG VCCAUX = 2.5;\n\n" ++
        "NET B          LOC = \"P9\"  # B\n" ++
        "NET NETxLOC(0) LOC = \"P1\"  | PULLUP; # A0\n" ++
        "#NET A1        LOC = \"\"    # A1\n" ++
        "#NET A2        LOC = \"P3\"  # A2\n" ++
        "#NET A3        LOC = \"\"    # A3\n" ++
        "NET LOC=       LOC = \"P 5\" # A4\n"
    generate constraintWords 0 (.only ["b", "A[4:2]", "a"]) options = .ok text ∧
      PlainCatalog constraintWords ∧
      (∀ view ∈ constraintWords.pins 0, ∀ net ∈ view.netName, IsNetName net) ∧
      (∀ view ∈ constraintWords.pins 0, ∀ pin ∈ view.physicalName, pin ≠ "") ∧
      (∀ line ∈ linesOf (constraintWords.header 0), locPin? line = none) ∧
      (linesOf text).filterMap locPin? = ["P9", "P1", "P 5"] := by
  intro options text
  let filter : PinFilter := .only ["b", "A[4:2]", "a"]
  have generated : generate constraintWords 0 filter options = .ok text := by decide +kernel
  have plain : PlainCatalog constraintWords := by decide +kernel
  have nets : ∀ view ∈ constraintWords.pins 0, ∀ net ∈ view.netName, IsNetName net := by
    decide +kernel
  have pins : ∀ view ∈ constraintWords.pins 0, ∀ pin ∈ view.physicalName, pin ≠ "" := by
    decide +kernel
  have header : ∀ line ∈ linesOf (constraintWords.header 0), locPin? line = none := by
    decide +kernel
  obtain ⟨views, selected, found⟩ := filterMap_locPin?_generate constraintWords 0 filter options text
    rfl generated plain nets pins header
  have chosen : (filter.select constraintWords 0).toOption.map (fun views =>
      (views.filter fun view => view.netName.isSome && view.physicalName.isSome).filterMap
        PinView.physicalName) = some ["P9", "P1", "P 5"] := by
    decide +kernel
  rw [selected] at chosen
  exact ⟨generated, plain, nets, pins, header, found.trans (Option.some.inj chosen)⟩

end Pinout.Constraint
