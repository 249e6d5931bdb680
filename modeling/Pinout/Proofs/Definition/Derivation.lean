import Pinout.Definition.Grammar
import Pinout.Proofs.Additions
import Pinout.Proofs.Definition.Phrase

/-! # Derivations of definitions

The rules of the grammar as types of trees, and the boards that a derivation describes. The grammar
has one ambiguity: a pin needs no name, so a name behind a colon or a comma could also begin the
next bus. `Greedy` settles it for the pin, and then a list of lexemes has at most one derivation.
-/

namespace Pinout.Definition

abbrev NameTree :=
  Leaf Kind.isName

abbrev Mark (kind : Kind) :=
  Leaf (· == kind)

abbrev NamesTree :=
  NameTree × List (Mark .comma × NameTree)

abbrev AssignmentTree :=
  NameTree × Option (Mark .equals × NameTree)

abbrev AssignmentsTree :=
  AssignmentTree × List (Mark .comma × AssignmentTree)

abbrev BlockTree :=
  Mark .openBrace × AssignmentsTree × Mark .closeBrace

instance : Headed BlockTree :=
  inferInstance

abbrev PinTree :=
  Option NameTree × Option BlockTree

abbrev PinsTree :=
  PinTree × List (Mark .comma × PinTree)

abbrev BusTree :=
  NameTree × Option BlockTree × Option (Mark .colon × PinsTree)

instance : Headed BusTree :=
  inferInstance

abbrev HeaderTree :=
  Mark .headerWord × Mark .block

abbrev ConfigTree :=
  Mark .configWord × BlockTree

abbrev BoardTree :=
  NamesTree × Option (Mark .colon × NameTree) × Mark .openBrace × Option HeaderTree ×
    Option ConfigTree × List BusTree × Mark .closeBrace

/-! ## What derivations describe -/

def nameOf (tree : NameTree) : String :=
  tree.1.name

/-- A quoted name is what stands between the quotation marks. -/
theorem nameOf_of_quoted {tree : NameTree} {inner : List Char} (quoted : tree.1.kind = .quoted)
    (text : tree.1.text = '"' :: inner ++ ['"']) : nameOf tree = .ofList inner := by
  have same : (if tree.1.kind = .quoted then tree.1.text.tail.dropLast else tree.1.text) = inner := by
    rw [if_pos quoted, text]
    exact List.dropLast_concat
  exact congrArg String.ofList same

theorem nameOf_of_not_quoted {tree : NameTree} (kind : tree.1.kind ≠ .quoted) :
    nameOf tree = .ofList tree.1.text :=
  congrArg String.ofList (if_neg kind)

def namesOf : NamesTree → List String
  | (first, more) => nameOf first :: more.map fun (_, name) => nameOf name

def assignmentOf : AssignmentTree → Assignment
  | (key, value) => (nameOf key, value.map fun (_, name) => nameOf name)

def assignmentsOf : AssignmentsTree → List Assignment
  | (first, more) => assignmentOf first :: more.map fun (_, assignment) => assignmentOf assignment

def blockOf : BlockTree → List Assignment
  | (_, assignments, _) => assignmentsOf assignments

def additionsOf (block : Option BlockTree) : Additions :=
  ⟨Additions.lastWins (block.elim [] blockOf)⟩

theorem additionsOf_some (block : BlockTree) :
    additionsOf (some block) = Additions.collect (blockOf block) :=
  (congrArg OrderedMap.mk (Additions.entries_collect _)).symm

def pinOf : PinTree → Pin
  | (name, block) => { name := name.map nameOf, additions := additionsOf block }

def pinsOf : PinsTree → List Pin
  | (first, more) => pinOf first :: more.map fun (_, pin) => pinOf pin

def busOf : BusTree → Bus
  | (name, block, pins) =>
    { name := nameOf name
      slots := (pins.elim [] fun (_, pins) => pinsOf pins).map fun pin => { top := pin }
      additions := additionsOf block }

/-- A header is what stands between the angle brackets, with its lines trimmed. -/
theorem headerOf_of_brackets {lexeme : Lexeme} {inner : List Char}
    (text : lexeme.text = '<' :: '<' :: inner ++ ['>', '>']) :
    headerOf lexeme = .ofList (Text.trimLines (Text.trim inner)) := by
  have same : ((lexeme.text.drop 2).dropLast).dropLast = inner := by
    rw [text]
    change ((inner ++ ['>', '>']).dropLast).dropLast = inner
    rw [List.append_cons, List.dropLast_concat, List.dropLast_concat]
  exact congrArg (fun inner => String.ofList (Text.trimLines (Text.trim inner))) same

/-- The board under its names that are not empty. -/
def boardOf : BoardTree → Board
  | (names, parent, _, header, config, buses, _) =>
    { names := (namesOf names).filter (!·.isEmpty)
      parentName := parent.map fun (_, name) => nameOf name
      header := header.map fun (_, block) => headerOf block.1
      configs := config.elim [] fun (_, block) => blockOf block
      buses := buses.map busOf }

/-- The name of a pin is left out only where no name comes next. -/
def PinGreedy (pin : PinTree) (rest : List Lexeme) : Prop :=
  pin.1 = none → starts Kind.isName (frontier pin.2 ++ rest) = false

def PinsGreedy (pins : PinsTree) (rest : List Lexeme) : Prop :=
  PinGreedy pins.1 (frontier pins.2 ++ rest) ∧
    EachBefore (fun pin => PinGreedy pin.2) pins.2 rest

def BusGreedy (bus : BusTree) (rest : List Lexeme) : Prop :=
  ∀ colon pins, bus.2.2 = some (colon, pins) → PinsGreedy pins rest

def BoardGreedy : BoardTree → List Lexeme → Prop
  | (_, _, _, _, _, buses, closing), rest => EachBefore BusGreedy buses (frontier closing ++ rest)

/-- Every pin of some boards has the name that comes next, if there is one. -/
def Greedy (boards : List BoardTree) : Prop :=
  EachBefore BoardGreedy boards []

/-! ## Greedy derivations take all they can

Nothing else in the grammar leaves a choice: what may follow an optional part or a repetition never
begins like it.
-/

/-- What comes behind a complete bus: another one, or the end of the board. -/
def endsBus (kind : Kind) : Bool :=
  kind.isName || kind == .closeBrace

theorem fits_names (names : NamesTree) (rest : List Lexeme) :
    Fits names rest ↔ starts (· == .comma) rest = false :=
  ⟨fun h => h.2.2, fun h =>
    ⟨trivial, eachBefore_of_forall (fun _ _ => ⟨trivial, trivial⟩) _ _, h⟩⟩

theorem fits_assignment {assignment : AssignmentTree} {rest : List Lexeme}
    (h : starts (· == .equals) rest = false) : Fits assignment rest := by
  obtain ⟨key, value⟩ := assignment
  cases value with
  | none => exact ⟨trivial, h⟩
  | some value => exact ⟨trivial, trivial, trivial⟩

theorem fits_block (block : BlockTree) (rest : List Lexeme) : Fits block rest := by
  obtain ⟨opening, ⟨first, more⟩, closing⟩ := block
  let behind (kind : Kind) : Bool := kind == .comma || kind == .closeBrace
  have weaker (kind : Kind) (h : (kind == .comma) = true) : behind kind = true := by
    simp [behind, h]
  have noValue {lexemes : List Lexeme} (h : starts behind lexemes = true) :
      starts (· == .equals) lexemes = false :=
    not_starts_of_starts (by decide) h
  have last : starts behind (frontier closing ++ rest) = true :=
    starts_mono (p := (· == .closeBrace)) (by decide) (starts_frontier closing rest)
  -- a comma or the closing brace comes behind every assignment, and neither begins a value
  refine ⟨trivial, ⟨?_, ?_, ?_⟩, trivial⟩
  · exact fits_assignment (noValue (starts_frontier_list weaker more last))
  · refine eachBefore_of_starts weaker (fun assignment rest h => ?_) more last
    exact ⟨trivial, fits_assignment (noValue h)⟩
  · exact not_starts_of_starts (p := (· == .closeBrace)) (by decide) (starts_frontier closing rest)

theorem fits_pin {pin : PinTree} {rest : List Lexeme}
    (h : starts (· == .openBrace) rest = false) : Fits pin rest ↔ PinGreedy pin rest := by
  obtain ⟨name, block⟩ := pin
  have tail : Fits block rest := by
    cases block with
    | none => exact h
    | some block => exact fits_block block rest
  cases name with
  | none => exact ⟨fun fits _ => fits.1, fun greedy => ⟨greedy rfl, tail⟩⟩
  | some name => exact ⟨nofun, fun _ => ⟨trivial, tail⟩⟩

theorem fits_pins {pins : PinsTree} {rest : List Lexeme} (h : starts endsBus rest = true) :
    Fits pins rest ↔ PinsGreedy pins rest := by
  obtain ⟨first, more⟩ := pins
  let behind (kind : Kind) : Bool := kind == .comma || endsBus kind
  have weaker (kind : Kind) (h : (kind == .comma) = true) : behind kind = true := by
    simp [behind, h]
  have last : starts behind rest = true :=
    starts_mono (fun kind h => by simp [behind, h]) h
  have noBlock {lexemes : List Lexeme} (h : starts behind lexemes = true) :
      starts (· == .openBrace) lexemes = false :=
    not_starts_of_starts (by decide) h
  have stop : starts (· == .comma) rest = false := not_starts_of_starts (by decide) h
  -- behind a pin comes a comma or what ends the bus, so its additions take all they can
  have others : EachBefore Fits more rest ↔
      EachBefore (fun pin : Mark .comma × PinTree => PinGreedy pin.2) more rest := by
    refine eachBefore_congr weaker (fun pin rest h => ?_) more last
    exact (true_and (Fits pin.2 rest)).to_iff.trans (fits_pin (noBlock h))
  refine and_congr (fits_pin (noBlock (starts_frontier_list weaker more last))) ?_
  exact ⟨fun fits => others.1 fits.1, fun greedy => ⟨others.2 greedy, stop⟩⟩

theorem fits_bus {bus : BusTree} {rest : List Lexeme} (h : starts endsBus rest = true) :
    Fits bus rest ↔ BusGreedy bus rest := by
  obtain ⟨name, block, pins⟩ := bus
  have blockFits : Fits block (frontier pins ++ rest) := by
    cases block with
    | none =>
      cases pins with
      | none => exact not_starts_of_starts (by decide) h
      | some pins => exact not_starts_of_starts (by decide) (starts_frontier pins rest)
    | some block => exact fits_block block _
  cases pins with
  | none =>
    constructor
    · rintro _ _ _ ⟨⟩
    · intro _
      exact ⟨trivial, blockFits, not_starts_of_starts (by decide) h⟩
  | some pins =>
    obtain ⟨colon, pins⟩ := pins
    constructor
    · rintro ⟨_, _, _, fits⟩ _ _ ⟨⟩
      exact (fits_pins h).1 fits
    · intro greedy
      exact ⟨trivial, blockFits, trivial, (fits_pins h).2 (greedy colon pins rfl)⟩

theorem fits_board (board : BoardTree) (rest : List Lexeme) :
    Fits board rest ↔ BoardGreedy board rest := by
  obtain ⟨names, parent, opening, header, config, buses, closing⟩ := board
  have last : starts endsBus (frontier closing ++ rest) = true :=
    starts_mono (p := (· == .closeBrace)) (by decide) (starts_frontier closing rest)
  have atBuses : starts endsBus (frontier (buses, closing) ++ rest) = true := by
    rw [frontier_pair]
    exact starts_frontier_list (by decide) buses last
  have namesFit :
      Fits names (frontier (parent, opening, header, config, buses, closing) ++ rest) := by
    rw [fits_names]
    cases parent with
    | none =>
      exact not_starts_of_starts (by decide)
        (starts_frontier (opening, header, config, buses, closing) rest)
    | some parent =>
      exact not_starts_of_starts (by decide)
        (starts_frontier (parent, opening, header, config, buses, closing) rest)
  have parentFits : Fits parent (frontier (opening, header, config, buses, closing) ++ rest) := by
    cases parent with
    | none =>
      exact not_starts_of_starts (by decide)
        (starts_frontier (opening, header, config, buses, closing) rest)
    | some parent => exact ⟨trivial, trivial⟩
  have headerFits : Fits header (frontier (config, buses, closing) ++ rest) := by
    cases header with
    | some header => exact ⟨trivial, trivial⟩
    | none =>
      cases config with
      | none => exact not_starts_of_starts (by decide) atBuses
      | some config =>
        exact not_starts_of_starts (by decide)
          (starts_frontier (config, buses, closing) rest)
  have configFits : Fits config (frontier (buses, closing) ++ rest) := by
    cases config with
    | none => exact not_starts_of_starts (by decide) atBuses
    | some config => exact ⟨trivial, fits_block config.2 _⟩
  have busesFit : EachBefore Fits buses (frontier closing ++ rest) ↔
      EachBefore BusGreedy buses (frontier closing ++ rest) :=
    eachBefore_congr (by decide) (fun _ _ h => fits_bus h) buses last
  have stop : starts Kind.isName (frontier closing ++ rest) = false :=
    not_starts_of_starts (p := (· == .closeBrace)) (by decide) (starts_frontier closing rest)
  -- only the buses leave a choice
  constructor
  · rintro ⟨_, _, _, _, _, ⟨fits, _⟩, _⟩
    exact busesFit.1 fits
  · intro greedy
    exact ⟨namesFit, parentFits, trivial, headerFits, configFits,
      ⟨busesFit.2 greedy, stop⟩, trivial⟩

theorem fits_boards (boards : List BoardTree) : Fits boards [] ↔ Greedy boards := by
  have each (boards : List BoardTree) :
      EachBefore Fits boards [] ↔ EachBefore BoardGreedy boards [] := by
    induction boards with
    | nil => exact Iff.rfl
    | cons board boards ih => exact and_congr (fits_board board _) ih
  exact (and_iff_left rfl).trans (each boards)

/-- A list of lexemes has at most one derivation. -/
theorem Greedy.unique {boards boards' : List BoardTree} (h : Greedy boards) (h' : Greedy boards')
    (same : frontier boards = frontier boards') : boards = boards' :=
  (Phrase.unique ((fits_boards boards).2 h) ((fits_boards boards').2 h')
    (by rw [List.append_nil, List.append_nil, same])).1

end Pinout.Definition
