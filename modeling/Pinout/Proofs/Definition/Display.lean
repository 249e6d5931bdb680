import Pinout.Proofs.Definition.Printing

/-! # Reading the short form of a board

The short form of a board shows its names, parent, buses and pins, and reading it gives them back.
Names of pins stand without quotation marks there, so they have to be words: a word ends where a
comma or the end of the line comes behind it.
-/

namespace Pinout.Definition

open Text

/-! ## Words -/

def IsWord (text : String) : Prop :=
  ∃ kind ∈ [Kind.identifier, .number],
    (Lexer.ofSource text).lexemes.1 = [⟨kind, 0, text.toList⟩]

instance (text : String) : Decidable (IsWord text) :=
  inferInstanceAs (Decidable (∃ kind ∈ [Kind.identifier, .number], _ = _))

def wordKind (text : String) : Kind :=
  if Kind.identifier.match? text.toList = some text.toList.length then .identifier else .number

theorem wordKind_cases (text : String) :
    wordKind text = .identifier ∨ wordKind text = .number := by
  unfold wordKind
  split
  · exact .inl rfl
  · exact .inr rfl

theorem isName_wordKind (text : String) : (wordKind text).isName = true := by
  rcases wordKind_cases text with kind | kind <;> rw [kind] <;> rfl

def wordTree (text : String) : NameTree :=
  ⟨⟨wordKind text, 0, text.toList⟩, isName_wordKind text⟩

theorem nameOf_wordTree (text : String) : nameOf (wordTree text) = text := by
  have notQuoted : wordKind text ≠ .quoted := by
    rcases wordKind_cases text with kind | kind <;> rw [kind] <;> decide
  exact (nameOf_of_not_quoted notQuoted).trans String.ofList_toList

theorem IsWord.match? {text : String} (word : IsWord text) :
    (wordKind text).match? text.toList = some text.toList.length := by
  obtain ⟨kind, member, lexed⟩ := word
  have whole := lexed_lexemes (Lexer.ofSource text)
  rw [lexed] at whole
  obtain ⟨split, found⟩ := whole
  -- nothing is left behind the word
  have left : (Lexer.ofSource text).lexemes.2.rest = [] := by
    simpa [Lexer.ofSource, textOf] using split
  have found := (firstMatch?_eq_some_iff.1 (lexed_cons_iff.1 found).1).2
  rw [left, textOf_nil, List.append_nil, List.append_nil] at found
  unfold wordKind
  split
  · next identifier => exact identifier
  · next other =>
    rcases List.mem_pair.1 member with rfl | rfl
    · exact absurd found other
    · exact found

theorem wordKind_ne {text : String} {kind : Kind} (other : kind.isName = false) :
    wordKind text ≠ kind := by
  rintro rfl
  cases other.symm.trans (isName_wordKind text)

/-- A word ends in front of a comma and at the end of a line. -/
theorem IsWord.spells {text : String} (word : IsWord text) {c : Char} (stop : c = ',' ∨ c = '\n')
    {cs : List Char} {lexemes : List Lexeme} (spells : Spells (c :: cs) lexemes) :
    Spells (text.toList ++ c :: cs) (frontier (wordTree text) ++ lexemes) := by
  intro rest
  -- no word goes on with either character, so the word ends as it does at the end of a text
  have ends : EndsLike [] (c :: (cs ++ rest)) := by
    rcases stop with rfl | rfl <;>
      exact .of_not (by decide) (by decide) (by decide) (by decide) _ _
  have noUnit : unitLength (c :: (cs ++ rest)) = 0 := by
    rcases stop with rfl | rfl <;> rfl
  have alone : (wordKind text).match? (text.toList ++ []) = some text.toList.length := by
    rw [List.append_nil]
    exact word.match?
  have here := match?_replace ends (fun _ _ => noUnit)
    (fun comment => absurd comment (wordKind_ne rfl)) (wordKind_ne rfl) alone
  have notLayout : words [⟨wordKind text, 0, text.toList⟩] = frontier (wordTree text) := by
    rcases wordKind_cases text with kind | kind <;> simp only [wordTree, kind] <;> rfl
  rw [List.append_assoc, List.cons_append,
    scan_append (firstMatch?_of_match? here (wordKind_ne rfl)), notLayout, ← List.cons_append,
    spells rest, List.append_assoc]

/-! ## The short form -/

def shortPin (slot : Slot) : List Char :=
  (slot.top.name.getD "").toList

def shortBus (bus : Bus) : List Char :=
  [' ', ' '] ++ (printName bus.name ++ ([':'] ++
    ([','].intercalate (bus.slots.map shortPin) ++ ['\n'])))

def shortNames : List String → List Char
  | [] => printName ""
  | names => [','].intercalate (names.map printName)

/-- One pair of quotation marks around names with marks and commas between them. -/
theorem intercalate_printName (first : String) (more : List String) :
    '"' :: (['"', ',', '"'].intercalate ((first :: more).map String.toList) ++ ['"']) =
      [','].intercalate ((first :: more).map printName) := by
  induction more generalizing first with
  | nil => simp [printName]
  | cons next more ih =>
    simp only [List.map_cons, List.intercalate_cons_cons] at ih ⊢
    rw [← ih]
    simp [printName]

theorem toList_names (names : List String) :
    ("\"" ++ "\",\"".intercalate names ++ "\"").toList = shortNames names := by
  cases names with
  | nil => rfl
  | cons first more =>
    rw [shortNames, ← intercalate_printName, String.toList_append, String.toList_append,
      String.toList_intercalate]
    · rfl
    · nofun

theorem toList_busLine (bus : Bus) : (Board.busLine bus).toList = shortBus bus := by
  have pins : bus.slots.map shortPin =
      (bus.slots.map fun slot => slot.top.name.getD "").map String.toList :=
    List.map_map.symm
  simp [Board.busLine, shortBus, printName, String.toList_intercalate, pins]

theorem toList_display (board : Board) :
    board.display.toList =
      shortNames board.names ++ (board.parentName.elim [] printParent ++
        ([' ', '{', '\n'] ++ (board.buses.flatMap shortBus ++ ['}']))) := by
  obtain ⟨names, parent, buses, isWing, header, configs⟩ := board
  have lines : (String.join (buses.map Board.busLine)).toList = buses.flatMap shortBus := by
    rw [String.toList_join, List.flatMap_map]
    simp only [toList_busLine]
  rw [Board.display, String.toList_append, String.toList_append, String.toList_append,
    String.toList_append, toList_names, lines]
  cases parent with
  | none => simp
  | some parent => simp [printParent, printName]

def shortPinTree (slot : Slot) : PinTree :=
  (slot.top.name.map wordTree, none)

def shortPinsTree : List Slot → Option (Mark .colon × PinsTree)
  | [] => none
  | first :: more => some (mark .colon [':'], listTree shortPinTree first more)

def shortBusTree (bus : Bus) : BusTree :=
  (nameTree bus.name, none, shortPinsTree bus.slots)

def shortBoardTree (board : Board) : BoardTree :=
  (namesTree board.names, board.parentName.map fun parent => (mark .colon [':'], nameTree parent),
    mark .openBrace ['{'], none, none, board.buses.map shortBusTree, mark .closeBrace ['}'])

/-- A bus that can be read from its line. One without pins would take the name of the next bus for
a pin. -/
structure DisplayableBus (bus : Bus) : Prop where
  name : Quotable bus.name
  pins : bus.slots ≠ []
  words : ∀ slot ∈ bus.slots, ∀ name ∈ slot.top.name, IsWord name

/-- A board that can be read from its short form. A pin without a name does not stand in front of
another bus, which would give it a name. -/
structure Displayable (board : Board) : Prop where
  namesNonempty : "" ∉ board.names
  names : ∀ name ∈ board.names, Quotable name
  parent : ∀ parent ∈ board.parentName, Quotable parent
  buses : ∀ bus ∈ board.buses, DisplayableBus bus
  visible : ∀ bus ∈ board.buses.dropLast, ∀ slot ∈ bus.slots.getLast?, slot.top.name ≠ none

theorem spells_shortNames {names : List String} (h : ∀ name ∈ names, Quotable name) :
    Spells (shortNames names) (frontier (namesTree names)) := by
  cases names with
  | nil => exact (spells_name (by decide) : Spells (printName "") (frontier (nameTree "")))
  | cons first more =>
    exact spells_separated (.mark .comma nofun fun _ => rfl) fun name member =>
      spells_name (h name member)

theorem spells_shortPin {slot : Slot} (h : ∀ name ∈ slot.top.name, IsWord name) {c : Char}
    (stop : c = ',' ∨ c = '\n') {cs : List Char} {lexemes : List Lexeme}
    (spells : Spells (c :: cs) lexemes) :
    Spells (shortPin slot ++ c :: cs) (frontier (shortPinTree slot) ++ lexemes) := by
  obtain ⟨⟨name, aliasName, additions, origin⟩, below⟩ := slot
  cases name with
  | none => exact spells
  | some name => exact (h name rfl).spells stop spells

theorem spells_shortPins {slots : List Slot} (nonempty : slots ≠ [])
    (h : ∀ slot ∈ slots, ∀ name ∈ slot.top.name, IsWord name) :
    Spells ([':'] ++ ([','].intercalate (slots.map shortPin) ++ ['\n']))
      (frontier (shortPinsTree slots)) := by
  cases slots with
  | nil => exact absurd rfl nonempty
  | cons first more =>
    have colon : Spells [':'] (frontier (mark .colon [':'])) := .mark .colon nofun fun _ => rfl
    have comma : Spells [','] [⟨.comma, 0, [',']⟩] := .mark .comma nofun fun _ => rfl
    refine colon.append (spells_intercalate (fun slot member => ?_) fun slot member => ?_)
    · exact spells_shortPin (h slot member) (.inl rfl) comma
    · have spells := spells_shortPin (h slot member) (.inr rfl) (.blanks ['\n'] rfl)
      rwa [List.append_nil] at spells

theorem spells_shortBus {bus : Bus} (h : DisplayableBus bus) :
    Spells (shortBus bus) (frontier (shortBusTree bus)) :=
  (Spells.blanks [' ', ' '] rfl).append
    ((spells_name h.name).append (spells_shortPins h.pins h.words))

theorem spells_display {board : Board} (h : Displayable board) :
    Spells board.display.toList (frontier (shortBoardTree board)) := by
  have buses : Spells (board.buses.flatMap shortBus) (frontier (board.buses.map shortBusTree)) :=
    spells_flatMap fun bus member => spells_shortBus (h.buses bus member)
  have closing : Spells ['}'] (frontier (mark .closeBrace ['}'])) :=
    .mark .closeBrace nofun fun _ => rfl
  rw [toList_display]
  exact (spells_shortNames h.names).append ((spells_parent h.parent).append
    (spells_opening.append (buses.append closing)))

theorem name_pinOf_shortPinTree (slot : Slot) :
    (pinOf (shortPinTree slot)).name = slot.top.name := by
  obtain ⟨⟨name, aliasName, additions, origin⟩, below⟩ := slot
  cases name with
  | none => rfl
  | some name => exact congrArg some (nameOf_wordTree name)

theorem names_busOf_shortBusTree (bus : Bus) :
    (busOf (shortBusTree bus)).slots.map (·.top.name) = bus.slots.map (·.top.name) := by
  obtain ⟨name, aliasName, slots, additions⟩ := bus
  cases slots with
  | nil => rfl
  | cons first more =>
    simp [busOf, shortBusTree, shortPinsTree, pinsOf, listTree, name_pinOf_shortPinTree]

/-! ## The trees are greedy -/

theorem pinGreedy_shortPinTree {slot : Slot} {rest : List Lexeme}
    (h : starts Kind.isName rest = false ∨ slot.top.name ≠ none) :
    PinGreedy (shortPinTree slot) rest := by
  intro unnamed
  exact h.resolve_right fun named => named (Option.map_eq_none_iff.1 unnamed)

theorem greedy_shortBus {bus : Bus} {rest : List Lexeme}
    (last : starts Kind.isName rest = false ∨
      ∀ slot ∈ bus.slots.getLast?, slot.top.name ≠ none) : BusGreedy (shortBusTree bus) rest := by
  obtain ⟨name, aliasName, slots, additions⟩ := bus
  rintro colon pins there
  cases slots with
  | nil => cases there
  | cons first more =>
    cases there
    exact eachBefore_pins (fun _ _ => pinGreedy_shortPinTree) (first :: more) last

/-- Reading the short form of a board gives back what it shows. -/
theorem read_display (board : Board) (h : Displayable board) :
    ∃ board', read board.display = ⟨[board'], none⟩ ∧ board'.names = board.names ∧
      board'.parentName = board.parentName ∧
      board'.buses.map (fun bus => (bus.name, bus.slots.map (·.top.name))) =
        board.buses.map (fun bus => (bus.name, bus.slots.map (·.top.name))) := by
  refine ⟨boardOf (shortBoardTree board), ?_, filter_namesTree h.namesNonempty,
    map_parentTree board.parentName, ?_⟩
  · have scanned := (spells_display h).scan_eq
    have greedy : Greedy [shortBoardTree board] :=
      ⟨eachBefore_buses (fun _ _ => greedy_shortBus) h.visible rfl, trivial⟩
    have completes := (completes_iff_derivation _ _).2 ⟨_, rfl, greedy, rfl⟩
    have whole : frontier [shortBoardTree board] = frontier (shortBoardTree board) :=
      List.append_nil _
    rw [whole] at completes
    rw [read_eq_of_scan scanned completes]
    rfl
  · simp only [boardOf, shortBoardTree, List.map_map]
    refine List.map_congr_left fun bus _ => Prod.ext ?_ (names_busOf_shortBusTree bus)
    exact nameOf_nameTree bus.name

/-- A board without a name of its own, with pins that have no name. -/
def unnamedBoard : Board where
  parentName := some "A, B"
  buses := [
    { name := "12ns"
      slots := [⟨{}, []⟩, ⟨{ name := some "P(1)" }, []⟩, ⟨{ name := some "12ns" }, []⟩] },
    { name := "", slots := [⟨{}, []⟩, ⟨{}, []⟩] }]

theorem displayable_unnamedBoard : Displayable unnamedBoard where
  namesNonempty := nofun
  names := nofun
  parent := by
    rintro _ ⟨⟩
    decide +kernel
  buses := by
    have index : IsWord "P(1)" := by decide +kernel
    have unit : IsWord "12ns" := by decide +kernel
    refine List.forall_mem_cons.2 ⟨⟨by decide, nofun, ?_⟩,
      List.forall_mem_singleton.2 ⟨by decide, nofun, ?_⟩⟩
    · simp [index, unit]
    · simp
  visible := by
    refine List.forall_mem_singleton.2 ?_
    rintro _ ⟨⟩
    nofun

theorem read_display_unnamedBoard :
    Displayable unnamedBoard ∧
      unnamedBoard.display = "\"\" : \"A, B\" \x7b\n  \"12ns\":,P(1),12ns\n  \"\":,\n\x7d" ∧
      ∃ board', read unnamedBoard.display = ⟨[board'], none⟩ ∧
        board'.names = unnamedBoard.names ∧ board'.parentName = unnamedBoard.parentName ∧
        board'.buses.map (fun bus => (bus.name, bus.slots.map (·.top.name))) =
          unnamedBoard.buses.map (fun bus => (bus.name, bus.slots.map (·.top.name))) :=
  ⟨displayable_unnamedBoard, by decide +kernel,
    read_display unnamedBoard displayable_unnamedBoard⟩

end Pinout.Definition
