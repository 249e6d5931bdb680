import Pinout.Proofs.Definition.Scanning

/-! # Printing definitions

`print` writes boards in the definition language, every name in quotation marks. Boards that a
definition can describe are read again from what is printed of them: a printed part spells the
frontier of a tree, and the tree describes the part.
-/

namespace Pinout.Definition

open Text

def printName (name : String) : List Char :=
  '"' :: name.toList ++ ['"']

def printList {α : Type} (item : α → List Char) : List α → List Char
  | [] => []
  | first :: more => item first ++ more.flatMap fun next => [',', ' '] ++ item next

def printAssignment : Assignment → List Char
  | (key, value) => printName key ++ value.elim [] fun value => [' ', '=', ' '] ++ printName value

def printBlock : List Assignment → List Char
  | [] => []
  | assignments => [' ', '{', ' '] ++ (printList printAssignment assignments ++ [' ', '}'])

def printPin (pin : Pin) : List Char :=
  pin.name.elim [] printName ++ printBlock pin.additions.entries

def printPins : List Slot → List Char
  | [] => []
  | slots => [' ', ':', ' '] ++ printList (fun slot => printPin slot.top) slots

def printBus (bus : Bus) : List Char :=
  printName bus.name ++ (printBlock bus.additions.entries ++ (printPins bus.slots ++ ['\n']))

def headerBlock (header : String) : List Char :=
  '<' :: '<' :: ('\n' :: header.toList ++ ['\n']) ++ ['>', '>']

def printHeader (header : String) : List Char :=
  "@header".toList ++ (['\n'] ++ headerBlock header ++ ['\n'])

def printConfigs : List Assignment → List Char
  | [] => []
  | configs => "@config".toList ++ (printBlock configs ++ ['\n'])

def printParent (parent : String) : List Char :=
  [' ', ':', ' '] ++ printName parent

def printBoard (board : Board) : List Char :=
  printList printName board.names ++ (board.parentName.elim [] printParent ++
    ([' ', '{', '\n'] ++ (board.header.elim [] printHeader ++ (printConfigs board.configs ++
      (board.buses.flatMap printBus ++ ['}', '\n'])))))

def print (boards : List Board) : String :=
  .ofList (boards.flatMap printBoard)

def Quotable (text : String) : Prop :=
  ∀ c ∈ text.toList, c ≠ '"' ∧ c ≠ '\r' ∧ c ≠ '\n'

instance (text : String) : Decidable (Quotable text) :=
  List.decidableBAll (fun c => c ≠ '"' ∧ c ≠ '\r' ∧ c ≠ '\n') text.toList

def QuotableAll (assignments : List Assignment) : Prop :=
  ∀ assignment ∈ assignments, Quotable assignment.1 ∧ ∀ value ∈ assignment.2, Quotable value

instance (assignments : List Assignment) : Decidable (QuotableAll assignments) :=
  inferInstanceAs (Decidable (∀ assignment ∈ assignments, _ ∧ ∀ value ∈ assignment.2, _))

structure PrintablePin (pin : Pin) : Prop where
  name : ∀ name ∈ pin.name, Quotable name
  additions : QuotableAll pin.additions.entries
  keys : pin.additions.keys.Nodup
  noAlias : pin.aliasName = none
  noOrigin : pin.origin = none

structure PrintableBus (bus : Bus) : Prop where
  name : Quotable bus.name
  additions : QuotableAll bus.additions.entries
  keys : bus.additions.keys.Nodup
  noAlias : bus.aliasName = none
  pins : ∀ slot ∈ bus.slots, PrintablePin slot.top
  notCovering : ∀ slot ∈ bus.slots, slot.below = []

/-- The last pin of a bus has a name or additions. -/
def EndsVisibly (bus : Bus) : Prop :=
  ∀ slot ∈ bus.slots.getLast?, slot.top.name ≠ none ∨ slot.top.additions ≠ {}

/-- A board that a definition can describe. Its header is one that reading leaves as it is, and a
pin without name and additions does not stand in front of another bus, which would give it a
name. -/
structure PrintableBoard (board : Board) : Prop where
  named : board.names ≠ []
  namesNonempty : "" ∉ board.names
  names : ∀ name ∈ board.names, Quotable name
  parent : ∀ parent ∈ board.parentName, Quotable parent
  noWing : board.isWing = false
  header : ∀ header ∈ board.header, trimLines (trim header.toList) = header.toList
  headerOpen : ∀ header ∈ board.header, ¬['>', '>'] <:+: header.toList
  configs : QuotableAll board.configs
  buses : ∀ bus ∈ board.buses, PrintableBus bus
  visible : ∀ bus ∈ board.buses.dropLast, EndsVisibly bus

def nameTree (name : String) : NameTree :=
  ⟨⟨.quoted, 0, printName name⟩, rfl⟩

def mark (kind : Kind) (text : List Char) : Mark kind :=
  ⟨⟨kind, 0, text⟩, beq_self_eq_true kind⟩

def listTree {α β : Type} (tree : α → β) (first : α) (more : List α) :
    β × List (Mark .comma × β) :=
  (tree first, more.map fun next => (mark .comma [','], tree next))

def assignmentTree : Assignment → AssignmentTree
  | (key, value) => (nameTree key, value.map fun value => (mark .equals ['='], nameTree value))

def blockTree : List Assignment → Option BlockTree
  | [] => none
  | first :: more =>
    some (mark .openBrace ['{'], listTree assignmentTree first more, mark .closeBrace ['}'])

def pinTree (slot : Slot) : PinTree :=
  (slot.top.name.map nameTree, blockTree slot.top.additions.entries)

def pinsTree : List Slot → Option (Mark .colon × PinsTree)
  | [] => none
  | first :: more => some (mark .colon [':'], listTree pinTree first more)

def busTree (bus : Bus) : BusTree :=
  (nameTree bus.name, blockTree bus.additions.entries, pinsTree bus.slots)

def namesTree : List String → NamesTree
  | [] => (nameTree "", [])
  | first :: more => listTree nameTree first more

def headerTree (header : String) : HeaderTree :=
  (mark .headerWord "@header".toList, mark .block (headerBlock header))

def configTree (block : BlockTree) : ConfigTree :=
  (mark .configWord "@config".toList, block)

def boardTree (board : Board) : BoardTree :=
  (namesTree board.names, board.parentName.map fun parent => (mark .colon [':'], nameTree parent),
    mark .openBrace ['{'], board.header.map headerTree, (blockTree board.configs).map configTree,
    board.buses.map busTree, mark .closeBrace ['}'])

/-! ## Printing spells the trees -/

theorem spells_name {name : String} (h : Quotable name) :
    Spells (printName name) (frontier (nameTree name)) := by
  refine .quoted (List.all_eq_true.2 fun c member => ?_)
  obtain ⟨noQuote, noReturn, noLineFeed⟩ := h c member
  simp [isBreak, noQuote, noReturn, noLineFeed]

/-- Items spell a list if each spells its tree in front of a comma, and in front of what ends the
list. -/
theorem spells_intercalate {α β : Type} [Phrase β] {item : α → List Char} {tree : α → β}
    {separator ending : List Char} {first : α} {more : List α}
    (inside : ∀ a ∈ first :: more,
      Spells (item a ++ separator) (frontier (tree a) ++ [⟨.comma, 0, [',']⟩]))
    (last : ∀ a ∈ first :: more, Spells (item a ++ ending) (frontier (tree a))) :
    Spells (separator.intercalate ((first :: more).map item) ++ ending)
      (frontier (listTree tree first more)) := by
  induction more generalizing first with
  | nil =>
    have whole : frontier (listTree tree first []) = frontier (tree first) := List.append_nil _
    rw [List.map_singleton, List.intercalate_singleton, whole]
    exact last first (List.mem_singleton_self _)
  | cons next more ih =>
    rw [List.forall_mem_cons] at inside last
    have split : frontier (listTree tree first (next :: more)) =
        (frontier (tree first) ++ [⟨.comma, 0, [',']⟩]) ++
          frontier (listTree tree next more) := by
      rw [List.append_assoc]
      rfl
    rw [List.map_cons, List.map_cons, List.intercalate_cons_cons, List.append_assoc, split]
    exact inside.1.append (ih inside.2 last.2)

theorem spells_separated {α β : Type} [Phrase β] {item : α → List Char} {tree : α → β}
    {separator : List Char} {first : α} {more : List α}
    (comma : Spells separator [⟨.comma, 0, [',']⟩])
    (h : ∀ a ∈ first :: more, Spells (item a) (frontier (tree a))) :
    Spells (separator.intercalate ((first :: more).map item))
      (frontier (listTree tree first more)) := by
  have last : ∀ a ∈ first :: more, Spells (item a ++ []) (frontier (tree a)) := by
    simpa only [List.append_nil] using h
  have spells := spells_intercalate (fun a member => (h a member).append comma) last
  rwa [List.append_nil] at spells

theorem printList_cons {α : Type} (item : α → List Char) (first : α) (more : List α) :
    printList item (first :: more) = [',', ' '].intercalate ((first :: more).map item) := by
  induction more generalizing first with
  | nil => rw [printList, List.flatMap_nil, List.append_nil, List.map_singleton,
      List.intercalate_singleton]
  | cons next more ih =>
    rw [List.map_cons, List.map_cons, List.intercalate_cons_cons, ← List.map_cons, ← ih]
    simp [printList]

theorem spells_list {α β : Type} [Phrase β] {item : α → List Char} {tree : α → β} {first : α}
    {more : List α} (h : ∀ a ∈ first :: more, Spells (item a) (frontier (tree a))) :
    Spells (printList item (first :: more)) (frontier (listTree tree first more)) := by
  have comma : Spells [',', ' '] [⟨.comma, 0, [',']⟩] :=
    (Spells.mark .comma nofun fun _ => rfl).append (.blanks [' '] rfl)
  rw [printList_cons]
  exact spells_separated comma h

theorem spells_flatMap {α β : Type} [Headed β] {item : α → List Char} {tree : α → β}
    {items : List α} (h : ∀ a ∈ items, Spells (item a) (frontier (tree a))) :
    Spells (items.flatMap item) (frontier (items.map tree)) := by
  have trees : frontier (items.map tree) = items.flatMap fun a => frontier (tree a) :=
    List.flatMap_map ..
  rw [trees]
  exact .flatMap h

theorem spells_between {kind : Kind} {c : Char} (before after : List Char)
    (blank : before.all isBlank = true) (blank' : after.all isBlank = true)
    (spells : Spells [c] (frontier (mark kind [c]))) :
    Spells (before ++ [c] ++ after) (frontier (mark kind [c])) := by
  have whole := ((Spells.blanks before blank).append spells).append (.blanks after blank')
  rwa [List.nil_append, List.append_nil] at whole

theorem spells_assignment {assignment : Assignment} (h : Quotable assignment.1)
    (h' : ∀ value ∈ assignment.2, Quotable value) :
    Spells (printAssignment assignment) (frontier (assignmentTree assignment)) := by
  obtain ⟨key, value⟩ := assignment
  refine (spells_name h).append ?_
  cases value with
  | none => exact .nil
  | some value =>
    have equals : Spells [' ', '=', ' '] (frontier (mark .equals ['='])) :=
      spells_between [' '] [' '] rfl rfl (.mark .equals nofun fun _ => rfl)
    exact equals.append (spells_name (h' value rfl))

theorem spells_block {assignments : List Assignment} (h : QuotableAll assignments) :
    Spells (printBlock assignments) (frontier (blockTree assignments)) := by
  cases assignments with
  | nil => exact .nil
  | cons first more =>
    have opening : Spells [' ', '{', ' '] (frontier (mark .openBrace ['{'])) :=
      spells_between [' '] [' '] rfl rfl (.mark .openBrace nofun fun _ => rfl)
    have closing : Spells [' ', '}'] (frontier (mark .closeBrace ['}'])) :=
      spells_between [' '] [] rfl rfl (.mark .closeBrace nofun fun _ => rfl)
    have items := spells_list fun assignment member =>
      spells_assignment (h assignment member).1 (h assignment member).2
    exact opening.append (items.append closing)

theorem spells_pin {slot : Slot} (h : PrintablePin slot.top) :
    Spells (printPin slot.top) (frontier (pinTree slot)) := by
  obtain ⟨⟨name, _, _, _⟩, _⟩ := slot
  refine Spells.append ?_ (spells_block h.additions)
  cases name with
  | none => exact .nil
  | some name => exact spells_name (h.name name rfl)

theorem spells_pins {slots : List Slot} (h : ∀ slot ∈ slots, PrintablePin slot.top) :
    Spells (printPins slots) (frontier (pinsTree slots)) := by
  cases slots with
  | nil => exact .nil
  | cons first more =>
    have colon : Spells [' ', ':', ' '] (frontier (mark .colon [':'])) :=
      spells_between [' '] [' '] rfl rfl (.mark .colon nofun fun _ => rfl)
    exact colon.append (spells_list fun slot member => spells_pin (h slot member))

theorem spells_bus {bus : Bus} (h : PrintableBus bus) :
    Spells (printBus bus) (frontier (busTree bus)) := by
  have pins := (spells_pins h.pins).append (.blanks ['\n'] rfl)
  rw [List.append_nil] at pins
  exact (spells_name h.name).append ((spells_block h.additions).append pins)

/-- On lines of its own, a header does not end earlier. -/
theorem not_infix_lines {inner : List Char} (h : ¬['>', '>'] <:+: inner) :
    ¬['>', '>'] <:+: ('\n' :: inner ++ ['\n']) ++ ['>'] := by
  rw [List.infix_concat_iff, List.infix_concat_iff, List.infix_cons_iff]
  rintro (⟨before, same⟩ | ⟨before, same⟩ | ⟨_, same⟩ | within)
  · generalize '\n' :: inner = text at same
    simpa using congrArg (·.dropLast.getLast?) same
  · generalize '\n' :: inner = text at same
    simpa using congrArg List.getLast? same
  · cases same
  · exact h within

theorem spells_header {header : String} (h : ¬['>', '>'] <:+: header.toList) :
    Spells (printHeader header) (frontier (headerTree header)) := by
  have word : Spells "@header".toList (frontier (mark .headerWord "@header".toList)) :=
    .mark .headerWord nofun fun _ => rfl
  have block : Spells (headerBlock header) (frontier (mark .block (headerBlock header))) :=
    .block (not_infix_lines h)
  have ending := block.append (.blanks ['\n'] rfl)
  rw [List.append_nil] at ending
  exact word.append ((Spells.blanks ['\n'] rfl).append ending)

theorem spells_configs {configs : List Assignment} (h : QuotableAll configs) :
    Spells (printConfigs configs) (frontier ((blockTree configs).map configTree)) := by
  cases configs with
  | nil => exact .nil
  | cons first more =>
    have word : Spells "@config".toList (frontier (mark .configWord "@config".toList)) :=
      .mark .configWord nofun fun _ => rfl
    have block := (spells_block h).append (.blanks ['\n'] rfl)
    rw [List.append_nil] at block
    exact word.append block

theorem spells_parent {parent : Option String} (h : ∀ name ∈ parent, Quotable name) :
    Spells (parent.elim [] printParent)
      (frontier (parent.map fun name => (mark .colon [':'], nameTree name))) := by
  cases parent with
  | none => exact .nil
  | some name =>
    have colon : Spells [' ', ':', ' '] (frontier (mark .colon [':'])) :=
      spells_between [' '] [' '] rfl rfl (.mark .colon nofun fun _ => rfl)
    exact colon.append (spells_name (h name rfl))

theorem spells_opening : Spells [' ', '{', '\n'] (frontier (mark .openBrace ['{'])) :=
  spells_between [' '] ['\n'] rfl rfl (.mark .openBrace nofun fun _ => rfl)

theorem spells_board {board : Board} (h : PrintableBoard board) :
    Spells (printBoard board) (frontier (boardTree board)) := by
  obtain ⟨names, parent, buses, isWing, header, configs⟩ := board
  have namesSpelled : Spells (printList printName names) (frontier (namesTree names)) := by
    cases names with
    | nil => exact absurd rfl h.named
    | cons first more => exact spells_list fun name member => spells_name (h.names name member)
  have headerSpelled : Spells (header.elim [] printHeader) (frontier (header.map headerTree)) := by
    cases header with
    | none => exact .nil
    | some header => exact spells_header (h.headerOpen header rfl)
  have busesSpelled : Spells (buses.flatMap printBus) (frontier (buses.map busTree)) :=
    spells_flatMap fun bus member => spells_bus (h.buses bus member)
  have closing : Spells ['}', '\n'] (frontier (mark .closeBrace ['}'])) :=
    spells_between [] ['\n'] rfl rfl (.mark .closeBrace nofun fun _ => rfl)
  exact namesSpelled.append ((spells_parent h.parent).append (spells_opening.append
    (headerSpelled.append ((spells_configs h.configs).append (busesSpelled.append closing)))))

/-! ## The trees describe what is printed -/

@[simp]
theorem nameOf_nameTree (name : String) : nameOf (nameTree name) = name := by
  exact (nameOf_of_quoted rfl rfl).trans String.ofList_toList

theorem assignmentOf_assignmentTree (assignment : Assignment) :
    assignmentOf (assignmentTree assignment) = assignment := by
  obtain ⟨key, value⟩ := assignment
  cases value <;> simp [assignmentOf, assignmentTree]

theorem elim_blockTree (assignments : List Assignment) :
    (blockTree assignments).elim [] blockOf = assignments := by
  cases assignments with
  | nil => rfl
  | cons first more =>
    simp [blockTree, blockOf, assignmentsOf, listTree, Function.comp_def,
      assignmentOf_assignmentTree]

theorem additionsOf_blockTree {additions : Additions} (distinct : additions.keys.Nodup) :
    additionsOf (blockTree additions.entries) = additions := by
  rw [additionsOf, elim_blockTree, Additions.lastWins_of_nodup distinct]

theorem pinOf_pinTree {slot : Slot} (h : PrintablePin slot.top) :
    pinOf (pinTree slot) = slot.top := by
  obtain ⟨⟨name, aliasName, additions, origin⟩, below⟩ := slot
  cases h.noAlias
  cases h.noOrigin
  simp only [pinOf, pinTree, additionsOf_blockTree h.keys]
  cases name <;> simp

theorem pinsOf_pinsTree (slots : List Slot) :
    ((pinsTree slots).elim [] fun (_, pins) => pinsOf pins) =
      slots.map fun slot => pinOf (pinTree slot) := by
  cases slots with
  | nil => rfl
  | cons first more => simp [pinsTree, pinsOf, listTree, Function.comp_def]

theorem busOf_busTree {bus : Bus} (h : PrintableBus bus) : busOf (busTree bus) = bus := by
  obtain ⟨name, aliasName, slots, additions⟩ := bus
  cases h.noAlias
  have slotOf {slot : Slot} (member : slot ∈ slots) :
      ({ top := pinOf (pinTree slot) } : Slot) = slot := by
    rw [pinOf_pinTree (h.pins slot member)]
    cases slot
    cases h.notCovering _ member
    rfl
  simp only [busOf, busTree, nameOf_nameTree, additionsOf_blockTree h.keys, pinsOf_pinsTree,
    List.map_map]
  congr 1
  exact (List.map_congr_left fun slot member => slotOf member).trans (List.map_id slots)

theorem trim_lines (inner : List Char) : trim ('\n' :: inner ++ ['\n']) = trim inner := by
  have blank : isBlank '\n' = true := by decide
  simp only [trim, trimStart, trimEnd, List.cons_append, List.dropWhile_cons, blank, if_true,
    List.dropWhile_append]
  split
  · next empty => simp [List.isEmpty_iff.1 empty]
  · simp [blank]

theorem headerOf_headerBlock {header : String}
    (h : trimLines (trim header.toList) = header.toList) (offset : Nat) :
    headerOf ⟨.block, offset, headerBlock header⟩ = header := by
  have text : (Lexeme.mk .block offset (headerBlock header)).text =
      '<' :: '<' :: ('\n' :: header.toList ++ ['\n']) ++ ['>', '>'] := rfl
  rw [headerOf_of_brackets text, trim_lines, h, String.ofList_toList]

/-- The empty name that stands for no names does not count. -/
theorem filter_namesTree {names : List String} (nonempty : "" ∉ names) :
    (namesOf (namesTree names)).filter (!·.isEmpty) = names := by
  cases names with
  | nil => rfl
  | cons first more =>
    have described : namesOf (namesTree (first :: more)) = first :: more := by
      simp [namesOf, namesTree, listTree, Function.comp_def]
    rw [described, List.filter_eq_self]
    intro name member
    have : name ≠ "" := fun empty => nonempty (empty ▸ member)
    simp [this]

theorem map_parentTree (parent : Option String) :
    (parent.map fun name => (mark .colon [':'], nameTree name)).map
      (fun found => nameOf found.2) = parent := by
  cases parent <;> simp

theorem boardOf_boardTree {board : Board} (h : PrintableBoard board) :
    boardOf (boardTree board) = board := by
  obtain ⟨names, parent, buses, isWing, header, configs⟩ := board
  cases h.noWing
  have headerDescribed :
      (header.map headerTree).map (fun found => headerOf found.2.1) = header := by
    cases header with
    | none => rfl
    | some header => exact congrArg some (headerOf_headerBlock (h.header header rfl) 0)
  have configsDescribed :
      ((blockTree configs).map configTree).elim [] (fun found => blockOf found.2) = configs := by
    have described := elim_blockTree configs
    cases configs <;> exact described
  have busesDescribed : (buses.map busTree).map busOf = buses := by
    rw [List.map_map]
    exact (List.map_congr_left fun bus member => busOf_busTree (h.buses bus member)).trans
      (List.map_id buses)
  simp only [boardOf, boardTree, filter_namesTree h.namesNonempty, busesDescribed,
    Board.mk.injEq, true_and]
  exact ⟨map_parentTree parent, headerDescribed, configsDescribed⟩

/-! ## The trees are greedy -/

theorem pinGreedy_pinTree {slot : Slot} {rest : List Lexeme}
    (h : starts Kind.isName rest = false ∨ slot.top.name ≠ none ∨ slot.top.additions ≠ {}) :
    PinGreedy (pinTree slot) rest := by
  obtain ⟨⟨name, aliasName, ⟨entries⟩, origin⟩, below⟩ := slot
  rintro unnamed
  cases name with
  | some name => cases unnamed
  | none =>
    cases entries with
    | cons first more => rfl
    | nil =>
      rcases h with stop | named | added
      · exact stop
      · exact absurd rfl named
      · exact absurd rfl added

/-- Only the last pin of a bus can stand in front of a name, and then it must be visible. -/
theorem eachBefore_pins {tree : Slot → PinTree} {visible : Slot → Prop}
    (greedy : ∀ slot rest, starts Kind.isName rest = false ∨ visible slot →
      PinGreedy (tree slot) rest)
    (slots : List Slot) {rest : List Lexeme}
    (last : starts Kind.isName rest = false ∨ ∀ slot ∈ slots.getLast?, visible slot) :
    EachBefore (fun pin : Mark .comma × PinTree => PinGreedy pin.2)
      (slots.map fun slot => (mark .comma [','], tree slot)) rest := by
  induction slots with
  | nil => trivial
  | cons slot slots ih =>
    cases slots with
    | nil => exact ⟨greedy slot _ (last.imp_right fun visible => visible slot rfl), trivial⟩
    | cons next slots =>
      -- a comma comes behind every pin but the last one
      rw [List.getLast?_cons_cons] at last
      exact ⟨greedy slot _ (.inl rfl), ih last⟩

/-- Only the last bus of a board does not stand in front of a name. -/
theorem eachBefore_buses {tree : Bus → BusTree} {visible : Bus → Prop}
    (greedy : ∀ bus rest, starts Kind.isName rest = false ∨ visible bus → BusGreedy (tree bus) rest)
    {buses : List Bus} {rest : List Lexeme} (others : ∀ bus ∈ buses.dropLast, visible bus)
    (stop : starts Kind.isName rest = false) : EachBefore BusGreedy (buses.map tree) rest := by
  induction buses with
  | nil => trivial
  | cons bus buses ih =>
    cases buses with
    | nil => exact ⟨greedy bus _ (.inl stop), trivial⟩
    | cons next buses =>
      rw [List.dropLast_cons_cons, List.forall_mem_cons] at others
      exact ⟨greedy bus _ (.inr others.1), ih others.2⟩

theorem greedy_bus {bus : Bus} {rest : List Lexeme}
    (last : starts Kind.isName rest = false ∨ EndsVisibly bus) : BusGreedy (busTree bus) rest := by
  obtain ⟨name, aliasName, slots, additions⟩ := bus
  rintro colon pins there
  cases slots with
  | nil => cases there
  | cons first more =>
    cases there
    exact eachBefore_pins (fun _ _ => pinGreedy_pinTree) (first :: more) last

theorem greedy_boards {boards : List Board} (h : ∀ board ∈ boards, PrintableBoard board) :
    Greedy (boards.map boardTree) := by
  induction boards with
  | nil => trivial
  | cons board boards ih =>
    rw [List.forall_mem_cons] at h
    exact ⟨eachBefore_buses (fun _ _ => greedy_bus) h.1.visible rfl, ih h.2⟩

/-- Reading gives back what was printed. -/
theorem read_print (boards : List Board) (h : ∀ board ∈ boards, PrintableBoard board) :
    read (print boards) = ⟨boards, none⟩ := by
  have spells : Spells (boards.flatMap printBoard) (frontier (boards.map boardTree)) :=
    spells_flatMap fun board member => spells_board (h board member)
  have described : (boards.map boardTree).map boardOf = boards := by
    rw [List.map_map]
    exact (List.map_congr_left fun board member => boardOf_boardTree (h board member)).trans
      (List.map_id boards)
  have scanned : scan (print boards).toList = (frontier (boards.map boardTree), []) := by
    rw [print, String.toList_ofList, spells.scan_eq]
  have completes := (completes_iff_derivation _ _).2 ⟨_, rfl, greedy_boards h, rfl⟩
  rw [read_eq_of_scan scanned completes, List.reverse_reverse, described]

/-- A board whose names look like other lexemes, with pins that have no name. -/
def lookalikes : Board where
  names := ["One", "# two"]
  parentName := some "@header"
  header := some "first\n> second >"
  configs := [("12ns", some "<<"), ("12ns", none)]
  buses := [
    { name := "A, B", slots := [⟨{}, []⟩, ⟨{ name := some "P(1)" }, []⟩]
      additions := ⟨[("key", some "")]⟩ },
    { name := "", slots := [⟨{}, []⟩, ⟨{}, []⟩] }]

theorem printableBoard_lookalikes : PrintableBoard lookalikes where
  named := nofun
  namesNonempty := by decide +kernel
  names := by decide +kernel
  parent := by
    rintro _ ⟨⟩
    decide +kernel
  noWing := rfl
  header := by
    rintro _ ⟨⟩
    decide +kernel
  headerOpen := by
    rintro _ ⟨⟩
    decide +kernel
  configs := by decide +kernel
  buses := by
    have quotable (name : String) (h : name ∈ ["A, B", "", "P(1)"]) : Quotable name := by
      revert name
      decide +kernel
    have additions : QuotableAll [("key", some "")] := by decide +kernel
    have bare : PrintablePin {} := ⟨nofun, nofun, .nil, rfl, rfl⟩
    have named : PrintablePin { name := some "P(1)" } := by
      refine ⟨?_, nofun, .nil, rfl, rfl⟩
      rintro _ ⟨⟩
      exact quotable _ (by simp)
    refine List.forall_mem_cons.2 ⟨⟨quotable _ (by simp), additions, List.nodup_singleton _, rfl,
      ?_, ?_⟩, List.forall_mem_singleton.2 ⟨quotable _ (by simp), nofun, .nil, rfl, ?_, ?_⟩⟩
    · exact List.forall_mem_cons.2 ⟨bare, List.forall_mem_singleton.2 named⟩
    · simp
    · exact List.forall_mem_cons.2 ⟨bare, List.forall_mem_singleton.2 bare⟩
    · simp
  visible := by
    refine List.forall_mem_singleton.2 ?_
    rintro _ ⟨⟩
    exact .inl nofun

theorem read_print_lookalikes :
    (∀ board ∈ [lookalikes], PrintableBoard board) ∧
      read (print [lookalikes]) = ⟨[lookalikes], none⟩ := by
  have printable : ∀ board ∈ [lookalikes], PrintableBoard board :=
    List.forall_mem_singleton.2 printableBoard_lookalikes
  exact ⟨printable, read_print [lookalikes] printable⟩

end Pinout.Definition
