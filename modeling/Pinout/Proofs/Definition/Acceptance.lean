import Pinout.Definition.Reading
import Pinout.Proofs.Definition.Derivation
import Pinout.Proofs.Definition.Lexing

/-! # Acceptance

The grammar is read one lexeme at a time, with all that is open in the place reached. Here the steps
are put together along the rules: `ReadsOn` says that a state reads exactly the trees of a rule, and
there is one lemma for each way in which rules are built.
-/

namespace Pinout.Definition

/-! ## Reading phrases -/

/-- All lexemes are taken, and no board is open behind them. -/
def Completes (state : State) (lexemes : List Lexeme) (boards : List Board) : Prop :=
  run state lexemes = (⟨boards, .betweenBoards⟩, [])

theorem completes_nil_iff {state : State} {boards : List Board} :
    Completes state [] boards ↔ state = ⟨boards, .betweenBoards⟩ := by
  simp [Completes, run]

theorem completes_cons_iff {state : State} {lexeme : Lexeme} {rest : List Lexeme}
    {boards : List Board} :
    Completes state (lexeme :: rest) boards ↔
      ∃ next, step state lexeme = some next ∧ Completes next rest boards := by
  cases h : step state lexeme <;> simp [Completes, run, h]

/-- Two states with an open board that take the next lexeme alike complete alike. -/
theorem completes_congr {state state' : State} {lexemes : List Lexeme} {boards : List Board}
    (isOpen : state.place ≠ .betweenBoards) (isOpen' : state'.place ≠ .betweenBoards)
    (agree : ∀ lexeme rest, lexemes = lexeme :: rest → step state lexeme = step state' lexeme) :
    Completes state lexemes boards ↔ Completes state' lexemes boards := by
  cases lexemes with
  | nil =>
    rw [completes_nil_iff, completes_nil_iff]
    exact iff_of_false (fun h => isOpen (congrArg State.place h))
      (fun h => isOpen' (congrArg State.place h))
  | cons lexeme rest => rw [completes_cons_iff, completes_cons_iff, agree lexeme rest rfl]

variable {α β σ : Type}

/-- Where the text is as described, `before` completes it by reading a tree and going on from
`after`. -/
def ReadsOn [Phrase α] (here : List Lexeme → Prop) (before : State) (after : α → State) : Prop :=
  ∀ lexemes boards, here lexemes →
    (Completes before lexemes boards ↔
      ∃ (a : α) (rest : List Lexeme),
        lexemes = frontier a ++ rest ∧ Fits a rest ∧ Completes (after a) rest boards)

theorem ReadsOn.mono [Phrase α] {here here' : List Lexeme → Prop} {before : State}
    {after : α → State} (reads : ReadsOn here before after)
    (weaker : ∀ lexemes, here' lexemes → here lexemes) : ReadsOn here' before after :=
  fun lexemes boards h => reads lexemes boards (weaker lexemes h)

/-- Behind a tree, another state may do the same as the one reached. -/
theorem ReadsOn.goOn [Phrase α] {here : List Lexeme → Prop} {before : State}
    {after after' : α → State} (reads : ReadsOn here before after)
    (agree : ∀ a rest boards, Fits a rest →
      (Completes (after a) rest boards ↔ Completes (after' a) rest boards)) :
    ReadsOn here before after' := by
  intro lexemes boards h
  rw [reads lexemes boards h]
  constructor
  · rintro ⟨a, rest, split, fits, completes⟩
    exact ⟨a, rest, split, fits, (agree a rest boards fits).1 completes⟩
  · rintro ⟨a, rest, split, fits, completes⟩
    exact ⟨a, rest, split, fits, (agree a rest boards fits).2 completes⟩

/-- What is read where it begins is read wherever nothing else is accepted. -/
theorem ReadsOn.always [Headed α] {here : List Lexeme → Prop} {before : State} {after : α → State}
    (reads : ReadsOn (fun lexemes => starts (head α) lexemes = true) before after)
    (rejects : ∀ lexeme rest, here (lexeme :: rest) → head α lexeme.kind = false →
      step before lexeme = none)
    (isOpen : here [] → before.place ≠ .betweenBoards) : ReadsOn here before after := by
  intro lexemes boards h
  cases next : starts (head α) lexemes with
  | true => exact reads lexemes boards next
  | false =>
    refine iff_of_false (fun completes => ?_) ?_
    · cases lexemes with
      | nil => exact isOpen h (congrArg State.place (completes_nil_iff.1 completes))
      | cons lexeme rest =>
        obtain ⟨_, taken, _⟩ := completes_cons_iff.1 completes
        cases taken.symm.trans (rejects lexeme rest h next)
    · rintro ⟨a, rest, rfl, _, _⟩
      cases next.symm.trans (starts_frontier a rest)

/-- A leaf that is there need only be accepted. -/
theorem ReadsOn.next {p : Kind → Bool} {before : State} {after : Leaf p → State}
    (accepts : ∀ leaf : Leaf p, step before leaf.1 = some (after leaf)) :
    ReadsOn (fun lexemes => starts p lexemes = true) before after := by
  intro lexemes boards here
  constructor
  · intro completes
    cases lexemes with
    | nil => cases here
    | cons lexeme rest =>
      obtain ⟨next, taken, completes⟩ := completes_cons_iff.1 completes
      cases taken.symm.trans (accepts ⟨lexeme, here⟩)
      exact ⟨⟨lexeme, here⟩, rest, rfl, trivial, completes⟩
  · rintro ⟨leaf, rest, rfl, _, completes⟩
    exact completes_cons_iff.2 ⟨after leaf, accepts leaf, completes⟩

theorem ReadsOn.leaf {p : Kind → Bool} {here : List Lexeme → Prop} {before : State}
    {after : Leaf p → State}
    (accepts : ∀ leaf : Leaf p, step before leaf.1 = some (after leaf))
    (rejects : ∀ lexeme rest, here (lexeme :: rest) → p lexeme.kind = false →
      step before lexeme = none)
    (isOpen : here [] → before.place ≠ .betweenBoards) : ReadsOn here before after :=
  (ReadsOn.next accepts).always rejects isOpen

/-- The second part is read where the first one fits. -/
theorem ReadsOn.seq [Phrase α] [Phrase β] {here : List Lexeme → Prop} {before : State}
    {after : α × β → State} (middle : α → State) (first : ReadsOn here before middle)
    (second : ∀ a, ReadsOn (Fits a) (middle a) fun b => after (a, b)) :
    ReadsOn here before after := by
  intro lexemes boards h
  rw [first lexemes boards h]
  constructor
  · rintro ⟨a, behind, rfl, fits, completes⟩
    obtain ⟨b, rest, rfl, fits', completes⟩ := (second a _ boards fits).1 completes
    exact ⟨(a, b), rest, (frontier_pair a b rest).symm, ⟨fits, fits'⟩, completes⟩
  · rintro ⟨⟨a, b⟩, rest, rfl, ⟨fits, fits'⟩, completes⟩
    exact ⟨a, frontier b ++ rest, frontier_pair a b rest, fits,
      (second a _ boards fits).2 ⟨b, rest, rfl, fits', completes⟩⟩

theorem ReadsOn.option [Headed α] {here : List Lexeme → Prop} {before : State}
    {after : Option α → State}
    (taken : ReadsOn (fun lexemes => starts (head α) lexemes = true) before fun a => after (some a))
    (skipped : ∀ lexemes boards, here lexemes → starts (head α) lexemes = false →
      (Completes before lexemes boards ↔ Completes (after none) lexemes boards)) :
    ReadsOn here before after := by
  intro lexemes boards h
  cases next : starts (head α) lexemes with
  | false =>
    rw [skipped lexemes boards h next]
    constructor
    · intro completes
      exact ⟨none, lexemes, rfl, next, completes⟩
    · rintro ⟨part, rest, rfl, fits, completes⟩
      cases part with
      | none => exact completes
      | some a => cases next.symm.trans (starts_frontier a rest)
  | true =>
    rw [taken lexemes boards next]
    constructor
    · rintro ⟨a, rest, split, fits, completes⟩
      exact ⟨some a, rest, split, fits, completes⟩
    · rintro ⟨part, rest, rfl, fits, completes⟩
      cases part with
      | none => cases next.symm.trans fits
      | some a => exact ⟨a, rest, rfl, fits, completes⟩

/-- A repetition, with what it has gathered in the state between two trees. -/
theorem ReadsOn.list [Headed α] {here : List Lexeme → Prop} (between : σ → State) (add : σ → α → σ)
    (each : ∀ s, ReadsOn (fun lexemes => starts (head α) lexemes = true) (between s)
      fun a => between (add s a))
    (s : σ) : ReadsOn here (between s) fun trees : List α => between (trees.foldl add s) := by
  rintro lexemes boards -
  -- Every tree takes a lexeme, so the induction is on how many are left.
  induction n : lexemes.length using Nat.strongRecOn generalizing lexemes s with
  | ind n ih =>
    subst n
    cases next : starts (head α) lexemes with
    | false =>
      constructor
      · intro completes
        exact ⟨[], lexemes, rfl, ⟨trivial, next⟩, completes⟩
      · rintro ⟨trees, rest, rfl, fits, completes⟩
        cases trees with
        | nil => exact completes
        | cons a trees =>
          rw [frontier_cons] at next
          cases next.symm.trans (starts_frontier a _)
    | true =>
      have shorter (a : α) (behind : List Lexeme) :
          behind.length < (frontier a ++ behind).length := by
        have := List.length_pos_iff.2 (frontier_ne_nil a)
        simp only [List.length_append]
        omega
      rw [each s lexemes boards next]
      constructor
      · rintro ⟨a, behind, rfl, fits, completes⟩
        obtain ⟨trees, rest, rfl, fits', completes⟩ :=
          (ih _ (shorter a behind) (add s a) behind rfl).1 completes
        exact ⟨a :: trees, rest, (frontier_cons a trees rest).symm, ⟨⟨fits, fits'.1⟩, fits'.2⟩,
          completes⟩
      · rintro ⟨trees, rest, rfl, fits, completes⟩
        cases trees with
        | nil => cases next.symm.trans fits.2
        | cons a trees =>
          rw [frontier_cons] at ih
          exact ⟨a, frontier trees ++ rest, frontier_cons a trees rest, fits.1.1,
            (ih _ (shorter a _) (add s a) _ rfl).2
              ⟨trees, rest, rfl, ⟨fits.1.2, fits.2⟩, completes⟩⟩

/-! ## Assignments -/

theorem kind_mark {kind : Kind} (mark : Mark kind) : mark.1.kind = kind :=
  eq_of_beq mark.2

variable (boards : List Board)

theorem reads_assignment (holder : Holder) (assigned : List Assignment) :
    ReadsOn (fun _ => True) ⟨boards, .key holder assigned⟩ fun assignment : AssignmentTree =>
      ⟨boards, .afterValue holder (assignmentOf assignment :: assigned)⟩ := by
  refine .seq (fun key => ⟨boards, .afterKey holder assigned (nameOf key)⟩) ?_ fun key => ?_
  · refine .leaf (fun name => ?_) (fun lexeme _ _ h => ?_) (fun _ => nofun)
    · simp [step, name.2, nameOf]
    · simp [step, h]
  · refine .option (.seq (fun _ => ⟨boards, .value holder assigned (nameOf key)⟩) ?_ fun _ => ?_) ?_
    · refine .next fun equals => ?_
      simp [step, kind_mark equals]
    · refine .leaf (fun name => ?_) (fun lexeme _ _ h => ?_) (fun _ => nofun)
      · simp [step, name.2, nameOf, assignmentOf]
      · simp [step, h]
    · intro lexemes _ _ skipped
      refine completes_congr nofun nofun ?_
      rintro lexeme rest rfl
      have other : lexeme.kind ≠ .equals := ne_of_beq_false skipped
      cases h : lexeme.kind <;> simp_all [step, assignmentOf]

theorem reads_assignments (holder : Holder) :
    ReadsOn (fun _ => True) ⟨boards, .key holder []⟩ fun assignments : AssignmentsTree =>
      ⟨boards, .afterValue holder (assignmentsOf assignments).reverse⟩ := by
  refine .seq (fun first => ⟨boards, .afterValue holder [assignmentOf first]⟩)
    (reads_assignment boards holder []) fun first => ?_
  refine (ReadsOn.list (fun assigned => ⟨boards, .afterValue holder assigned⟩)
    (fun assigned more => assignmentOf more.2 :: assigned) (fun assigned => ?_) _).goOn ?_
  · refine .seq (fun _ => ⟨boards, .key holder assigned⟩) ?_ fun _ =>
      (reads_assignment boards holder assigned).goOn fun _ _ _ _ => Iff.rfl
    refine .next fun comma => ?_
    simp [step, nextAssignment, kind_mark comma]
  · intro more rest _ _
    rw [List.foldl_flip_cons_eq_append]
    simp [assignmentsOf]

/-- Assignments in braces, read for a holder that an opening brace leads to. -/
theorem reads_block {before : State} (holder : Holder)
    (opens : ∀ lexeme, lexeme.kind = .openBrace →
      step before lexeme = some ⟨boards, .key holder []⟩) :
    ReadsOn (fun lexemes => starts (· == .openBrace) lexemes = true) before
      fun block : BlockTree => ⟨boards, holder.close (blockOf block).reverse⟩ := by
  refine .seq (fun _ => ⟨boards, .key holder []⟩) ?_ fun _ => .seq _
    ((reads_assignments boards holder).mono fun _ _ => trivial) fun assignments => ?_
  · exact .next fun brace => opens _ (kind_mark brace)
  · refine .leaf (fun brace => ?_) (fun lexeme _ here h => ?_) (fun _ => nofun)
    · simp [step, nextAssignment, kind_mark brace, blockOf]
    · have noComma : lexeme.kind ≠ .comma := ne_of_beq_false here.2.2
      have noBrace : lexeme.kind ≠ .closeBrace := ne_of_beq_false h
      cases kind : lexeme.kind <;> simp_all [step, nextAssignment]

/-! ## Buses -/

def afterName (board : OpenBoard) (bus : OpenBus) : Option NameTree → Place
  | none => .pin board bus
  | some name => .afterPinName board bus (pinOf (some name, none))

theorem reads_pin (board : OpenBoard) (bus : OpenBus) :
    ReadsOn (fun _ => True) ⟨boards, .pin board bus⟩ fun pin : PinTree =>
      ⟨boards, .afterPin board bus (pinOf pin)⟩ := by
  refine .seq (fun name => ⟨boards, afterName board bus name⟩)
    (.option ?_ fun _ _ _ _ => Iff.rfl) fun name => ?_
  · refine .next fun name : NameTree => ?_
    simp [step, name.2, afterName, pinOf, nameOf, additionsOf, Additions.lastWins]
  refine .option ((reads_block boards (.pin board bus (pinOf (name, none))) ?_).goOn ?_) ?_
  · intro lexeme kind
    cases name <;>
      simp [step, kind, Kind.isName, afterName, pinOf, additionsOf, Additions.lastWins]
  · intro block rest _ _
    simp [Holder.close, pinOf, additionsOf_some]
  · intro lexemes _ noName noBlock
    refine completes_congr (by cases name <;> simp [afterName]) (by simp) ?_
    rintro lexeme rest rfl
    have other : lexeme.kind ≠ .openBrace := ne_of_beq_false noBlock
    cases name with
    | none =>
      -- a name here would have been taken for that of the pin
      have unnamed : lexeme.kind.isName = false := noName
      cases kind : lexeme.kind <;>
        simp_all [step, afterName, pinOf, additionsOf, Additions.lastWins, Kind.isName]
    | some name =>
      cases kind : lexeme.kind <;> simp_all [step, afterName]

theorem add_foldl_add (bus : OpenBus) (first : PinTree) (more : List (Mark .comma × PinTree)) :
    let s :=
      more.foldl (fun (s : OpenBus × Pin) pin => (s.1.add s.2, pinOf pin.2)) (bus, pinOf first)
    s.1.add s.2 = (pinsOf (first, more)).foldl OpenBus.add bus := by
  induction more generalizing bus first with
  | nil => rfl
  | cons pin more ih => exact ih (bus.add (pinOf first)) pin.2

theorem foldl_add (bus : OpenBus) (pins : List Pin) :
    pins.foldl OpenBus.add bus =
      { bus with slots := (pins.map fun pin => ({ top := pin } : Slot)).reverse ++ bus.slots } := by
  induction pins generalizing bus with
  | nil => rfl
  | cons pin pins ih => simp [ih, OpenBus.add]

theorem reads_pins (board : OpenBoard) (bus : OpenBus) :
    ReadsOn (fun _ => True) ⟨boards, .pin board bus⟩ fun pins : PinsTree =>
      ⟨boards, .body (board.add ((pinsOf pins).foldl OpenBus.add bus)) .nothing⟩ := by
  refine .seq (fun first => ⟨boards, .afterPin board bus (pinOf first)⟩)
    (reads_pin boards board bus) fun first => ?_
  refine (ReadsOn.list (fun s : OpenBus × Pin => ⟨boards, .afterPin board s.1 s.2⟩)
    (fun s pin => (s.1.add s.2, pinOf pin.2)) (fun s => ?_) (bus, pinOf first)).goOn ?_
  · refine .seq (fun _ => ⟨boards, .pin board (s.1.add s.2)⟩) ?_ fun _ =>
      (reads_pin boards board _).mono fun _ _ => trivial
    refine .next fun comma => ?_
    simp [step, kind_mark comma]
  · -- what is no comma is taken as if the last pin were added already
    intro more lexemes _ fits
    rw [← add_foldl_add]
    refine completes_congr nofun nofun ?_
    rintro lexeme rest rfl
    have other : lexeme.kind ≠ .comma := ne_of_beq_false fits.2
    cases kind : lexeme.kind <;> simp_all [step]

def openBusOf (tree : BusTree) : OpenBus where
  name := (busOf tree).name
  additions := (busOf tree).additions
  slots := (busOf tree).slots.reverse

theorem close_openBusOf (tree : BusTree) : (openBusOf tree).close = busOf tree := by
  obtain ⟨name, block, pins⟩ := tree
  simp [openBusOf, OpenBus.close, busOf]

theorem reads_bus (board : OpenBoard) :
    ReadsOn (fun lexemes => starts Kind.isName lexemes = true) ⟨boards, .body board .nothing⟩
      fun bus : BusTree => ⟨boards, .body (board.add (openBusOf bus)) .nothing⟩ := by
  refine .seq (fun name => ⟨boards, .afterBusName board { name := nameOf name }⟩) ?_ fun name =>
    .seq (fun block => ⟨boards, .afterBusAdditions board (openBusOf (name, block, none))⟩) ?_
      fun block => ?_
  · refine .next fun name : NameTree => ?_
    have isName := name.2
    cases kind : name.1.kind <;> simp_all [step, nextBus, nameOf, Kind.isName]
  · refine .option ((reads_block boards (.bus board { name := nameOf name }) ?_).goOn ?_) ?_
    · intro lexeme kind
      simp [step, kind]
    · intro block rest _ _
      simp [Holder.close, openBusOf, busOf, additionsOf_some]
    · intro lexemes _ _ noBlock
      refine completes_congr (by simp) (by simp) ?_
      rintro lexeme rest rfl
      have other : lexeme.kind ≠ .openBrace := ne_of_beq_false noBlock
      cases kind : lexeme.kind <;>
        simp_all [step, openBusOf, busOf, additionsOf, Additions.lastWins]
  · refine .option (.seq (fun _ => ⟨boards, .pin board (openBusOf (name, block, none))⟩) ?_
      fun colon => ((reads_pins boards board _).goOn ?_).mono fun _ _ => trivial) ?_
    · refine .next fun colon => ?_
      simp [step, kind_mark colon]
    · intro pins rest _ _
      simp [foldl_add, openBusOf, busOf]
    · intro lexemes _ _ noPins
      refine completes_congr (by simp) (by simp) ?_
      rintro lexeme rest rfl
      have other : lexeme.kind ≠ .colon := ne_of_beq_false noPins
      cases kind : lexeme.kind <;> simp_all [step]

theorem foldl_addBus (board : OpenBoard) (buses : List BusTree) :
    buses.foldl (fun board bus => board.add (openBusOf bus)) board =
      { board with buses := (buses.map busOf).reverse ++ board.buses } := by
  induction buses generalizing board with
  | nil => rfl
  | cons bus buses ih =>
    rw [List.foldl_cons, ih]
    simp [OpenBoard.add, close_openBusOf]

theorem reads_buses (board : OpenBoard) :
    ReadsOn (fun _ => True) ⟨boards, .body board .nothing⟩ fun buses : List BusTree =>
      ⟨boards,
        .body { board with buses := (buses.map busOf).reverse ++ board.buses } .nothing⟩ := by
  refine (ReadsOn.list (fun board => ⟨boards, .body board .nothing⟩)
    (fun board bus => board.add (openBusOf bus))
    (fun board => reads_bus boards board) board).goOn ?_
  intro buses rest _ _
  rw [foldl_addBus]

/-! ## Boards -/

theorem reads_names :
    ReadsOn (fun lexemes => starts Kind.isName lexemes = true) ⟨boards, .betweenBoards⟩
      fun names : NamesTree => ⟨boards, .afterBoardName (namesOf names).reverse⟩ := by
  refine .seq (fun first => ⟨boards, .afterBoardName [nameOf first]⟩) ?_ fun first => ?_
  · refine .next fun name : NameTree => ?_
    simp [step, name.2, nameOf]
  refine (ReadsOn.list (fun names => ⟨boards, .afterBoardName names⟩)
    (fun names more => nameOf more.2 :: names) (fun names => ?_) _).goOn ?_
  · refine .seq (fun _ => ⟨boards, .boardName names⟩) ?_ fun _ => ?_
    · refine .next fun comma => ?_
      simp [step, kind_mark comma]
    · refine .leaf (fun name => ?_) (fun lexeme _ _ h => ?_) (fun _ => nofun)
      · simp [step, name.2, nameOf]
      · simp [step, h]
  · intro more rest _ _
    rw [List.foldl_flip_cons_eq_append]
    simp [namesOf]

def headOf (names : NamesTree) (parent : Option (Mark .colon × NameTree))
    (header : Option HeaderTree) (config : Option ConfigTree) : Board where
  names := (namesOf names).filter (!·.isEmpty)
  parentName := parent.map fun (_, name) => nameOf name
  header := header.map fun (_, block) => headerOf block.1
  configs := config.elim [] fun (_, block) => blockOf block

theorem reads_parent (names : NamesTree) :
    ReadsOn (Fits names) ⟨boards, .afterBoardName (namesOf names).reverse⟩
      fun parent => ⟨boards, .afterParentName ⟨headOf names parent none none, []⟩⟩ := by
  refine .option (.seq (fun _ => ⟨boards, .parentName (.named (namesOf names).reverse)⟩) ?_
    fun _ => ?_) ?_
  · refine .next fun colon => ?_
    simp [step, kind_mark colon]
  · refine .leaf (fun name => ?_) (fun lexeme _ _ h => ?_) (fun _ => nofun)
    · simp [step, name.2, nameOf, headOf, OpenBoard.named, Board.named]
    · simp [step, h]
  · -- names that go on or a parent would begin with the marks that are excluded
    intro lexemes _ fits noParent
    refine completes_congr nofun nofun ?_
    rintro lexeme rest rfl
    have noComma : lexeme.kind ≠ .comma := ne_of_beq_false ((fits_names names _).1 fits)
    have noColon : lexeme.kind ≠ .colon := ne_of_beq_false noParent
    cases kind : lexeme.kind <;> simp_all [step, headOf, OpenBoard.named, Board.named]

theorem reads_header (names : NamesTree) (parent : Option (Mark .colon × NameTree)) :
    ReadsOn (fun _ => True) ⟨boards, .body ⟨headOf names parent none none, []⟩ .header⟩
      fun header => ⟨boards, .body ⟨headOf names parent header none, []⟩ .config⟩ := by
  refine .option (.seq (fun _ => ⟨boards, .headerText ⟨headOf names parent none none, []⟩⟩) ?_
    fun _ => ?_) ?_
  · refine .next fun word => ?_
    simp [step, kind_mark word]
  · refine .leaf (fun block => ?_) (fun lexeme _ _ h => ?_) (fun _ => nofun)
    · simp [step, kind_mark block, headOf]
    · have other : lexeme.kind ≠ .block := ne_of_beq_false h
      cases kind : lexeme.kind <;> simp_all [step]
  · intro lexemes _ _ noHeader
    refine completes_congr nofun nofun ?_
    rintro lexeme rest rfl
    have other : lexeme.kind ≠ .headerWord := ne_of_beq_false noHeader
    cases kind : lexeme.kind <;> simp_all [step]

theorem reads_config (names : NamesTree) (parent : Option (Mark .colon × NameTree))
    (header : Option HeaderTree) :
    ReadsOn (fun _ => True) ⟨boards, .body ⟨headOf names parent header none, []⟩ .config⟩
      fun config => ⟨boards, .body ⟨headOf names parent header config, []⟩ .nothing⟩ := by
  let board : OpenBoard := ⟨headOf names parent header none, []⟩
  refine .option (.seq (fun _ => ⟨boards, .configStart board⟩) ?_ fun word => .goOn
    ((reads_block boards (.config board) ?_).always ?_ fun _ => nofun) ?_) ?_
  · refine .next fun word => ?_
    simp [step, kind_mark word, board]
  · intro lexeme kind
    simp [step, kind]
  · intro lexeme _ _ h
    have other : lexeme.kind ≠ .openBrace := ne_of_beq_false h
    cases kind : lexeme.kind <;> simp_all [step]
  · intro block rest _ _
    simp [Holder.close, board, headOf]
  · intro lexemes _ _ noConfig
    refine completes_congr nofun nofun ?_
    rintro lexeme rest rfl
    have other : lexeme.kind ≠ .configWord := ne_of_beq_false noConfig
    cases kind : lexeme.kind <;> simp_all [step]

theorem reads_board :
    ReadsOn (fun lexemes => starts Kind.isName lexemes = true) ⟨boards, .betweenBoards⟩
      fun board : BoardTree => ⟨boardOf board :: boards, .betweenBoards⟩ := by
  refine .seq _ (reads_names boards) fun names => .seq _ (reads_parent boards names) fun parent =>
    .seq (fun _ => ⟨boards, .body ⟨headOf names parent none none, []⟩ .header⟩) ?_ fun _ =>
    .seq _ ((reads_header boards names parent).mono fun _ _ => trivial) fun header =>
    .seq _ ((reads_config boards names parent header).mono fun _ _ => trivial) fun config =>
    .seq _ ((reads_buses boards _).mono fun _ _ => trivial) fun buses => ?_
  · refine .leaf (fun brace => ?_) (fun lexeme _ _ h => ?_) (fun _ => nofun)
    · simp [step, kind_mark brace]
    · have other : lexeme.kind ≠ .openBrace := ne_of_beq_false h
      cases kind : lexeme.kind <;> simp_all [step]
  · refine .leaf (fun brace => ?_) (fun lexeme _ fits h => ?_) (fun _ => nofun)
    · simp [step, nextBus, kind_mark brace, OpenBoard.close, boardOf, headOf]
    · have noBrace : lexeme.kind ≠ .closeBrace := ne_of_beq_false h
      have noName : lexeme.kind.isName = false := fits.2
      cases kind : lexeme.kind <;> simp_all [step, nextBus]

theorem reads_boards :
    ReadsOn (fun _ => True) {} fun boards : List BoardTree =>
      ⟨(boards.map boardOf).reverse, .betweenBoards⟩ := by
  refine (ReadsOn.list (fun boards => ⟨boards, .betweenBoards⟩)
    (fun boards board => boardOf board :: boards) reads_board []).goOn ?_
  intro boards rest _ _
  rw [List.foldl_flip_cons_eq_append, List.append_nil]

/-- The boards of a derivation are read, and nothing else is. -/
theorem completes_iff_derivation (lexemes : List Lexeme) (boards : List Board) :
    Completes {} lexemes boards ↔
      ∃ trees, frontier trees = lexemes ∧ Greedy trees ∧ boards = (trees.map boardOf).reverse := by
  rw [reads_boards lexemes boards trivial]
  constructor
  · rintro ⟨trees, rest, rfl, fits, completes⟩
    cases rest with
    | nil =>
      cases completes_nil_iff.1 completes
      exact ⟨trees, (List.append_nil _).symm, (fits_boards trees).1 fits, rfl⟩
    | cons lexeme rest =>
      -- behind the last board nothing but a name is accepted, and that would begin another one
      obtain ⟨_, taken, _⟩ := completes_cons_iff.1 completes
      have noName : lexeme.kind.isName = false := fits.2
      simp [step, noName] at taken
  · rintro ⟨trees, rfl, greedy, rfl⟩
    exact ⟨trees, [], (List.append_nil _).symm, (fits_boards trees).2 greedy,
      completes_nil_iff.2 rfl⟩

/-! ## Whole texts -/

def wordsOf (source : String) : List Lexeme :=
  (Lexer.ofSource source).lexemes.1.filter (!·.kind.isLayout)

def endOf (source : String) : Lexer :=
  (Lexer.ofSource source).lexemes.2

/-- The offset of the next of some words of a text, or of the end behind them. -/
def nextOffset (source : String) : List Lexeme → Nat
  | [] => (endOf source).offset
  | lexeme :: _ => lexeme.offset

theorem fault_eq_none_iff (source : String) :
    (read source).fault = none ↔
      (endOf source).rest = [] ∧ ∃ boards, Completes {} (wordsOf source) boards := by
  have stalled := Lexer.stalled_lexemes (Lexer.ofSource source)
  change _ ↔ (Lexer.ofSource source).lexemes.2.rest = [] ∧ _
  rw [← stalled]
  simp only [read, Option.map_eq_none_iff, Completes, wordsOf]
  generalize run {} ((Lexer.ofSource source).lexemes.1.filter (!·.kind.isLayout)) = outcome
  obtain ⟨⟨boards, place⟩, left⟩ := outcome
  cases left with
  | cons lexeme left => simp [faultAt?]
  | nil => cases place <;> simp [faultAt?]

theorem boards_of_completes {source : String} {boards : List Board}
    (h : Completes {} (wordsOf source) boards) : (read source).boards = boards.reverse := by
  change (run {} (wordsOf source)).1.boards.reverse = boards.reverse
  rw [show run {} (wordsOf source) = _ from h]

theorem pairwise_offset_words (source : String) :
    ((wordsOf source).map (·.offset) ++ [(endOf source).offset]).Pairwise (· < ·) :=
  (Lexer.pairwise_offsets (Lexer.ofSource source)).sublist
    ((List.filter_sublist.map _).append_right _)

/-- The reader is further on behind a part that takes a word. -/
theorem nextOffset_lt {source : String} {passed part rest : List Lexeme}
    (split : wordsOf source = passed ++ (part ++ rest)) (nonempty : part ≠ []) :
    nextOffset source (part ++ rest) < nextOffset source rest := by
  -- offsets grow along the words, and the end is behind all of them
  have growing := pairwise_offset_words source
  rw [split, List.map_append, List.append_assoc] at growing
  have growing := (List.pairwise_append.1 growing).2.1
  cases part with
  | nil => exact absurd rfl nonempty
  | cons lexeme part =>
    have behind := (List.pairwise_cons.1 growing).1
    cases rest <;> exact behind _ (by simp [nextOffset])

/-- A text is read without a fault just when all of it is lexed and its words have a derivation.
They have one at most, and it describes the boards that are read. Each of its boards moves the
reader on. -/
theorem fault_eq_none_iff_derivation (source : String) :
    ((read source).fault = none ↔
      (endOf source).rest = [] ∧ ∃ trees, Greedy trees ∧ frontier trees = wordsOf source) ∧
    ∀ trees, Greedy trees → frontier trees = wordsOf source →
      (read source).boards = trees.map boardOf ∧
      (∀ others, Greedy others → frontier others = wordsOf source → others = trees) ∧
      ∀ before board after, trees = before ++ board :: after →
        nextOffset source (frontier (board :: after)) < nextOffset source (frontier after) := by
  refine ⟨?_, fun trees greedy derived => ⟨?_, fun others greedy' derived' => ?_, ?_⟩⟩
  · rw [fault_eq_none_iff]
    refine and_congr_right fun _ => ⟨?_, ?_⟩
    · rintro ⟨boards, completes⟩
      obtain ⟨trees, derived, greedy, _⟩ := (completes_iff_derivation _ _).1 completes
      exact ⟨trees, greedy, derived⟩
    · rintro ⟨trees, greedy, derived⟩
      exact ⟨_, (completes_iff_derivation _ _).2 ⟨trees, derived, greedy, rfl⟩⟩
  · have completes := (completes_iff_derivation _ _).2 ⟨trees, derived, greedy, rfl⟩
    rw [boards_of_completes completes, List.reverse_reverse]
  · exact greedy'.unique greedy (derived'.trans derived.symm)
  · rintro before board after rfl
    have split : wordsOf source = frontier before ++ (frontier board ++ frontier after) := by
      rw [← derived]
      exact List.flatMap_append
    exact nextOffset_lt split (frontier_ne_nil board)

/-- Names lose their quotation marks, and headers the blanks at the ends of their lines. -/
example :
    (read "\"A b\", 7 : P \x7b\n@header <<\n  x  \n\n y >>\nC : \"1\" \x7d").boards =
      [{ names := ["A b", "7"], parentName := some "P", header := some "x\n\ny",
         buses := [{ name := "C", slots := [{ top := { name := some "1" } }] }] }] := by
  decide +kernel

end Pinout.Definition
