import Pinout.Board
import Pinout.Definition.Diagnostic
import Pinout.Definition.Lexer
import Pinout.Text.Lines

/-! # The grammar of definitions

    Boards      := Board*
    Board       := Names (':' Name)? '{' Header? Config? Bus* '}'
    Names       := Name (',' Name)*
    Header      := '@header' Block
    Config      := '@config' '{' Assignments '}'
    Bus         := Name ('{' Assignments '}')? (':' Pin (',' Pin)*)?
    Pin         := Name? ('{' Assignments '}')?
    Assignments := Assignment (',' Assignment)*
    Assignment  := Name ('=' Name)?
    Name        := Identifier | Quoted | Number

No rule contains itself, so a reader needs no stack: what may follow depends only on the place in
the board that is being written down. `Place` lists the places, each with what has been read of the
open board, and `step` takes one lexeme. A name where a pin may stand is always that pin's name.
What is still open keeps its parts in reverse, the last one first, and is turned when it is closed.
-/

namespace Pinout.Definition

structure OpenBus where
  name : String
  additions : Additions := {}
  /-- The last one first. -/
  slots : List Slot := []
deriving Repr, DecidableEq

namespace OpenBus

def add (bus : OpenBus) (pin : Pin) : OpenBus :=
  { bus with slots := { top := pin } :: bus.slots }

def close (bus : OpenBus) : Bus where
  name := bus.name
  slots := bus.slots.reverse
  additions := bus.additions

@[simp]
theorem slots_close_add (bus : OpenBus) (pin : Pin) :
    (bus.add pin).close.slots = bus.close.slots ++ [{ top := pin }] := by
  simp [close, add]

end OpenBus

/-- A board that is being read, behind its names. -/
structure OpenBoard where
  board : Board
  /-- The last one first. -/
  buses : List Bus := []
deriving Repr, DecidableEq

namespace OpenBoard

/-- A board under some names, the last one first. -/
def named (names : List String) : OpenBoard :=
  ⟨.named names.reverse, []⟩

def add (board : OpenBoard) (bus : OpenBus) : OpenBoard :=
  { board with buses := bus.close :: board.buses }

def close (board : OpenBoard) : Board :=
  { board.board with buses := board.buses.reverse }

@[simp]
theorem buses_close_add (board : OpenBoard) (bus : OpenBus) :
    (board.add bus).close.buses = board.close.buses ++ [bus.close] := by
  simp [close, add]

end OpenBoard

/-- What the assignments being read belong to. -/
inductive Holder where
  | config (board : OpenBoard)
  | bus (board : OpenBoard) (bus : OpenBus)
  | pin (board : OpenBoard) (bus : OpenBus) (pin : Pin)
deriving Repr, DecidableEq

/-- What may still come before the buses of a board. -/
inductive Opening where
  | header
  | config
  | nothing
deriving Repr, DecidableEq

/-- A place in a text of definitions, with the parts of the open board. Names and assignments that
are being read have the last one first. -/
inductive Place where
  | betweenBoards
  | boardName (names : List String)
  | afterBoardName (names : List String)
  | parentName (board : OpenBoard)
  | afterParentName (board : OpenBoard)
  | body (board : OpenBoard) (opening : Opening)
  | headerText (board : OpenBoard)
  | configStart (board : OpenBoard)
  | key (holder : Holder) (assigned : List Assignment)
  | afterKey (holder : Holder) (assigned : List Assignment) (key : String)
  | value (holder : Holder) (assigned : List Assignment) (key : String)
  | afterValue (holder : Holder) (assigned : List Assignment)
  | afterBusName (board : OpenBoard) (bus : OpenBus)
  | afterBusAdditions (board : OpenBoard) (bus : OpenBus)
  | pin (board : OpenBoard) (bus : OpenBus)
  | afterPinName (board : OpenBoard) (bus : OpenBus) (pin : Pin)
  | afterPin (board : OpenBoard) (bus : OpenBus) (pin : Pin)
deriving Repr, DecidableEq

def Holder.missing : Holder → Complaint
  | .config _ => .missingConfigEnd
  | .bus _ _ => .missingBusAdditionsEnd
  | .pin _ _ _ => .missingPinAdditionsEnd

/-- What is missing at a place when the next lexeme cannot stand there. -/
def Place.missing : Place → Complaint
  | .betweenBoards => .missingName
  | .boardName _ => .missingName
  | .afterBoardName _ => .missingBoardStart
  | .parentName _ => .missingName
  | .afterParentName _ => .missingBoardStart
  | .body _ _ => .missingBoardEnd
  | .headerText _ => .missingHeaderText
  | .configStart _ => .missingConfigStart
  | .key _ _ => .missingKey
  | .afterKey holder _ _ => holder.missing
  | .value _ _ _ => .missingName
  | .afterValue holder _ => holder.missing
  | .afterBusName _ _ => .missingBoardEnd
  | .afterBusAdditions _ _ => .missingBoardEnd
  | .pin _ _ => .missingBoardEnd
  | .afterPinName _ _ _ => .missingBoardEnd
  | .afterPin _ _ _ => .missingBoardEnd

/-- The boards read so far, the last one first, and the place behind them. -/
structure State where
  boards : List Board := []
  place : Place := .betweenBoards
deriving Repr, DecidableEq

/-- The header that a block spells: its lines trimmed, without blank lines around them. -/
def headerOf (lexeme : Lexeme) : String :=
  let inner := ((lexeme.text.drop 2).dropLast).dropLast
  .ofList (Text.trimLines (Text.trim inner))

/-- Takes a lexeme where the next bus or the end of the board may stand. -/
def nextBus (boards : List Board) (board : OpenBoard) (lexeme : Lexeme) : Option State :=
  match lexeme.kind with
  | .closeBrace => some ⟨board.close :: boards, .betweenBoards⟩
  | kind =>
    if kind.isName then some ⟨boards, .afterBusName board { name := lexeme.name }⟩ else none

def Holder.close (assigned : List Assignment) : Holder → Place
  | .config ⟨board, buses⟩ => .body ⟨{ board with configs := assigned.reverse }, buses⟩ .nothing
  | .bus board named =>
    .afterBusAdditions board { named with additions := Additions.collect assigned.reverse }
  | .pin board named owner =>
    .afterPin board named { owner with additions := Additions.collect assigned.reverse }

def nextAssignment (boards : List Board) (holder : Holder) (assigned : List Assignment)
    (lexeme : Lexeme) : Option State :=
  match lexeme.kind with
  | .comma => some ⟨boards, .key holder assigned⟩
  | .closeBrace => some ⟨boards, holder.close assigned⟩
  | _ => none

/-- Takes one lexeme, unless it cannot stand at this place. -/
def step (state : State) (lexeme : Lexeme) : Option State :=
  let go (place : Place) : Option State := some ⟨state.boards, place⟩
  let isName := lexeme.kind.isName
  match state.place with
  | .betweenBoards =>
    if isName then go (.afterBoardName [lexeme.name]) else none
  | .boardName names => if isName then go (.afterBoardName (lexeme.name :: names)) else none
  | .afterBoardName names =>
    match lexeme.kind with
    | .comma => go (.boardName names)
    | .colon => go (.parentName (.named names))
    | .openBrace => go (.body (.named names) .header)
    | _ => none
  | .parentName ⟨board, buses⟩ =>
    if isName then go (.afterParentName ⟨{ board with parentName := some lexeme.name }, buses⟩)
    else none
  | .afterParentName board =>
    match lexeme.kind with
    | .openBrace => go (.body board .header)
    | _ => none
  | .body board opening =>
    match opening, lexeme.kind with
    | .header, .headerWord => go (.headerText board)
    | .header, .configWord => go (.configStart board)
    | .config, .configWord => go (.configStart board)
    | _, _ => nextBus state.boards board lexeme
  | .headerText ⟨board, buses⟩ =>
    match lexeme.kind with
    | .block => go (.body ⟨{ board with header := some (headerOf lexeme) }, buses⟩ .config)
    | _ => none
  | .configStart board =>
    match lexeme.kind with
    | .openBrace => go (.key (.config board) [])
    | _ => none
  | .key holder assigned => if isName then go (.afterKey holder assigned lexeme.name) else none
  | .afterKey holder assigned key =>
    match lexeme.kind with
    | .equals => go (.value holder assigned key)
    | _ => nextAssignment state.boards holder ((key, none) :: assigned) lexeme
  | .value holder assigned key =>
    if isName then go (.afterValue holder ((key, some lexeme.name) :: assigned)) else none
  | .afterValue holder assigned => nextAssignment state.boards holder assigned lexeme
  | .afterBusName board bus =>
    match lexeme.kind with
    | .openBrace => go (.key (.bus board bus) [])
    | .colon => go (.pin board bus)
    | _ => nextBus state.boards (board.add bus) lexeme
  | .afterBusAdditions board bus =>
    match lexeme.kind with
    | .colon => go (.pin board bus)
    | _ => nextBus state.boards (board.add bus) lexeme
  | .pin board bus =>
    if isName then
      go (.afterPinName board bus { name := some lexeme.name })
    else
      match lexeme.kind with
      | .openBrace => go (.key (.pin board bus {}) [])
      | .comma => go (.pin board (bus.add {}))
      | _ => nextBus state.boards (board.add (bus.add {})) lexeme
  | .afterPinName board bus pin =>
    match lexeme.kind with
    | .openBrace => go (.key (.pin board bus pin) [])
    | .comma => go (.pin board (bus.add pin))
    | _ => nextBus state.boards (board.add (bus.add pin)) lexeme
  | .afterPin board bus pin =>
    match lexeme.kind with
    | .comma => go (.pin board (bus.add pin))
    | _ => nextBus state.boards (board.add (bus.add pin)) lexeme

/-- Takes lexemes as long as they can stand where they do, and gives back the others. -/
def run (state : State) : List Lexeme → State × List Lexeme
  | [] => (state, [])
  | lexeme :: rest =>
    match step state lexeme with
    | some next => run next rest
    | none => (state, lexeme :: rest)

end Pinout.Definition
