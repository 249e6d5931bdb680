import Pinout.Yaml.Token

/-! # Nodes

    Document  := directive* documentStart Node? | Node?
    Node      := named | Properties Content | Properties
    Content   := scalar | Sequence | Mapping
    Sequence  := blockSequenceStart (blockEntry Node?)* blockEnd
               | flowSequenceStart (Item (flowEntry Item)* flowEntry?)? flowSequenceEnd
    Mapping   := blockMappingStart (key Node? (value Node?)?)* blockEnd
               | flowMappingStart (Entry (flowEntry Entry)* flowEntry?)? flowMappingEnd
    Item      := Entry with a key | Node
    Entry     := key Node? (value Node?)? | Node

A value in a block mapping may be a sequence that is not indented, without start and end. A node
that is left out is an empty plain scalar.
-/

namespace Pinout.Yaml

structure Scalar where
  form : ScalarForm := .plain
  tag : Option Tag := none
  text : List Char := []
deriving Repr, DecidableEq

inductive Node where
  | scalar (value : Scalar)
  | sequence (items : List Node)
  | mapping (entries : List (Node × Node))
  /-- Whatever has been named last under a number. -/
  | named (number : Nat)
deriving Repr

def Node.empty : Node :=
  .scalar {}

/-- The names that anchors give. A name has a number, which is how many names there were when it was
given. A name that is given again gets a new number. -/
structure Anchors where
  numbers : List (List Char × Nat) := []
  /-- What the numbers stand for, the last one first: scalars, or collections without a word on what
  is in them. -/
  targets : List (Nat × Option Scalar) := []
deriving Repr, DecidableEq

namespace Anchors

def number? (anchors : Anchors) (name : List Char) : Option Nat :=
  anchors.numbers.lookup name

def scalar? (anchors : Anchors) (number : Nat) : Option Scalar :=
  (anchors.targets.lookup number).join

def name (anchors : Anchors) (name : List Char) (target : Option Scalar) : Anchors :=
  let number := anchors.numbers.length
  { numbers := (name, number) :: anchors.numbers.filter (·.1 ≠ name)
    targets := (number, target) :: anchors.targets }

end Anchors

/-- What is left of the tokens of a document, and what is known of it. -/
structure Reader where
  handles : List TagHandle
  tokens : List Token
  anchors : Anchors := {}

structure Properties where
  anchor : Option (List Char) := none
  tag : Option Tag := none

namespace Reader

def startsWith (reader : Reader) (tokens : List Token) : Bool :=
  reader.tokens.head?.any tokens.contains

def drop (reader : Reader) (count : Nat) : Reader :=
  { reader with tokens := reader.tokens.drop count }

def naming (reader : Reader) (properties : Properties) (target : Option Scalar) : Reader :=
  match properties.anchor with
  | none => reader
  | some name => { reader with anchors := reader.anchors.name name target }

/-- The properties in front of a node, in any order, if their tag has a meaning. -/
def properties? (reader : Reader) : Option (Properties × Reader) :=
  match reader.tokens with
  | .anchor name :: .tag text :: tokens | .tag text :: .anchor name :: tokens =>
    (text.resolve? reader.handles).map fun tag => (⟨some name, some tag⟩, { reader with tokens })
  | .anchor name :: tokens => some (⟨some name, none⟩, { reader with tokens })
  | .tag text :: tokens =>
    (text.resolve? reader.handles).map fun tag => (⟨none, some tag⟩, { reader with tokens })
  | _ => some ({}, reader)

def scalar (reader : Reader) (properties : Properties) (form : ScalarForm) (text : List Char) :
    Node × Reader :=
  let value : Scalar := { form, tag := properties.tag, text }
  (.scalar value, reader.naming properties value)

/-- An empty scalar with some properties, of which there is one at least. -/
def emptyScalar? (reader : Reader) (properties : Properties) : Option (Node × Reader) :=
  if properties.anchor.isSome || properties.tag.isSome then
    some (reader.scalar properties .plain [])
  else
    none

end Reader

/-- What a node is a part of, which decides about the collections it may be. -/
inductive Surroundings where
  | block
  | blockMapping
  | flow
deriving Repr, DecidableEq

mutual

/-- The node that comes next. The number in these functions is fuel: each takes a token, or calls
one that does. -/
def node? (surroundings : Surroundings) : Nat → Reader → Option (Node × Reader)
  | 0, _ => none
  | fuel + 1, reader => do
    if let .named name :: _ := reader.tokens then
      return (.named (← reader.anchors.number? name), reader.drop 1)
    let (properties, reader) ← reader.properties?
    let inside := (reader.naming properties none).drop 1
    let isBlock := surroundings != .flow
    match reader.tokens with
    | .scalar form text :: _ => return (reader.drop 1).scalar properties form text
    | .flowSequenceStart :: _ =>
      let (items, reader) ← flowItems? fuel true inside
      return (.sequence items, reader)
    | .flowMappingStart :: _ =>
      let (entries, reader) ← flowEntries? fuel true inside
      return (.mapping entries, reader)
    | token :: _ =>
      if token = .blockEntry ∧ surroundings = .blockMapping then
        let (items, reader) ← looseItems? fuel (reader.naming properties none)
        return (.sequence items, reader)
      else if token = .blockSequenceStart ∧ isBlock then
        let (items, reader) ← blockItems? fuel inside
        return (.sequence items, reader)
      else if token = .blockMappingStart ∧ isBlock then
        let (entries, reader) ← blockEntries? fuel inside
        return (.mapping entries, reader)
      else
        reader.emptyScalar? properties
    | [] => reader.emptyScalar? properties

/-- The node that comes next, or an empty one where one of some tokens comes next. -/
def nodeBefore? (surroundings : Surroundings) (ends : List Token) :
    Nat → Reader → Option (Node × Reader)
  | 0, _ => none
  | fuel + 1, reader =>
    if reader.startsWith ends then some (.empty, reader) else node? surroundings fuel reader

def blockItems? : Nat → Reader → Option (List Node × Reader)
  | 0, _ => none
  | fuel + 1, reader =>
    if reader.startsWith [.blockEnd] then
      some ([], reader.drop 1)
    else if reader.startsWith [.blockEntry] then do
      let (item, reader) ← nodeBefore? .block [.blockEntry, .blockEnd] fuel (reader.drop 1)
      let (items, reader) ← blockItems? fuel reader
      return (item :: items, reader)
    else
      none

def looseItems? : Nat → Reader → Option (List Node × Reader)
  | 0, _ => none
  | fuel + 1, reader =>
    if reader.startsWith [.blockEntry] then do
      let (item, reader) ←
        nodeBefore? .block [.blockEntry, .key, .value, .blockEnd] fuel (reader.drop 1)
      let (items, reader) ← looseItems? fuel reader
      return (item :: items, reader)
    else
      some ([], reader)

def blockEntries? : Nat → Reader → Option (List (Node × Node) × Reader)
  | 0, _ => none
  | fuel + 1, reader =>
    if reader.startsWith [.blockEnd] then
      some ([], reader.drop 1)
    else if reader.startsWith [.key] then do
      let (key, reader) ←
        nodeBefore? .blockMapping [.key, .value, .blockEnd] fuel (reader.drop 1)
      let (value, reader) ← valueBefore? .blockMapping [.key, .value, .blockEnd] fuel reader
      let (entries, reader) ← blockEntries? fuel reader
      return ((key, value) :: entries, reader)
    else
      none

def valueBefore? (surroundings : Surroundings) (ends : List Token) :
    Nat → Reader → Option (Node × Reader)
  | 0, _ => none
  | fuel + 1, reader =>
    if reader.startsWith [.value] then nodeBefore? surroundings ends fuel (reader.drop 1)
    else some (.empty, reader)

/-- The items of a flow sequence, from the first one or from a comma on. An item that begins with a
key is a mapping of one entry; an empty key takes the token behind it along. -/
def flowItems? : Nat → Bool → Reader → Option (List Node × Reader)
  | 0, _, _ => none
  | fuel + 1, isFirst, reader =>
    if reader.startsWith [.flowSequenceEnd] then
      some ([], reader.drop 1)
    else if !isFirst && !reader.startsWith [.flowEntry] then
      none
    else
      let reader := if isFirst then reader else reader.drop 1
      if reader.startsWith [.flowSequenceEnd] then
        some ([], reader.drop 1)
      else if reader.startsWith [.key] then do
        let reader := reader.drop 1
        let isEmpty := reader.startsWith [.value, .flowEntry, .flowSequenceEnd]
        let (key, reader) ←
          if isEmpty then some (.empty, reader.drop 1) else node? .flow fuel reader
        let (value, reader) ← valueBefore? .flow [.flowEntry, .flowSequenceEnd] fuel reader
        let (items, reader) ← flowItems? fuel false reader
        return (.mapping [(key, value)] :: items, reader)
      else do
        let (item, reader) ← node? .flow fuel reader
        let (items, reader) ← flowItems? fuel false reader
        return (item :: items, reader)

def flowEntries? : Nat → Bool → Reader → Option (List (Node × Node) × Reader)
  | 0, _, _ => none
  | fuel + 1, isFirst, reader =>
    if reader.startsWith [.flowMappingEnd] then
      some ([], reader.drop 1)
    else if !isFirst && !reader.startsWith [.flowEntry] then
      none
    else
      let reader := if isFirst then reader else reader.drop 1
      if reader.startsWith [.flowMappingEnd] then
        some ([], reader.drop 1)
      else if reader.startsWith [.key] then do
        let (key, reader) ←
          nodeBefore? .flow [.value, .flowEntry, .flowMappingEnd] fuel (reader.drop 1)
        let (value, reader) ← valueBefore? .flow [.flowEntry, .flowMappingEnd] fuel reader
        let (entries, reader) ← flowEntries? fuel false reader
        return ((key, value) :: entries, reader)
      else do
        let (key, reader) ← node? .flow fuel reader
        let (entries, reader) ← flowEntries? fuel false reader
        return ((key, .empty) :: entries, reader)

end

structure Document where
  root : Node
  anchors : Anchors

namespace Document

def scalar? (document : Document) : Node → Option Scalar
  | .scalar value => some value
  | .named number => document.anchors.scalar? number
  | _ => none

def splitDirectives : List Token → List Directive × List Token
  | .directive value :: tokens =>
    let (values, rest) := splitDirectives tokens
    (value :: values, rest)
  | tokens => ([], tokens)

def endsContent : List Token → Bool
  | [] => true
  | .directive _ :: _ => true
  | token :: _ => token = .documentStart || token = .documentEnd

/-- The only document of some tokens. Directives need a mark behind them. -/
def ofTokens? (tokens : List Token) : Option Document := do
  let (directives, content) := splitDirectives tokens
  let handles ← handles? directives
  let fuel := 4 * tokens.length + 4
  let (root, reader) ←
    match content with
    | .documentStart :: tokens =>
      if endsContent tokens then some (.empty, { handles, tokens })
      else node? .block fuel { handles, tokens }
    | tokens =>
      if !directives.isEmpty then none
      else if tokens.isEmpty then some (.empty, { handles, tokens })
      else node? .block fuel { handles, tokens }
  if reader.tokens.all (· = .documentEnd) then return ⟨root, reader.anchors⟩ else none

end Document

end Pinout.Yaml
