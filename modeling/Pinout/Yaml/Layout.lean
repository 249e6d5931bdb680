import Pinout.Yaml.Block
import Pinout.Yaml.Plain
import Pinout.Yaml.Quoted
import Pinout.Yaml.Token

/-! # Layout

Reads a source as tokens. A block collection begins where a line is indented further than those
around it, and ends where one is indented less. What stands in front of a colon is a key; that is
known only at the colon, so a place where a key may have begun is kept in mind as a candidate. A key
without a question mark is on one line, and has at most 1024 bytes.
-/

namespace Pinout.Yaml

structure Candidate where
  /-- How many tokens stand in front of it. -/
  number : Nat
  start : Placed
  /-- Whether nothing but a key may begin there. -/
  required : Bool
deriving Repr, DecidableEq

def maxKeyLength : Nat := 1024

/-- Whether a key that began at a candidate would be too long, or go on over several lines. -/
def Candidate.isOutdated (candidate : Candidate) (place : Placed) : Bool :=
  candidate.start.line < place.line || candidate.start.index + maxKeyLength < place.index

structure Layout where
  tokens : Array Token := #[]
  /-- The columns of the open block collections, the innermost first. -/
  columns : List Nat := []
  /-- The candidates of the open flow collections, the innermost first, and of what is around. -/
  candidates : List (Option Candidate) := [none]
  keyAllowed : Bool := true
deriving Repr, DecidableEq

namespace Layout

def isFlowing (layout : Layout) : Bool :=
  1 < layout.candidates.length

/-- The least column of what belongs to the innermost block collection. -/
def indent (layout : Layout) : Nat :=
  layout.columns.head?.elim 0 (· + 1)

def add (layout : Layout) (token : Token) : Layout :=
  { layout with tokens := layout.tokens.push token }

/-- A token behind the first `number` ones. -/
def insert (layout : Layout) (number : Nat) (token : Token) : Layout :=
  { layout with tokens := layout.tokens.insertIdxIfInBounds number token }

def allowKey (layout : Layout) (allowed : Bool) : Layout :=
  { layout with keyAllowed := allowed }

def forget? (layout : Layout) : Option Layout :=
  match layout.candidates with
  | [] => some layout
  | candidate :: outer =>
    if candidate.any (·.required) then none
    else some { layout with candidates := none :: outer }

def remember? (layout : Layout) (start : Placed) : Option Layout :=
  if layout.keyAllowed then do
    let required := !layout.isFlowing && layout.columns.head? == some start.column
    let layout ← layout.forget?
    return { layout with
      candidates := some ⟨layout.tokens.size, start, required⟩ :: layout.candidates.drop 1 }
  else
    some layout

/-- Gives up the candidates from which no key could go on up to a place. -/
def update? (layout : Layout) (place : Placed) : Option Layout := do
  let candidates ← layout.candidates.mapM fun
    | none => some none
    | some candidate =>
      if !candidate.isOutdated place then some (some candidate)
      else if candidate.required then none
      else some none
  return { layout with candidates }

/-- Begins a block collection in front of the token of a number, if its column says so. -/
def indentTo (layout : Layout) (column number : Nat) (token : Token) : Layout :=
  if !layout.isFlowing && layout.columns.head?.all (· < column) then
    { layout.insert number token with columns := column :: layout.columns }
  else
    layout

def endBlocks (layout : Layout) (stays : Nat → Bool) : Layout :=
  if layout.isFlowing then
    layout
  else
    let ended := layout.columns.takeWhile (!stays ·)
    { layout with
      tokens := layout.tokens ++ Array.replicate ended.length Token.blockEnd
      columns := layout.columns.drop ended.length }

def between? (layout : Layout) (token : Token) : Option Layout := do
  let layout ← (layout.endBlocks fun _ => false).forget?
  return (layout.add token).allowKey false

def openFlow? (layout : Layout) (start : Placed) (token : Token) : Option Layout := do
  let layout ← layout.remember? start
  return ({ layout with candidates := none :: layout.candidates }.add token).allowKey true

def closeFlow? (layout : Layout) (token : Token) : Option Layout := do
  let layout ← layout.forget?
  let candidates := match layout.candidates with
    | _ :: around :: outer => around :: outer
    | candidates => candidates
  return ({ layout with candidates }.add token).allowKey false

def flowEntry? (layout : Layout) : Option Layout := do
  let layout ← layout.forget?
  return (layout.add .flowEntry).allowKey true

/-- Begins a block collection at a place, where one may begin. In a flow collection there is none.
-/
def beginBlock? (layout : Layout) (start : Placed) (token : Token) : Option Layout :=
  if layout.isFlowing then some layout
  else if layout.keyAllowed then
    some (layout.indentTo start.column layout.tokens.size token)
  else none

def blockEntry? (layout : Layout) (start : Placed) : Option Layout := do
  let layout ← (← layout.beginBlock? start .blockSequenceStart).forget?
  return (layout.add .blockEntry).allowKey true

def key? (layout : Layout) (start : Placed) : Option Layout := do
  let layout ← (← layout.beginBlock? start .blockMappingStart).forget?
  return (layout.add .key).allowKey !layout.isFlowing

/-- A colon. It makes the candidate a key, if there is one. -/
def value? (layout : Layout) (start : Placed) : Option Layout :=
  match layout.candidates with
  | some candidate :: outer =>
    let layout := { layout with candidates := none :: outer }.insert candidate.number .key
    let layout := layout.indentTo candidate.start.column candidate.number .blockMappingStart
    some ((layout.add .value).allowKey false)
  | _ => do
    let layout ← layout.beginBlock? start .blockMappingStart
    return (layout.add .value).allowKey !layout.isFlowing

def word? (layout : Layout) (start : Placed) (token : Token) : Option Layout := do
  let layout ← layout.remember? start
  return (layout.add token).allowKey false

def plain? (layout : Layout) (start : Placed) (source : Source) : Option (Layout × Source) := do
  let layout ← layout.remember? start
  let (plain, rest) ← Yaml.plain? layout.isFlowing layout.indent source
  return ((layout.add (.scalar .plain plain.text)).allowKey plain.endsLine, rest)

def quoted? (layout : Layout) (start : Placed) (result : Option (List Piece × Source)) :
    Option (Layout × Source) := do
  let (pieces, rest) ← result
  return (← layout.word? start (.scalar .quoted (folded pieces)), rest)

def block? (layout : Layout) (folds : Bool) (source : Source) : Option (Layout × Source) := do
  let layout ← layout.forget?
  let (text, rest) ← blockText? folds layout.indent source
  let form := if folds then ScalarForm.folded else .literal
  return ((layout.add (.scalar form text)).allowKey true, rest)

def next? (layout : Layout) (x : Placed) (rest : Source) : Option (Layout × Source) :=
  let source := x :: rest
  let flowing := layout.isFlowing
  let plain (isPlain : Bool) := if isPlain then layout.plain? x source else none
  if x.column = 0 ∧ x.char = '%' then do
    let (directive, rest) ← directive? rest
    return (← layout.between? (.directive directive), rest)
  else if startsWithMark '-' source then
    (layout.between? .documentStart).map (·, rest.drop 2)
  else if startsWithMark '.' source then
    (layout.between? .documentEnd).map (·, rest.drop 2)
  else
    match x.char with
    | '[' => (layout.openFlow? x .flowSequenceStart).map (·, rest)
    | '{' => (layout.openFlow? x .flowMappingStart).map (·, rest)
    | ']' => (layout.closeFlow? .flowSequenceEnd).map (·, rest)
    | '}' => (layout.closeFlow? .flowMappingEnd).map (·, rest)
    | ',' => layout.flowEntry?.map (·, rest)
    | '-' => if endsWord rest then (layout.blockEntry? x).map (·, rest) else plain true
    | '?' => if flowing || endsWord rest then (layout.key? x).map (·, rest) else plain true
    | ':' => if flowing || endsWord rest then (layout.value? x).map (·, rest) else plain true
    | '*' => do
      let (name, rest) ← anchorName? rest
      return (← layout.word? x (.named name), rest)
    | '&' => do
      let (name, rest) ← anchorName? rest
      return (← layout.word? x (.anchor name), rest)
    | '!' => do
      let (text, rest) ← tag? flowing rest
      return (← layout.word? x (.tag text), rest)
    | '|' => if flowing then none else layout.block? false rest
    | '>' => if flowing then none else layout.block? true rest
    | '"' => layout.quoted? x (doubleQuoted? .outside rest)
    | c =>
      if isSingleMark c then layout.quoted? x (singleQuoted? rest)
      else plain (!isBlank c && !isIndicator c)

/-- Passes over blanks, comments and line ends. Outside of flow collections, a key is allowed behind
a line end, and tabs are not passed over where one is. -/
def skip (layout : Layout) (inComment : Bool) : Source → Layout × Source
  | [] => (layout, [])
  | x :: rest =>
    if isBreak x.char then
      (layout.allowKey (layout.keyAllowed || !layout.isFlowing)).skip false rest
    else if inComment || x.char == ' ' || (x.column == 0 && isOrderMark x.char) ||
        (x.char == '\t' && (layout.isFlowing || !layout.keyAllowed)) then
      layout.skip inComment rest
    else if x.char == '#' then
      layout.skip true rest
    else
      (layout, x :: rest)

/-- All tokens of a source. Each takes a character at least, so the length of the source is fuel
enough. -/
def tokens? (layout : Layout) : Nat → Source → Option (List Token)
  | fuel, source =>
    let (layout, source) := layout.skip false source
    match fuel, source with
    | _, [] => do
      let layout ← (layout.endBlocks fun _ => false).forget?
      return layout.tokens.toList
    | 0, _ => none
    | fuel + 1, x :: rest => do
      let layout ← layout.update? x
      let (layout, rest) ← (layout.endBlocks (· ≤ x.column)).next? x rest
      layout.tokens? fuel rest

end Layout

def tokens? (text : String) : Option (List Token) := do
  let source ← source? text
  ({} : Layout).tokens? source.length source

end Pinout.Yaml
