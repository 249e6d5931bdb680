import Pinout.Yaml.Source

/-! # Block scalars

A literal block keeps its lines; a folded block joins neighbouring lines that begin with a word. The
lines are indented by some columns, and what happens to the line ends at the end is told in front.
-/

namespace Pinout.Yaml

/-- What happens to the line ends at the end of a block. -/
inductive Chomping where
  | strip
  | clip
  | keep
deriving Repr, DecidableEq

/-- How a block is chomped, and how many columns further its lines are indented, if that is told. -/
structure BlockHeader where
  chomping : Chomping := .clip
  increment : Option Nat := none
deriving Repr, DecidableEq

def chomping? : Source → Option (Chomping × Source)
  | [] => none
  | x :: rest =>
    if x.char = '+' then some (.keep, rest)
    else if x.char = '-' then some (.strip, rest)
    else none

/-- A digit, if one comes next. It must not be zero. -/
def increment? : Source → Option (Option Nat × Source)
  | [] => some (none, [])
  | x :: rest =>
    if x.char = '0' then none
    else if x.char.isDigit then some (some (x.char.toNat - 0x30), rest)
    else some (none, x :: rest)

def blockHeader? (source : Source) : Option (BlockHeader × Source) := do
  let (header, rest) ←
    match chomping? source with
    | some (chomping, rest) => do
      let (increment, rest) ← increment? rest
      pure ({ chomping, increment : BlockHeader }, rest)
    | none => do
      let (increment, rest) ← increment? source
      match increment, chomping? rest with
      | some _, some (chomping, rest) => pure ({ chomping, increment : BlockHeader }, rest)
      | _, _ => pure ({ increment : BlockHeader }, rest)
  return (header, ← nextLine? rest)

/-- A line with content, and what ends it: its own line end and those of empty lines below. -/
structure BlockLine where
  text : List Char
  lineEnd : List Char
  emptyLines : List Char
deriving Repr, DecidableEq

/-- The ends of empty lines, the greatest column that spaces reach, and the line with content behind
them. Where an indentation is known, only spaces in front of it are passed over. Tabs are no
indentation. -/
def emptyLines? (indent : Option Nat) (deepest : Nat) :
    Source → Option (List Char × Nat × Source)
  | [] => some ([], deepest, [])
  | x :: rest =>
    let inFront := indent.all (x.column < ·)
    if inFront && x.char == ' ' then
      emptyLines? indent (max deepest (x.column + 1)) rest
    else if inFront && x.char == '\t' then
      none
    else if isBreak x.char then
      (emptyLines? indent deepest rest).map fun (lineEnds, deepest, rest) =>
        (x.char :: lineEnds, deepest, rest)
    else
      some ([], deepest, x :: rest)

/-- The lines that are indented by some columns. Each takes a character at least, so the length of
the source is fuel enough. -/
def blockLines? (indent : Nat) : Nat → Source → Option (List BlockLine × Source)
  | 0, source => some ([], source)
  | _, [] => some ([], [])
  | fuel + 1, x :: rest =>
    if x.column = indent then do
      let behind := skipWhile (!isBreak ·) (x :: rest)
      let (emptyLines, _, below) ← emptyLines? (some indent) 0 (behind.drop 1)
      let line : BlockLine :=
        { text := charsWhile (!isBreak ·) (x :: rest)
          lineEnd := (behind.take 1).map (·.char)
          emptyLines }
      let (lines, rest) ← blockLines? indent fuel below
      return (line :: lines, rest)
    else
      some ([], x :: rest)

def BlockLine.startsBlank (line : BlockLine) : Bool :=
  line.text.head?.any isBlank

def lineGap (folds : Bool) (line next : BlockLine) : List Char :=
  if folds && line.lineEnd == ['\n'] && !line.startsBlank && !next.startsBlank then
    if line.emptyLines.isEmpty then [' '] else line.emptyLines
  else
    line.lineEnd ++ line.emptyLines

def joinLines (folds : Bool) (chomping : Chomping) : List BlockLine → List Char
  | [] => []
  | [line] =>
    line.text ++
      match chomping with
      | .strip => []
      | .clip => line.lineEnd
      | .keep => line.lineEnd ++ line.emptyLines
  | line :: next :: lines =>
    line.text ++ lineGap folds line next ++ joinLines folds chomping (next :: lines)

/-- The text of a block behind its indicator, and what is left below it. `indent` is the least
column at which its lines may begin. -/
def blockText? (folds : Bool) (indent : Nat) (source : Source) :
    Option (List Char × Source) := do
  let (header, below) ← blockHeader? source
  let told := header.increment.map (indent - 1 + ·)
  let (emptyLines, deepest, rest) ← emptyLines? told 0 below
  let (lines, rest) ← blockLines? (told.getD (max deepest (max indent 1))) rest.length rest
  let text := joinLines folds header.chomping lines
  return (if lines.isEmpty && header.chomping != .keep then [] else emptyLines ++ text, rest)

end Pinout.Yaml
