import Pinout.Text.Blank
import Pinout.Text.Lines
import Pinout.Text.Utf8

/-! # Excerpts

An excerpt shows the line of a source text on which an offset lies, and under it a line with a caret
at the offset. Offsets count bytes; one that lies behind the end counts as the end, and one inside a
character has no caret. An offset on a terminator belongs to the line it ends. When a line feed
follows a carriage return, the offset of the line feed belongs to the empty line between them.
-/

namespace Pinout.Definition

open Text

structure Excerpt where
  offset : Nat
  /-- The offset at which the line begins. -/
  start : Nat
  line : List Char
deriving Repr, DecidableEq

namespace Excerpt

/-- The offset and the text behind the last terminator that stands before `limit`. The search has
reached `offset`; `found` is what it found so far. -/
def lineFrom (limit : Nat) (found : Nat × List Char) (offset : Nat) :
    List Char → Nat × List Char
  | [] => found
  | c :: cs =>
    if offset < limit then
      let found := if isBreak c then (offset + 1, cs) else found
      lineFrom limit found (offset + c.utf8Size) cs
    else
      found

def of (source : String) (offset : Nat) : Excerpt :=
  let cs := source.toList
  let size := byteLength cs
  let offset := min offset size
  let (start, tail) := lineFrom (min offset (size - 1)) (0, cs) 0 cs
  ⟨offset, start, tail.takeWhile (!isBreak ·)⟩

/-- The marks under the characters of a line that go on at `position`. Blanks at the beginning are
repeated, so that tabs line up. -/
def marks (offset : Nat) (leading : Bool) (position : Nat) : List Char → List Char
  | [] => []
  | c :: cs =>
    if position = offset then
      '^' :: marks offset leading (position + c.utf8Size) cs
    else if leading && isBlank c then
      c :: marks offset true (position + c.utf8Size) cs
    else
      '-' :: marks offset false (position + c.utf8Size) cs

/-- The line under the excerpt. An offset behind the last character still gets its caret. -/
def marker (excerpt : Excerpt) : List Char :=
  marks excerpt.offset true excerpt.start excerpt.line ++
    if excerpt.start + byteLength excerpt.line ≤ excerpt.offset then ['^'] else []

def render (excerpt : Excerpt) (message : String) : String :=
  "At offset " ++ toString excerpt.offset ++ ": " ++ message ++ "\n" ++
    String.ofList excerpt.line ++ "\n" ++ String.ofList excerpt.marker

end Excerpt

end Pinout.Definition
