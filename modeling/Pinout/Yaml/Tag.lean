import Pinout.Yaml.Number
import Pinout.Yaml.Source

/-! # Tags

A tag tells what a node is. It is written as a handle, which stands for the beginning of tags, and
the rest; or as a whole in angle brackets. Octets that have no character of their own are written as
escapes, as many at once as make up a character in UTF-8.
-/

namespace Pinout.Yaml

/-- The octets of a tag. A zero octet ends it. -/
abbrev Tag :=
  List UInt8

def Tag.ofString (s : String) : Tag :=
  s.toUTF8.toList

/-- A tag as it is written. Without a handle, the suffix is all of it. -/
structure TagText where
  handle : List Char
  suffix : Tag
deriving Repr, DecidableEq

def truthTag : Tag :=
  .ofString "tag:yaml.org,2002:bool"

/-- The characters that stand for themselves in a tag. Brackets and commas do so only where no flow
collection could be meant. -/
def isTagChar (brackets : Bool) (c : Char) : Bool :=
  isNameChar c || ";/?:@&=+$.!~*()".contains c || c.toNat == 0x27 ||
    (brackets && [',', '[', ']'].contains c)

/-- How many octets of a character follow an octet, when some are expected or a character begins. -/
def octetsBehind? (expected octet : Nat) : Option Nat :=
  if 0 < expected then
    if 0x80 ≤ octet ∧ octet < 0xC0 then some (expected - 1) else none
  else if octet < 0x80 then some 0
  else if octet < 0xC0 then none
  else if octet < 0xE0 then some 1
  else if octet < 0xF0 then some 2
  else if octet < 0xF8 then some 3
  else none

/-- The octets at the beginning of a source, when some are expected to be escaped, and what is left
behind them. -/
def tagOctets? (brackets : Bool) (expected : Nat) : Source → Option (Tag × Source)
  | [] => if expected = 0 then some ([], []) else none
  | x :: rest =>
    if x.char = '%' then
      match rest with
      | high :: low :: rest => do
        let octet := 16 * (← digit? 16 high.char) + (← digit? 16 low.char)
        let (octets, rest) ← tagOctets? brackets (← octetsBehind? expected octet) rest
        return (octet.toUInt8 :: octets, rest)
      | _ => none
    else if 0 < expected then
      none
    else if isTagChar brackets x.char then
      (tagOctets? brackets 0 rest).map fun (octets, rest) =>
        (x.char.toNat.toUInt8 :: octets, rest)
    else
      some ([], x :: rest)

def Tag.cut (tag : Tag) : Tag :=
  tag.takeWhile (· != 0)

def someTagOctets? (brackets : Bool) (source : Source) : Option (Tag × Source) := do
  let (octets, rest) ← tagOctets? brackets 0 source
  if octets.isEmpty then none else return (Tag.cut octets, rest)

/-- A name behind an exclamation mark, and another mark if there is one, and what is left. -/
def splitHandle (source : Source) : List Char × Source :=
  let name := '!' :: charsWhile isNameChar source
  let rest := skipWhile isNameChar source
  match after? '!' rest with
  | some rest => (name ++ ['!'], rest)
  | none => (name, rest)

def isClosedHandle (handle : List Char) : Bool :=
  1 < handle.length && handle.getLast? == some '!'

def tagText? (source : Source) : Option (TagText × Source) :=
  match after? '<' source with
  | some rest => do
    let (suffix, rest) ← someTagOctets? true rest
    return (⟨[], suffix⟩, ← after? '>' rest)
  | none =>
    let (handle, rest) := splitHandle source
    if isClosedHandle handle then do
      let (suffix, rest) ← someTagOctets? false rest
      return (⟨handle, suffix⟩, rest)
    else do
      let (octets, rest) ← tagOctets? false 0 rest
      let suffix := Tag.cut (Tag.ofString (.ofList (handle.drop 1)) ++ octets)
      return (if suffix.isEmpty then ⟨[], Tag.ofString "!"⟩ else ⟨['!'], suffix⟩, rest)

/-- The tag behind an exclamation mark. A separator follows it, or in flow collections a comma. -/
def tag? (flowing : Bool) (source : Source) : Option (TagText × Source) := do
  let (text, rest) ← tagText? source
  if endsWord rest || (flowing && startsWith (· == ',') rest) then return (text, rest) else none

def anchorName? (source : Source) : Option (List Char × Source) :=
  let name := charsWhile isNameChar source
  let rest := skipWhile isNameChar source
  let isEnd := endsWord rest || startsWith ("?:,]\x7d%@".contains ·) rest ||
    startsWith (·.toNat == 0x60) rest
  if name.isEmpty || !isEnd then none else some (name, rest)

end Pinout.Yaml
