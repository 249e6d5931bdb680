import Pinout.Yaml.Tag

/-! # Directives

A line with a percent sign in front tells the version of YAML that a document is written in, or what
a tag handle stands for.
-/

namespace Pinout.Yaml

structure TagHandle where
  handle : List Char
  stem : Tag
deriving Repr, DecidableEq

inductive Directive where
  | version (major minor : Nat)
  | tagHandle (value : TagHandle)
deriving Repr, DecidableEq

def maxVersionDigits : Nat := 9

def versionNumber? (source : Source) : Option (Nat × Source) :=
  let digits := charsWhile Char.isDigit source
  if maxVersionDigits < digits.length then none
  else (natural? 10 digits).map (·, skipWhile Char.isDigit source)

def version? (source : Source) : Option (Directive × Source) := do
  let (major, rest) ← versionNumber? (skipWhile isBlank source)
  let (minor, rest) ← versionNumber? (← after? '.' rest)
  return (.version major minor, rest)

def behindBlanks? (source : Source) : Option Source :=
  if startsWith isBlank source then some (skipWhile isBlank source) else none

def tagHandle? (source : Source) : Option (Directive × Source) := do
  let (handle, rest) := splitHandle (← after? '!' (skipWhile isBlank source))
  if isClosedHandle handle || handle == ['!'] then
    let (stem, rest) ← someTagOctets? true (← behindBlanks? rest)
    if endsWord rest then return (.tagHandle ⟨handle, stem⟩, rest) else none
  else
    none

def directive? (source : Source) : Option (Directive × Source) := do
  let name := charsWhile isNameChar source
  let rest := skipWhile isNameChar source
  let (directive, rest) ←
    if !endsWord rest then none
    else if name == ['Y', 'A', 'M', 'L'] then version? rest
    else if name == ['T', 'A', 'G'] then tagHandle? rest
    else none
  return (directive, ← nextLine? rest)

def isKnownVersion (major minor : Nat) : Bool :=
  major == 1 && (minor == 1 || minor == 2)

def standardHandles : List TagHandle :=
  [⟨['!'], .ofString "!"⟩, ⟨['!', '!'], .ofString "tag:yaml.org,2002:"⟩]

/-- The handles of a document with some directives. It tells its version once, and every handle
once. -/
def handles? (directives : List Directive) : Option (List TagHandle) :=
  let versions := directives.filterMap fun
    | .version major minor => some (major, minor)
    | _ => none
  let told := directives.filterMap fun
    | .tagHandle value => some value
    | _ => none
  if versions.length ≤ 1 && versions.all (fun version => isKnownVersion version.1 version.2) &&
      (told.map (·.handle)).Nodup then
    some (told ++ standardHandles)
  else
    none

def TagText.resolve? (handles : List TagHandle) (text : TagText) : Option Tag :=
  if text.handle.isEmpty then some text.suffix
  else (handles.find? (·.handle == text.handle)).map (·.stem ++ text.suffix)

end Pinout.Yaml
