import Pinout.OrderedMap
import Pinout.Text.Lower

/-! # Names without case

Boards, buses and header pins are named by people, and `A`, `a` are one name. A caseless name keeps
the spelling it was given for display and is compared, ordered and looked up by its lower-case form.
-/

namespace Pinout

structure Caseless where
  spelling : String
  folded : String := Text.lower spelling
  folded_eq : folded = Text.lower spelling := by rfl
deriving Repr, DecidableEq

namespace Caseless

def ofString (spelling : String) : Caseless :=
  { spelling }

instance : BEq Caseless where
  beq a b := a.folded == b.folded

instance : Ord Caseless where
  compare a b := compare a.folded b.folded

instance : ToString Caseless where
  toString name := name.spelling

theorem beq_iff {a b : Caseless} : (a == b) = true ↔ a.folded = b.folded := by
  change (a.folded == b.folded) = true ↔ _
  exact beq_iff_eq

instance : EquivBEq Caseless where
  symm h := beq_iff.2 (beq_iff.1 h).symm
  trans h h' := beq_iff.2 ((beq_iff.1 h).trans (beq_iff.1 h'))
  rfl := beq_iff.2 rfl

@[simp]
theorem folded_ofString (s : String) : (ofString s).folded = Text.lower s :=
  rfl

@[simp]
theorem spelling_ofString (s : String) : (ofString s).spelling = s :=
  rfl

def agrees (name : Caseless) (text : String) : Bool :=
  name.folded == Text.lower text

def padLeft (width : Nat) (name : Caseless) : String :=
  .ofList (List.replicate (width - name.spelling.length) ' ') ++ name.spelling

def describe (name : Caseless) : String :=
  "CaselessString(" ++ name.spelling ++ ")"

/-- Names in the order of their lower-case forms, those that are the same in the given order. -/
def sort (names : List Caseless) : List Caseless :=
  names.mergeSort fun a b => a.folded ≤ b.folded

end Caseless

def sameName (a b : String) : Bool :=
  Text.lower a == Text.lower b

theorem sameName_iff {a b : String} : sameName a b = true ↔ Text.lower a = Text.lower b :=
  beq_iff_eq

theorem agrees_ofString (name text : String) :
    (Caseless.ofString name).agrees text = sameName text name := by
  simp [Caseless.agrees, sameName, Bool.beq_comm]

abbrev CaselessMap (α : Type) :=
  OrderedMap Caseless α

/-- The value under a name given in any spelling. -/
def CaselessMap.find? {α : Type} (map : CaselessMap α) (name : String) : Option α :=
  map.get? (.ofString name)

end Pinout
