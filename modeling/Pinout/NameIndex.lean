import Pinout.Caseless
import Std.Data.TreeMap

/-! # Values by name

Boards, buses and header pins are looked up under their names in any spelling, and there may be many
of them. A name index keeps one value for each name, by its lower-case form and in a search tree. A
later value takes the place of an earlier one of the same name; neither spellings nor the order of
insertion are kept.
-/

namespace Pinout

structure NameIndex (α : Type) where
  byLower : Std.TreeMap String α := {}
deriving Repr

namespace NameIndex

variable {α : Type}

def insert (index : NameIndex α) (name : String) (value : α) : NameIndex α :=
  ⟨index.byLower.insert (Text.lower name) value⟩

def insertAll (index : NameIndex α) (pairs : List (String × α)) : NameIndex α :=
  pairs.foldl (fun index pair => index.insert pair.1 pair.2) index

def ofList (pairs : List (String × α)) : NameIndex α :=
  ({} : NameIndex α).insertAll pairs

def find? (index : NameIndex α) (name : String) : Option α :=
  index.byLower[Text.lower name]?

def size (index : NameIndex α) : Nat :=
  index.byLower.size

def isEmpty (index : NameIndex α) : Bool :=
  index.byLower.isEmpty

def values (index : NameIndex α) : List α :=
  index.byLower.values

@[simp]
theorem find?_empty (name : String) : ({} : NameIndex α).find? name = none := by
  simp [find?]

theorem find?_insert (index : NameIndex α) (name name' : String) (value : α) :
    (index.insert name value).find? name' =
      if sameName name name' then some value else index.find? name' := by
  simp [find?, insert, sameName, Std.TreeMap.getElem?_insert]

/-- The last pair of a name counts, and the index where there is none. -/
theorem find?_insertAll (index : NameIndex α) (pairs : List (String × α)) (name : String) :
    (index.insertAll pairs).find? name =
      ((pairs.reverse.find? fun pair => sameName pair.1 name).map (·.2)).or
        (index.find? name) := by
  induction pairs generalizing index with
  | nil => simp [insertAll]
  | cons pair rest ih =>
    have step : index.insertAll (pair :: rest) = (index.insert pair.1 pair.2).insertAll rest := rfl
    rw [step, ih, find?_insert, List.reverse_cons, List.find?_append]
    by_cases same : sameName pair.1 name <;>
      cases rest.reverse.find? fun pair => sameName pair.1 name <;> simp [same]

theorem find?_ofList (pairs : List (String × α)) (name : String) :
    (ofList pairs).find? name =
      (pairs.reverse.find? fun pair => sameName pair.1 name).map (·.2) := by
  simp [ofList, find?_insertAll]

end NameIndex

end Pinout
