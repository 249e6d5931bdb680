/-! # Maps in insertion order

A short list of keyed values that remembers the order in which its keys first came. Inserting under
a key that is already there replaces the value and leaves the entry, and the key as it was first
given, where they are. Keys are compared by `BEq`, which need not be equality: names that differ
only in case are one key.
-/

namespace Pinout

/-- Keyed values in the order their keys were first inserted. -/
structure OrderedMap (κ α : Type) where
  entries : List (κ × α) := []
deriving Repr, DecidableEq

namespace OrderedMap

variable {κ α : Type} [BEq κ]

/-- Replaces the value of the first entry under the key, or adds an entry at the end. -/
def put (key : κ) (value : α) : List (κ × α) → List (κ × α)
  | [] => [(key, value)]
  | (key', value') :: rest =>
    if key' == key then (key', value) :: rest else (key', value') :: put key value rest

def empty : OrderedMap κ α :=
  {}

def insert (map : OrderedMap κ α) (key : κ) (value : α) : OrderedMap κ α :=
  ⟨put key value map.entries⟩

def get? (map : OrderedMap κ α) (key : κ) : Option α :=
  (map.entries.find? fun entry => entry.1 == key).map (·.2)

def contains (map : OrderedMap κ α) (key : κ) : Bool :=
  (map.get? key).isSome

def size (map : OrderedMap κ α) : Nat :=
  map.entries.length

def isEmpty (map : OrderedMap κ α) : Bool :=
  map.entries.isEmpty

def keys (map : OrderedMap κ α) : List κ :=
  map.entries.map (·.1)

def values (map : OrderedMap κ α) : List α :=
  map.entries.map (·.2)

def insertAll (map : OrderedMap κ α) (pairs : List (κ × α)) : OrderedMap κ α :=
  pairs.foldl (fun map pair => map.insert pair.1 pair.2) map

def ofList (pairs : List (κ × α)) : OrderedMap κ α :=
  empty.insertAll pairs

@[simp]
theorem get?_empty (key : κ) : (empty : OrderedMap κ α).get? key = none :=
  rfl

omit [BEq κ] in
@[simp]
theorem entries_empty : (empty : OrderedMap κ α).entries = [] :=
  rfl

theorem find?_put [PartialEquivBEq κ] (key key' : κ) (value : α) (entries : List (κ × α)) :
    ((put key value entries).find? fun entry => entry.1 == key').map (·.2) =
      if key == key' then some value
       else (entries.find? fun entry => entry.1 == key').map (·.2) := by
  induction entries with
  | nil =>
    by_cases h : key == key' <;> simp [put, h]
  | cons entry rest ih =>
    simp only [put]
    by_cases same : entry.1 == key
    · simp only [same, ↓reduceIte]
      by_cases h : key == key'
      · simp [h, BEq.trans same h]
      · have : (entry.1 == key') = false := by
          rw [Bool.eq_false_iff]
          exact fun found => h (BEq.trans (BEq.symm same) found)
        simp [h, this]
    · simp only [same, Bool.false_eq_true, ↓reduceIte]
      by_cases found : entry.1 == key'
      · have : (key == key') = false := by
          rw [Bool.eq_false_iff]
          exact fun h => same (BEq.trans found (BEq.symm h))
        simp [found, this]
      · simp only [List.find?_cons, found]
        exact ih

theorem get?_insert [PartialEquivBEq κ] (map : OrderedMap κ α) (key key' : κ) (value : α) :
    (map.insert key value).get? key' = if key == key' then some value else map.get? key' :=
  find?_put key key' value map.entries

theorem keys_put (key : κ) (value : α) (entries : List (κ × α)) :
    (put key value entries).map (·.1) =
      if entries.any (·.1 == key) then entries.map (·.1) else entries.map (·.1) ++ [key] := by
  induction entries with
  | nil => simp [put]
  | cons entry rest ih =>
    simp only [put]
    by_cases same : entry.1 == key
    · simp [same]
    · simp only [same, Bool.false_eq_true, ↓reduceIte, List.map_cons, ih, List.any_cons,
        Bool.false_or]
      split <;> simp

theorem keys_insert (map : OrderedMap κ α) (key : κ) (value : α) :
    (map.insert key value).keys =
      if map.entries.any (·.1 == key) then map.keys else map.keys ++ [key] :=
  keys_put key value map.entries

end OrderedMap

end Pinout
