import Mathlib.Data.Prod.Basic
import Pinout.OrderedMap
import Pinout.Proofs.First

/-! # Maps filled from lists

Of a map that is filled from a list two things are known: new keys come behind the old ones in the
order of first mention, and the last pair of a key counts. Where no key is repeated these two tell
the whole map. So it is one whether a list is inserted or the map that was filled from it.
-/

namespace Pinout.OrderedMap

variable {κ α : Type} [BEq κ]

theorem insertAll_append (map : OrderedMap κ α) (pairs more : List (κ × α)) :
    map.insertAll (pairs ++ more) = (map.insertAll pairs).insertAll more :=
  List.foldl_append

theorem insertAll_concat (map : OrderedMap κ α) (pairs : List (κ × α)) (pair : κ × α) :
    map.insertAll (pairs ++ [pair]) = (map.insertAll pairs).insert pair.1 pair.2 :=
  insertAll_append map pairs [pair]

/-- The last pair of a key counts, and the map where there is none. -/
theorem get?_insertAll [PartialEquivBEq κ] (map : OrderedMap κ α) (pairs : List (κ × α))
    (key : κ) :
    (map.insertAll pairs).get? key =
      ((pairs.reverse.find? (·.1 == key)).map (·.2)).or (map.get? key) := by
  induction pairs using List.reverseRecOn with
  | nil => rfl
  | append_singleton pairs pair ih =>
    rw [insertAll_concat, get?_insert, ih, List.reverse_concat, List.find?_cons]
    cases pair.1 == key <;> rfl

theorem get?_ofList [PartialEquivBEq κ] (pairs : List (κ × α)) (key : κ) :
    (ofList pairs).get? key = (pairs.reverse.find? (·.1 == key)).map (·.2) := by
  rw [ofList, get?_insertAll, get?_empty, Option.or_none]

section

variable [LawfulBEq κ]

theorem any_key_iff {map : OrderedMap κ α} {key : κ} :
    map.entries.any (·.1 == key) = true ↔ key ∈ map.keys := by
  simp [keys]

/-- Old keys stay where they are, and new ones come behind them in the order of first mention. -/
theorem keys_insertAll (map : OrderedMap κ α) (pairs : List (κ × α)) :
    (map.insertAll pairs).keys =
      map.keys ++ (pairs.map (·.1)).eraseDups.filter (· ∉ map.keys) := by
  induction pairs using List.reverseRecOn with
  | nil => exact (List.append_nil _).symm
  | append_singleton pairs pair ih =>
    rw [insertAll_concat, keys_insert, List.map_append, List.map_singleton, eraseDups_concat]
    simp only [any_key_iff, ih, List.mem_append, List.mem_filter]
    -- the key is an old one, or one of those inserted before, or new
    by_cases old : pair.1 ∈ map.keys <;>
      by_cases named : pair.1 ∈ (pairs.map (·.1)).eraseDups <;>
      simp [old, named]

theorem keys_ofList (pairs : List (κ × α)) :
    (ofList pairs).keys = (pairs.map (·.1)).eraseDups := by
  rw [ofList, keys_insertAll]
  simp [keys]

theorem nodup_keys_insertAll {map : OrderedMap κ α} (distinct : map.keys.Nodup)
    (pairs : List (κ × α)) : (map.insertAll pairs).keys.Nodup := by
  rw [keys_insertAll]
  refine distinct.append ((nodup_eraseDups _).filter _) fun key old new => ?_
  exact of_decide_eq_true (List.mem_filter.1 new).2 old

theorem nodup_keys_ofList (pairs : List (κ × α)) : (ofList pairs).keys.Nodup := by
  rw [keys_ofList]
  exact nodup_eraseDups _

/-- Where no key is repeated, an entry is the one found under its key. -/
theorem find?_key_eq_some_iff {entries : List (κ × α)} (distinct : (entries.map (·.1)).Nodup)
    {key : κ} {entry : κ × α} :
    entries.find? (·.1 == key) = some entry ↔ entry ∈ entries ∧ entry.1 = key := by
  constructor
  · intro found
    have here := List.find?_some found
    exact ⟨List.mem_of_find?_eq_some found, beq_iff_eq.1 here⟩
  · rintro ⟨member, rfl⟩
    cases found : entries.find? (·.1 == entry.1) with
    | none => exact absurd BEq.rfl (List.find?_eq_none.1 found entry member)
    | some other =>
      have here := List.find?_some found
      have member' := List.mem_of_find?_eq_some found
      rw [List.inj_on_of_nodup_map distinct member' member (beq_iff_eq.1 here)]

theorem find?_key_reverse {entries : List (κ × α)} (distinct : (entries.map (·.1)).Nodup)
    (key : κ) : entries.reverse.find? (·.1 == key) = entries.find? (·.1 == key) := by
  have distinct' : (entries.reverse.map (·.1)).Nodup := by
    rwa [List.map_reverse, List.nodup_reverse]
  ext entry
  rw [find?_key_eq_some_iff distinct', find?_key_eq_some_iff distinct, List.mem_reverse]

theorem get?_of_mem {map : OrderedMap κ α} (distinct : map.keys.Nodup) {entry : κ × α}
    (member : entry ∈ map.entries) : map.get? entry.1 = some entry.2 := by
  rw [get?, (find?_key_eq_some_iff distinct).2 ⟨member, rfl⟩, Option.map_some]

theorem get?_eq_none_iff {map : OrderedMap κ α} {key : κ} :
    map.get? key = none ↔ key ∉ map.keys := by
  rw [← any_key_iff, get?, Option.map_eq_none_iff, List.find?_eq_none, Bool.not_eq_true,
    List.any_eq_false]

/-- Entries tabulate what is found under the keys. -/
theorem entries_eq_map {map : OrderedMap κ α} (distinct : map.keys.Nodup) {value : κ → α}
    (values : ∀ key ∈ map.keys, map.get? key = some (value key)) :
    map.entries = map.keys.map fun key => (key, value key) := by
  rw [keys, List.map_map]
  refine (List.map_id _).symm.trans (List.map_congr_left fun entry member => ?_)
  have found := values entry.1 (List.mem_map_of_mem member)
  rw [get?_of_mem distinct member] at found
  exact Prod.ext rfl (Option.some.inj found)

/-- A map is told by its keys in order and by what it holds under each of them. -/
theorem ext_get? {map map' : OrderedMap κ α} (distinct : map.keys.Nodup)
    (sameKeys : map.keys = map'.keys) (values : ∀ key, map.get? key = map'.get? key) :
    map = map' := by
  -- there need be no value for a key that is not there, so what is tabulated is the lookup itself
  have told {map : OrderedMap κ α} (distinct : map.keys.Nodup) :
      map.entries.map (Prod.map id some) = map.keys.map fun key => (key, map.get? key) := by
    rw [keys, List.map_map]
    exact List.map_congr_left fun entry member =>
      congrArg (Prod.mk entry.1) (get?_of_mem distinct member).symm
  have entries : map.entries.map (Prod.map id some) = map'.entries.map (Prod.map id some) := by
    rw [told distinct, told (sameKeys ▸ distinct), sameKeys, funext values]
  have injective : Function.Injective (Prod.map (id : κ → κ) (some : α → Option α)) :=
    Function.injective_id.prodMap fun _ _ => Option.some.inj
  exact congrArg mk (List.map_injective_iff.2 injective entries)

/-- A list without repeated keys fills a map with itself. -/
theorem ofList_of_nodup {pairs : List (κ × α)} (distinct : (pairs.map (·.1)).Nodup) :
    ofList pairs = ⟨pairs⟩ := by
  refine ext_get? (nodup_keys_ofList pairs) ?_ fun key => ?_
  · rw [keys_ofList, eraseDups_of_nodup distinct]
    rfl
  · rw [get?_ofList, find?_key_reverse distinct]
    rfl

/-- Where one map is inserted into another, it counts where it has the key. -/
theorem get?_insertAll_entries (map : OrderedMap κ α) {more : OrderedMap κ α}
    (distinct : more.keys.Nodup) (key : κ) :
    (map.insertAll more.entries).get? key = (more.get? key).or (map.get? key) := by
  rw [get?_insertAll, find?_key_reverse distinct]
  rfl

theorem insertAll_ofList {map : OrderedMap κ α} (distinct : map.keys.Nodup)
    (pairs : List (κ × α)) :
    map.insertAll (ofList pairs).entries = map.insertAll pairs := by
  -- the list may name a key again and again, so only the two views can be compared
  refine ext_get? (nodup_keys_insertAll distinct _) ?_ fun key => ?_
  · have once : ((ofList pairs).entries.map (·.1)).eraseDups = (pairs.map (·.1)).eraseDups := by
      change (ofList pairs).keys.eraseDups = _
      rw [keys_ofList, eraseDups_of_nodup (nodup_eraseDups _)]
    rw [keys_insertAll, keys_insertAll, once]
  · rw [get?_insertAll_entries map (nodup_keys_ofList pairs), get?_ofList, get?_insertAll]

end

end Pinout.OrderedMap
