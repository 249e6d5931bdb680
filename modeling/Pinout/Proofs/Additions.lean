import Pinout.Additions
import Pinout.Proofs.OrderedMap

/-! # Collected assignments

Collecting a list of assignments leaves every key where it is first mentioned and gives it the value
of its last mention.
-/

namespace Pinout.Additions

open OrderedMap

def lastValue (assignments : List Assignment) (key : String) : Option String :=
  (assignments.reverse.find? (·.1 == key)).bind (·.2)

def lastWins (assignments : List Assignment) : List Assignment :=
  (assignments.map (·.1)).eraseDups.map fun key => (key, lastValue assignments key)

theorem nodup_keys_collect (assignments : List Assignment) : (collect assignments).keys.Nodup :=
  nodup_keys_ofList assignments

theorem get?_collect_of_mem {assignments : List Assignment} {key : String}
    (member : key ∈ (collect assignments).keys) :
    (collect assignments).get? key = some (lastValue assignments key) := by
  have held : (collect assignments).get? key ≠ none := fun missing =>
    get?_eq_none_iff.1 missing member
  rw [collect, get?_ofList] at held ⊢
  obtain ⟨last, found⟩ := Option.ne_none_iff_exists'.1 (mt Option.map_eq_none_iff.2 held)
  rw [lastValue, found]
  rfl

theorem entries_collect (assignments : List Assignment) :
    (collect assignments).entries = lastWins assignments := by
  rw [entries_eq_map (nodup_keys_collect assignments) fun _ => get?_collect_of_mem, collect,
    keys_ofList]
  rfl

theorem lastWins_of_nodup {assignments : List Assignment}
    (distinct : (assignments.map (·.1)).Nodup) : lastWins assignments = assignments := by
  rw [← entries_collect, collect, ofList_of_nodup distinct]

end Pinout.Additions
