import Pinout.Proofs.Additions

/-! # Additions over additions

The additions of a pin override those of its bus. Overriding with collected additions is collecting
more assignments behind the ones before, so its laws are those of lists that are put together; and
a key without a value overrides one that has a value.
-/

namespace Pinout.Additions

open OrderedMap

/-- What is left of some additions overridden with others: the old keys in their order and the new
ones behind them, each with what the overriding additions hold under it, and with what the base
holds only where they do not have the key. -/
structure Overrides (base overriding merged : Additions) : Prop where
  distinct : merged.keys.Nodup
  keys : merged.keys = base.keys ++ overriding.keys.filter (· ∉ base.keys)
  values (key : String) :
    merged.get? key = if key ∈ overriding.keys then overriding.get? key else base.get? key

/-- Nothing else can be left. -/
theorem Overrides.unique {base overriding merged merged' : Additions}
    (overrides : Overrides base overriding merged)
    (overrides' : Overrides base overriding merged') : merged = merged' :=
  ext_get? overrides.distinct (overrides.keys.trans overrides'.keys.symm) fun key =>
    (overrides.values key).trans (overrides'.values key).symm

variable {base overriding : Additions}

theorem overrides_mergedWith (distinct : base.keys.Nodup) (distinct' : overriding.keys.Nodup) :
    Overrides base overriding (base.mergedWith overriding) where
  distinct := nodup_keys_insertAll distinct overriding.entries
  keys := by
    rw [mergedWith, keys_insertAll]
    change _ ++ overriding.keys.eraseDups.filter _ = _
    rw [eraseDups_of_nodup distinct']
  values key := by
    rw [mergedWith, get?_insertAll_entries base distinct']
    split
    · next known =>
      have found : (overriding.get? key).isSome :=
        Option.isSome_iff_ne_none.2 fun missing => get?_eq_none_iff.1 missing known
      rw [Option.or_of_isSome found]
    · next unknown => rw [get?_eq_none_iff.2 unknown, Option.none_or]

theorem overrides_self (distinct : base.keys.Nodup) : Overrides base base base where
  distinct := distinct
  keys := by simp
  values key := (ite_self _).symm

theorem collect_append (assignments more : List Assignment) :
    collect (assignments ++ more) = (collect assignments).mergedWith (collect more) := by
  calc collect (assignments ++ more)
    _ = (collect assignments).insertAll more := insertAll_append _ assignments more
    _ = (collect assignments).mergedWith (collect more) :=
      (insertAll_ofList (nodup_keys_collect assignments) more).symm

theorem mergedWith_collect_assoc (first second third : List Assignment) :
    ((collect first).mergedWith (collect second)).mergedWith (collect third) =
      (collect first).mergedWith ((collect second).mergedWith (collect third)) := by
  -- both sides collect the three lists one behind the other
  simp only [← collect_append, List.append_assoc]

theorem mergedWith_self (distinct : base.keys.Nodup) : base.mergedWith base = base :=
  (overrides_mergedWith distinct distinct).unique (overrides_self distinct)

/-- Collected additions are a monoid under overriding, where everything is its own square, and
collecting takes lists that are put together to additions that are overridden. -/
theorem mergedWith_monoid (first second third : List Assignment) :
    let a := collect first
    let b := collect second
    let c := collect third
    (a.entries = lastWins first ∧ a.keys.Nodup) ∧
      (∀ merged, Overrides a b merged ↔ merged = a.mergedWith b) ∧
      (a.mergedWith b).mergedWith c = a.mergedWith (b.mergedWith c) ∧
      (mergedWith {} a = a ∧ a.mergedWith {} = a) ∧
      a.mergedWith a = a ∧
      collect (first ++ second) = a.mergedWith b := by
  intro a b c
  have distinct : a.keys.Nodup := nodup_keys_collect first
  have overrides : Overrides a b (a.mergedWith b) :=
    overrides_mergedWith distinct (nodup_keys_collect second)
  refine ⟨⟨entries_collect first, distinct⟩, fun merged => ?_, ?_, ⟨?_, rfl⟩, ?_, ?_⟩
  · exact ⟨fun overrides' => overrides'.unique overrides, fun same => same ▸ overrides⟩
  · exact mergedWith_collect_assoc first second third
  · exact (collect_append [] first).symm
  · exact mergedWith_self distinct
  · exact collect_append first second

/-- A key without a value stands in the place of the value that it overrides. -/
example :
    ((collect [("IOSTANDARD", some "LVCMOS33"), ("PULLUP", some "1")]).mergedWith
        (collect [("DRIVE", some "8"), ("PULLUP", none)])).entries =
      [("IOSTANDARD", some "LVCMOS33"), ("PULLUP", none), ("DRIVE", some "8")] := by
  decide

end Pinout.Additions
