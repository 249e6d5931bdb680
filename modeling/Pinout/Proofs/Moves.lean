import Pinout.Moves
import Pinout.Proofs.BusRange
import Pinout.Proofs.Last
import Pinout.Proofs.Text.Lower

/-! # Moves of whole buses

`A->B` moves the sixteen pins of `A` that have a number, each to the pin of `B` with the same
number, whatever spelling they are looked up in. A name without a number behind it is not moved.
-/

namespace Pinout.Moves

/-- A text that is read as the name of a bus on either side of an arrow. -/
structure NamesSide (text : String) : Prop extends BusRange.NamesBus text where
  noComma : ',' ∉ text.toList
  noArrow : ¬ ['-', '>'] <:+: text.toList

instance (text : String) : Decidable (NamesSide text) :=
  decidable_of_iff (BusRange.NamesBus text ∧ ',' ∉ text.toList ∧ ¬ ['-', '>'] <:+: text.toList)
    ⟨fun ⟨names, noComma, noArrow⟩ => { names with noComma, noArrow },
      fun side => ⟨side.toNamesBus, side.noComma, side.noArrow⟩⟩

def busDirective (source target : String) : String :=
  source ++ "->" ++ target

theorem toList_busDirective (source target : String) :
    (busDirective source target).toList = source.toList ++ '-' :: '>' :: target.toList := by
  rw [busDirective, String.toList_append, String.toList_append, List.append_assoc]
  rfl

section

variable {source target : String} (side : NamesSide source) (side' : NamesSide target)
include side side'

theorem commaItems_busDirective :
    Text.commaItems (busDirective source target) = [busDirective source target] := by
  have trimmed : Text.trim (busDirective source target).toList =
      (busDirective source target).toList := by
    rw [toList_busDirective, Text.trim_eq_self_iff]
    refine ⟨Text.trimStart_append side.toList_ne_nil side.trim_toList _, ?_⟩
    rw [List.append_cons, List.append_cons]
    exact Text.trimEnd_append side'.toList_ne_nil side'.trim_toList _
  have noComma : ',' ∉ (busDirective source target).toList := by
    simp [toList_busDirective, side.noComma, side'.noComma]
  have nonempty : (busDirective source target).toList ≠ [] := by
    simp [toList_busDirective]
  rw [Text.commaItems, Text.items_of_notMem noComma trimmed nonempty, List.map_singleton,
    String.ofList_toList]

theorem arrowOf_busDirective : Text.arrowOf (busDirective source target) = (source, target) := by
  rw [Text.arrowOf, Text.arrow, toList_busDirective, Text.splitArrow?_append side.noArrow]
  simp only [side.trim_toList, side'.trim_toList, String.ofList_toList]

theorem addDirective_bus :
    addDirective {} (busDirective source target) =
      (addPins {} ((List.range 16).map fun k => (source ++ toString k, target ++ toString k)),
        .ok ()) := by
  have pins : pinsOf (busDirective source target) =
      .ok ((List.range 16).map fun k => (source ++ toString k, target ++ toString k)) := by
    rw [pinsOf, arrowOf_busDirective side side']
    simp only [side.parse, side'.parse, bind, Except.bind, BusRange.pairs_whole]
    rfl
  rw [addDirective, commaItems_busDirective side side', addCommands, pins]
  rfl

theorem find?_bus (name : String) :
    (addDirective {} (busDirective source target)).1.find? name =
      ((List.range 16).reverse.find? fun k => sameName (source ++ toString k) name).map
        (target ++ toString ·) := by
  rw [addDirective_bus side side', addPins, NameIndex.find?_insertAll, NameIndex.find?_empty,
    Option.or_none, ← List.map_reverse, List.find?_map, Option.map_map]
  rfl

/-- The pin of a number is moved to that of the same number. -/
theorem find?_bus_of_lt {k : Nat} (small : k < 16) {name : String}
    (same : sameName (source ++ toString k) name) :
    (addDirective {} (busDirective source target)).1.find? name = some (target ++ toString k) := by
  have numbered (k' : Nat) : sameName (source ++ toString k') name = (k' == k) := by
    rw [Bool.eq_iff_iff, beq_iff_eq, ← sameName_append_toString_iff source, sameName_iff,
      sameName_iff, sameName_iff.1 same]
  have found : (List.range 16).reverse.find? (· == k) = some k :=
    find?_reverse_of_only (List.mem_range.2 small) (beq_self_eq_true k) fun _ _ => beq_iff_eq.1
  rw [find?_bus side side', funext numbered, found, Option.map_some]

/-- A name that is no pin with a number is not moved. -/
theorem find?_bus_of_forall {name : String}
    (others : ∀ k : Nat, ¬ sameName (source ++ toString k) name) :
    (addDirective {} (busDirective source target)).1.find? name = none := by
  rw [find?_bus side side', Option.map_eq_none_iff, List.find?_eq_none]
  exact fun k _ => others k

end

end Pinout.Moves
