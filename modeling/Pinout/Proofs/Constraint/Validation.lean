import Mathlib.Data.List.Basic
import Pinout.Proofs.Catalog.Pairing
import Pinout.Proofs.Constraint.Rewriting

/-! # Checking a rewritten file

A file that was rewritten for a board is wrong where the original has a pin that is neither paired
with one of that board nor happens to be one, and nowhere else.
-/

namespace Pinout.Constraint

open Text

def report? (p : String → Prop) [DecidablePred p] (number : Nat) (line : String) :
    Option InvalidPin :=
  (locPin? line).bind fun pin => if p pin then some ⟨number, pin, line⟩ else none

/-- The lines of a file that have a pin as described. Lines count from one. -/
def reports (p : String → Prop) [DecidablePred p] (text : String) : List InvalidPin :=
  (linesOf text).zipIdx.filterMap fun entry => report? p (entry.2 + 1) entry.1

theorem validate_eq_reports (catalog : Catalog) (board : BoardId) (text : String) :
    validate catalog board text = reports (· ∉ catalog.physicalNames board) text := by
  unfold validate invalidPins reports
  apply List.filterMap_congr
  rintro ⟨line, index⟩ -
  simp only [report?, Std.TreeSet.contains_ofList, List.contains_iff_mem]
  cases locPin? line with
  | none => rfl
  | some pin => exact (ite_not ..).symm

theorem report?_eq_none_iff {p : String → Prop} [DecidablePred p] {number : Nat} {line : String} :
    report? p number line = none ↔ ∀ pin, locPin? line = some pin → ¬ p pin := by
  cases h : locPin? line with
  | none => simp [report?, h]
  | some pin => simp [report?, h]

theorem reports_eq_nil_iff {p : String → Prop} [DecidablePred p] {text : String} :
    reports p text = [] ↔ ∀ line ∈ linesOf text, ∀ pin, locPin? line = some pin → ¬ p pin := by
  simp only [reports, List.filterMap_eq_nil_iff, report?_eq_none_iff]
  constructor
  · intro h line member
    obtain ⟨index, here⟩ := List.mem_iff_getElem?.1 member
    exact h (line, index) (List.mk_mem_zipIdx_iff_getElem?.2 here)
  · intro h entry member
    exact h entry.1 (List.fst_mem_of_mem_zipIdx member)

/-- The lines that are reported have not been rewritten, as all pins of the map are in order. -/
theorem report?_transformLine {map : PinMap} {p : String → Prop} [DecidablePred p]
    (tokens : map.Tokens) (inOrder : ∀ pin pin' : String, map[pin]? = some pin' → ¬ p pin')
    (number : Nat) (line : String) :
    report? p number (transformLine map line) =
      report? (fun pin => pin ∉ map ∧ p pin) number line := by
  simp only [report?, locPin?_transformLine tokens]
  cases found : locPin? line with
  | none => rfl
  | some pin =>
    cases there : map[pin]? with
    | none =>
      -- the line is reported as it stands in the original
      have same : transformLine map line = line :=
        transformLine_of_none (by simp [found, there])
      have absent : pin ∉ map := by simp [Std.TreeMap.mem_iff_isSome_getElem?, there]
      have image : map.image pin = pin := by rw [PinMap.image, there, Option.getD_none]
      simp [image, same, absent]
    | some pin' =>
      -- neither line is reported
      have member : pin ∈ map := by simp [Std.TreeMap.mem_iff_isSome_getElem?, there]
      have image : map.image pin = pin' := by rw [PinMap.image, there, Option.getD_some]
      simp [image, inOrder pin pin' there, member]

theorem reports_transform {map : PinMap} {p : String → Prop} [DecidablePred p]
    (tokens : map.Tokens) (inOrder : ∀ pin pin' : String, map[pin]? = some pin' → ¬ p pin')
    (text : String) :
    reports p (transform map text) = reports (fun pin => pin ∉ map ∧ p pin) text := by
  unfold reports
  rw [linesOf_transform tokens.oneLineValues, List.zipIdx_map, List.filterMap_map]
  apply List.filterMap_congr
  intro entry _
  simp only [Function.comp_apply, Prod.map_fst, Prod.map_snd, id_eq]
  exact report?_transformLine tokens inOrder (entry.2 + 1) entry.1

/-- The lines with a pin that has no counterpart on the other board, and is not one of its pins
either, are those that are wrong after rewriting. In particular, nothing is wrong if nothing was and
all pins have counterparts. -/
theorem validate_transform (catalog : Catalog) (source target : BoardId) (moves : Moves)
    (sources : ∀ pin ∈ catalog.physicalNames source, IsToken pin.toList)
    (targets : ∀ pin ∈ catalog.physicalNames target, IsToken pin.toList) (text : String) :
    let map := catalog.pinMap source target moves
    validate catalog target (transform map text) =
        reports (fun pin => pin ∉ map ∧ pin ∉ catalog.physicalNames target) text ∧
      (validate catalog source text = [] → (∀ pin ∈ catalog.physicalNames source, pin ∈ map) →
        validate catalog target (transform map text) = []) := by
  intro map
  have pairs {pin pin' : String} (there : map[pin]? = some pin') :
      pin ∈ catalog.physicalNames source ∧ pin' ∈ catalog.physicalNames target :=
    Catalog.mem_physicalNames_of_mem_pinPairs (Catalog.mem_pinPairs_of_getElem? there)
  have lines : validate catalog target (transform map text) =
      reports (fun pin => pin ∉ map ∧ pin ∉ catalog.physicalNames target) text := by
    rw [validate_eq_reports]
    refine reports_transform (fun pin pin' there => ?_) (fun pin pin' there => ?_) text
    · exact ⟨sources pin (pairs there).1, targets pin' (pairs there).2⟩
    · exact not_not_intro (pairs there).2
  refine ⟨lines, fun valid covered => ?_⟩
  rw [lines, reports_eq_nil_iff]
  rw [validate_eq_reports, reports_eq_nil_iff] at valid
  intro line member pin found
  have known : pin ∈ catalog.physicalNames source :=
    Decidable.not_not.1 (valid line member pin found)
  exact fun wrong => wrong.1 (covered pin known)

/-- Two boards with a bus of one name, where a chip pin of both is at different positions. -/
def shifted : Catalog :=
  let bus (pins : List String) : Bus :=
    { name := "A", slots := pins.map fun pin => ⟨{ name := some pin }, []⟩ }
  { entries := #[{ board := { names := ["old"], buses := [bus ["P1", "P2"]] } },
      { board := { names := ["new"], buses := [bus ["P2", "P3"]] } }] }

theorem validate_transform_shifted :
    (∀ pin ∈ shifted.physicalNames 0, IsToken pin.toList) ∧
      (∀ pin ∈ shifted.physicalNames 1, IsToken pin.toList) ∧
      validate shifted 1 (transform (shifted.pinMap 0 1 {})
          "NET a LOC = \"P1\";\r\nNET b LOC=\"X9\"\rNETcLOC=\"P9\" LOC=\"P2\"\n") =
        [⟨2, "X9", "NET b LOC=\"X9\""⟩] ∧
      validate shifted 0 "NETcLOC=\"P9\" LOC=\"P2\"" = [] ∧
      (∀ pin ∈ shifted.physicalNames 0, pin ∈ shifted.pinMap 0 1 {}) ∧
      validate shifted 1 (transform (shifted.pinMap 0 1 {}) "NETcLOC=\"P9\" LOC=\"P2\"") = [] := by
  have sources : ∀ pin ∈ shifted.physicalNames 0, IsToken pin.toList := by
    have names : shifted.physicalNames 0 = ["P1", "P2"] := rfl
    rw [names]
    decide
  have targets : ∀ pin ∈ shifted.physicalNames 1, IsToken pin.toList := by
    have names : shifted.physicalNames 1 = ["P2", "P3"] := rfl
    rw [names]
    decide
  have valid : validate shifted 0 "NETcLOC=\"P9\" LOC=\"P2\"" = [] := by decide +kernel
  have covered : ∀ pin ∈ shifted.physicalNames 0, pin ∈ shifted.pinMap 0 1 {} := by decide +kernel
  refine ⟨sources, targets, ?_, valid, covered, ?_⟩
  · rw [(validate_transform shifted 0 1 {} sources targets _).1]
    decide +kernel
  · exact (validate_transform shifted 0 1 {} sources targets _).2 valid covered

end Pinout.Constraint
