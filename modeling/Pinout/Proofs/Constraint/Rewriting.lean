import Pinout.Constraint.File
import Pinout.Proofs.Constraint.Location

/-! # Rewritten files

A file is rewritten line by line. Where the pins of the map are tokens, every line stays one line
and its pin stays where it was, so a rewritten file has the pins of the original, replaced.
-/

namespace Pinout.Constraint

open Text

theorem transformLine_of_none {map : PinMap} {line : String}
    (h : (locPin? line).bind (map[·]?) = none) : transformLine map line = line := by
  cases found : locate? line.toList with
  | none => simp [transformLine, found]
  | some located =>
    have absent : map[String.ofList located.pin]? = none := by simpa [locPin?, found] using h
    simp [transformLine, found, absent]

/-- A pin that is replaced stands between the same characters before and after. -/
theorem transformLine_of_some {map : PinMap} {line pin : String}
    (h : (locPin? line).bind (map[·]?) = some pin) :
    ∃ located, locate? line.toList = some located ∧ map[String.ofList located.pin]? = some pin ∧
      (transformLine map line).toList = located.before ++ pin.toList ++ located.after := by
  obtain ⟨old, here, there⟩ := Option.bind_eq_some_iff.1 h
  obtain ⟨located, found, rfl⟩ := Option.map_eq_some_iff.1 here
  refine ⟨located, found, there, ?_⟩
  simp [transformLine, found, there]

theorem oneLine_of_locate? {cs : List Char} {located : Located} (h : locate? cs = some located)
    (oneLine : OneLine cs) : OneLine located.before ∧ OneLine located.after := by
  obtain ⟨before, pin, after⟩ := located
  obtain ⟨_, _, _, rfl, _⟩ := locate?_eq_some_iff.1 h
  rw [oneLine_append, oneLine_append] at oneLine
  exact ⟨oneLine.1, oneLine.2.2⟩

theorem IsToken.oneLine {pin : List Char} (token : IsToken pin) : OneLine pin := by
  intro c member
  have notBlank := token.noBlank c member
  rw [Bool.eq_false_iff] at notBlank ⊢
  exact fun isBreak => notBlank (isBlank_of_isBreak isBreak)

namespace PinMap

def Tokens (map : PinMap) : Prop :=
  ∀ pin pin' : String, map[pin]? = some pin' → IsToken pin.toList ∧ IsToken pin'.toList

def OneLineValues (map : PinMap) : Prop :=
  ∀ pin pin' : String, map[pin]? = some pin' → OneLine pin'.toList

theorem Tokens.oneLineValues {map : PinMap} (tokens : map.Tokens) : map.OneLineValues :=
  fun pin pin' there => (tokens pin pin' there).2.oneLine

/-- What holds of all pins of a map can be read off its list. -/
theorem forall_getElem?_iff {map : PinMap} {p : String → String → Prop} :
    (∀ pin pin' : String, map[pin]? = some pin' → p pin pin') ↔
      ∀ pair ∈ map.toList, p pair.1 pair.2 := by
  simp only [Prod.forall, Std.TreeMap.mem_toList_iff_getElem?_eq_some]

instance (map : PinMap) : Decidable map.Tokens :=
  decidable_of_iff' _ forall_getElem?_iff

instance (map : PinMap) : Decidable map.OneLineValues :=
  decidable_of_iff' _ forall_getElem?_iff

def image (map : PinMap) (pin : String) : String :=
  map[pin]?.getD pin

end PinMap

theorem oneLine_transformLine {map : PinMap} (values : map.OneLineValues) {line : String}
    (oneLine : OneLine line.toList) : OneLine (transformLine map line).toList := by
  cases h : (locPin? line).bind (map[·]?) with
  | none => rwa [transformLine_of_none h]
  | some pin =>
    obtain ⟨located, found, there, written⟩ := transformLine_of_some h
    obtain ⟨before, after⟩ := oneLine_of_locate? found oneLine
    rw [written]
    exact oneLine_append.2 ⟨oneLine_append.2 ⟨before, values _ _ there⟩, after⟩

theorem locPin?_transformLine {map : PinMap} (tokens : map.Tokens) (line : String) :
    locPin? (transformLine map line) = (locPin? line).map map.image := by
  cases h : (locPin? line).bind (map[·]?) with
  | none =>
    rw [transformLine_of_none h]
    cases found : locPin? line with
    | none => rfl
    | some pin =>
      have absent : map[pin]? = none := by simpa [found] using h
      simp [PinMap.image, absent]
  | some pin =>
    obtain ⟨located, found, there, written⟩ := transformLine_of_some h
    -- the pin stands in the rewritten line where the old one stood
    obtain ⟨old, new⟩ := tokens _ _ there
    rw [String.toList_ofList] at old
    have moved := locate?_relocate found old new
    rw [locPin?, written, moved, locPin?, found]
    simp [PinMap.image, there]

theorem linesOf_transform {map : PinMap} (values : map.OneLineValues) (text : String) :
    linesOf (transform map text) = (linesOf text).map (transformLine map) := by
  have oneLine : ∀ line ∈ (linesOf text).map (transformLine map), OneLine line.toList := by
    intro line member
    obtain ⟨original, read, rfl⟩ := List.mem_map.1 member
    exact oneLine_transformLine values (oneLine_of_mem_linesOf read)
  rw [← linesOf_join oneLine, transform, List.map_map]
  rfl

end Pinout.Constraint
