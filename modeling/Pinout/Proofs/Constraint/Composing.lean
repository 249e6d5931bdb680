import Mathlib.Data.List.Forall2
import Pinout.Proofs.Constraint.Rewriting

/-! # Pins in place of pins

Rewriting a file replaces characters between two quotation marks and nothing else, so the file keeps
its lines, and a line that is rewritten again has its pin where it was. Two maps that are applied
one after the other are therefore one map, as long as the pins of the first one are tokens.
-/

namespace Pinout.Constraint

open Text

/-- What is found on a line stands between two quotation marks. -/
theorem enclosed_of_locate? {cs : List Char} {located : Located} (h : locate? cs = some located) :
    ∃ front rest, located.before = front ++ ['"'] ∧ located.after = '"' :: rest ∧
      cs = located.before ++ located.pin ++ located.after := by
  obtain ⟨before, pin, after⟩ := located
  obtain ⟨rest, rfl, -, rfl, found⟩ := locate?_eq_some_iff.1 h
  obtain ⟨front, whole⟩ := pinTail?_quoted found
  have same : front ++ ['"'] ++ (pin ++ '"' :: rest) = before ++ (pin ++ '"' :: rest) := by
    simpa using whole
  exact ⟨front, rest, (List.append_cancel_right same).symm, rfl, (List.append_assoc ..).symm⟩

theorem transformLine_of_locate? {line : String} {located : Located}
    (h : locate? line.toList = some located) (map : PinMap) :
    transformLine map line =
      .ofList (located.before ++ (map.image (.ofList located.pin)).toList ++ located.after) := by
  cases there : map[String.ofList located.pin]? with
  | some pin => simp [transformLine, h, there, PinMap.image]
  | none =>
    obtain ⟨_, _, -, -, whole⟩ := enclosed_of_locate? h
    simp [transformLine, h, there, PinMap.image, ← whole]

/-- A pin that is replaced by itself is one that is kept. -/
theorem transformLine_eq_self {map : PinMap} {line : String}
    (same : ∀ pin, locPin? line = some pin → map.image pin = pin) :
    transformLine map line = line := by
  cases found : locate? line.toList with
  | none => simp [transformLine, found]
  | some located =>
    obtain ⟨_, _, -, -, whole⟩ := enclosed_of_locate? found
    rw [transformLine_of_locate? found, same _ (by rw [locPin?, found, Option.map_some]),
      String.toList_ofList, ← whole, String.ofList_toList]

/-- A line is kept if it has no pin or one that the map does not know. Otherwise the characters
between the quotation marks around its pin are replaced, and no other ones. -/
inductive Rewritten (map : PinMap) (line : String) : String → Prop
  | kept (unknown : ∀ pin, locPin? line = some pin → pin ∉ map) : Rewritten map line line
  | replaced {front pin rest : List Char} {pin' : String}
    (located : locate? line.toList = some ⟨front ++ ['"'], pin, '"' :: rest⟩)
    (split : line.toList = front ++ ['"'] ++ pin ++ '"' :: rest)
    (known : map[String.ofList pin]? = some pin') :
    Rewritten map line (.ofList (front ++ ['"'] ++ pin'.toList ++ '"' :: rest))

theorem rewritten_transformLine (map : PinMap) (line : String) :
    Rewritten map line (transformLine map line) := by
  cases found : (locPin? line).bind (map[·]?) with
  | none =>
    rw [transformLine_of_none found]
    refine .kept fun pin here known => ?_
    rw [here, Option.bind_some] at found
    rw [Std.TreeMap.mem_iff_isSome_getElem?, found] at known
    cases known
  | some pin' =>
    obtain ⟨⟨before, pin, after⟩, here, known, written⟩ := transformLine_of_some found
    obtain ⟨front, rest, rfl, rfl, split⟩ := enclosed_of_locate? here
    rw [← String.ofList_toList (s := transformLine map line), written]
    exact .replaced here split known

theorem transform_eq_join (map : PinMap) (text : String) :
    transform map text =
      String.join (((linesOf text).map (transformLine map)).map (· ++ "\n")) := by
  rw [transform, List.map_map]
  rfl

theorem transformLine_empty : transformLine {} = id :=
  funext fun _ => transformLine_eq_self fun _ _ => by simp [PinMap.image]

theorem oneLineValues_empty : PinMap.OneLineValues {} :=
  fun _ _ there => by simp at there

/-- A rewritten file has the lines of the original, in order, kept or with their pins replaced, and
a single line feed behind each. What terminators the original had shows once only: rewriting with
no pins to replace changes nothing any more the second time. -/
theorem transform_keeps_lines (map : PinMap) (values : map.OneLineValues) (text : String) :
    let written := linesOf (transform map text)
    List.Forall₂ (Rewritten map) (linesOf text) written ∧
      (∀ line ∈ written, OneLine line.toList) ∧
      transform map text = String.join (written.map (· ++ "\n")) ∧
      transform {} (transform {} text) = transform {} text := by
  intro written
  have lines : written = (linesOf text).map (transformLine map) := linesOf_transform values text
  refine ⟨?_, fun line => oneLine_of_mem_linesOf, ?_, ?_⟩
  · rw [lines, List.forall₂_map_right_iff]
    exact List.forall₂_same.2 fun line _ => rewritten_transformLine map line
  · rw [lines, transform_eq_join]
  · rw [transform_eq_join, linesOf_transform oneLineValues_empty, transform_eq_join,
      transformLine_empty, List.map_id, List.map_id]

/-- All kinds of terminators, and none at the end. One pin is replaced by a quotation mark, one by
nothing, one is kept, and some lines have none. -/
theorem transform_keeps_lines_mixed :
    let map : PinMap := .ofList [("P1", "\""), ("P2", "")]
    let text := "NET a LOC = \"P1\" \"P1\"\r\n\r# b\n\nNETcLOC=\"P9\" LOC=\"P2\"\rNET d LOC=\"P3\""
    map.OneLineValues ∧
      List.Forall₂ (Rewritten map) (linesOf text) (linesOf (transform map text)) ∧
      transform map text =
        "NET a LOC = \"\"\" \"P1\"\n\n# b\n\nNETcLOC=\"P9\" LOC=\"\"\nNET d LOC=\"P3\"\n" ∧
      transform {} (transform {} text) = transform {} text := by
  intro map text
  have values : map.OneLineValues := by decide +kernel
  obtain ⟨lines, -, -, again⟩ := transform_keeps_lines map values text
  exact ⟨values, lines, by decide +kernel, again⟩

namespace PinMap

def andThen (first second : PinMap) : PinMap :=
  second ∪ first.map fun _ pin => second.image pin

theorem getElem?_andThen (first second : PinMap) (pin : String) :
    (first.andThen second)[pin]? =
      if pin ∈ first ∨ pin ∈ second then some (second.image (first.image pin)) else none := by
  simp only [andThen, Std.TreeMap.getElem?_union, Std.TreeMap.getElem?_map, image,
    Std.TreeMap.mem_iff_isSome_getElem?]
  cases here : first[pin]? with
  | some pin' => simp
  | none => cases there : second[pin]? <;> simp [there]

theorem image_andThen (first second : PinMap) (pin : String) :
    (first.andThen second).image pin = second.image (first.image pin) := by
  rw [image, getElem?_andThen]
  split
  · rfl
  · next unknown =>
    simp only [not_or, Std.TreeMap.mem_iff_isSome_getElem?, Option.not_isSome_iff_eq_none]
      at unknown
    simp [image, unknown]

end PinMap

/-- The pin that the first map writes is found where the old one stood, so a line is rewritten by
two maps as by one. -/
theorem transformLine_andThen {first : PinMap} (tokens : first.Tokens) (second : PinMap)
    (line : String) :
    transformLine (first.andThen second) line =
      transformLine second (transformLine first line) := by
  cases found : locate? line.toList with
  | none => simp [transformLine, found]
  | some located =>
    rw [transformLine_of_locate? found (first.andThen second), PinMap.image_andThen]
    cases there : first[String.ofList located.pin]? with
    | none =>
      have same : transformLine first line = line :=
        transformLine_of_none (by simp [locPin?, found, there])
      rw [same, transformLine_of_locate? found]
      simp [PinMap.image, there]
    | some pin =>
      obtain ⟨old, new⟩ := tokens _ _ there
      rw [String.toList_ofList] at old
      have image : first.image (.ofList located.pin) = pin := by
        rw [PinMap.image, there, Option.getD_some]
      have moved := locate?_relocate found old new
      rw [transformLine_of_locate? found first, image]
      rw [← String.toList_ofList (l := _ ++ _ ++ _)] at moved
      rw [transformLine_of_locate? moved second]
      simp

theorem transform_andThen {first : PinMap} (tokens : first.Tokens) (second : PinMap)
    (text : String) :
    transform (first.andThen second) text = transform second (transform first text) := by
  have lines : (linesOf text).map (transformLine (first.andThen second)) =
      (linesOf (transform first text)).map (transformLine second) := by
    rw [linesOf_transform tokens.oneLineValues, List.map_map]
    exact List.map_congr_left fun line _ => transformLine_andThen tokens second line
  rw [transform_eq_join, lines, ← transform_eq_join]

/-- Rewriting a file twice is rewriting it once, with every pin that either map knows sent through
both of them. The pins that the second map writes may be any texts. -/
theorem transform_composes (first second : PinMap) (tokens : first.Tokens) (text : String) :
    (∀ pin, (first.andThen second)[pin]? =
        if pin ∈ first ∨ pin ∈ second then some (second.image (first.image pin)) else none) ∧
      transform second (transform first text) = transform (first.andThen second) text :=
  ⟨first.getElem?_andThen second, (transform_andThen tokens second text).symm⟩

/-- The first map leads to a pin that the second one knows, to one that it does not know, and past
one that it does; the second map writes a quotation mark and a line break. -/
theorem transform_composes_chained :
    let first : PinMap := .ofList [("P1", "P2"), ("P3", "Q")]
    let second : PinMap := .ofList [("P2", "a\"\n"), ("P1", "b")]
    let text := "NETcLOC=\"P9\" LOC=\"P1\"\rNET LOC LOC = \"P2\";\r\nNET x LOC=\"P3\" LOC=P1"
    first.Tokens ∧
      transform second (transform first text) = transform (first.andThen second) text ∧
      transform (first.andThen second) text =
        "NETcLOC=\"P9\" LOC=\"a\"\n\"\nNET LOC LOC = \"a\"\n\";\nNET x LOC=\"Q\" LOC=P1\n" := by
  intro first second text
  have tokens : first.Tokens := by decide +kernel
  refine ⟨tokens, (transform_composes first second tokens text).2, ?_⟩
  decide +kernel

end Pinout.Constraint
