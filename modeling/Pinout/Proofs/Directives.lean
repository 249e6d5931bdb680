import Pinout.Moves
import Pinout.Proofs.BusRange
import Pinout.Proofs.BusRange.Reading
import Pinout.Proofs.Fallible
import Pinout.Proofs.First
import Pinout.Proofs.Last
import Pinout.Proofs.Text.Pieces

/-! # Moves after directives

A directive is cut at its commas, a piece of it at its first arrow, and both sides say ranges whose
pins are paired position by position. Of several pairs with one source, in any spelling, the last
counts. A directive counts up to the first piece that says no pair of ranges, and fails if it has
one; what was added before stays.
-/

namespace Pinout

/-- As many values are kept as there are distinct names. -/
theorem NameIndex.size_insertAll {α : Type} (pairs : List (String × α)) :
    (({} : NameIndex α).insertAll pairs).size =
      (pairs.map fun pair => Text.lower pair.1).eraseDups.length := by
  induction pairs using List.reverseRecOn with
  | nil => rfl
  | append_singleton pairs pair ih =>
    have step : ({} : NameIndex α).insertAll (pairs ++ [pair]) =
        (({} : NameIndex α).insertAll pairs).insert pair.1 pair.2 := by
      simp [insertAll]
    have known : (({} : NameIndex α).insertAll pairs).byLower.contains (Text.lower pair.1) = true ↔
        Text.lower pair.1 ∈ (pairs.map fun pair => Text.lower pair.1).eraseDups := by
      have found := find?_insertAll ({} : NameIndex α) pairs pair.1
      rw [find?_empty, Option.or_none] at found
      rw [Std.TreeMap.contains_eq_isSome_getElem?, ← find?, found, List.mem_eraseDups]
      simp [sameName]
    rw [step, size, insert, Std.TreeMap.size_insert, ← size, ih, List.map_append,
      List.map_singleton, eraseDups_concat]
    simp only [known]
    split
    · rfl
    · rw [List.length_append, List.length_singleton]

namespace Moves

open BusRange (Reads)
open Text (Pieces pieces_iff trim)

/-! ## What a directive says -/

/-- The texts of the two sides of a command: those around its first arrow, or all of it twice. -/
inductive Sides : List Char → List Char → List Char → Prop
  | arrow {source target : List Char} (first : ¬ ['-', '>'] <:+: source) :
      Sides (source ++ '-' :: '>' :: target) (trim source) (trim target)
  | alone {piece : List Char} (noArrow : ¬ ['-', '>'] <:+: piece) :
      Sides piece (trim piece) (trim piece)

/-- The ranges that a piece of a directive names, or what is wrong with the first that is none. -/
inductive CommandTells (piece : List Char) :
    Except BusRangeError (BusRange × BusRange) → Prop
  | ranges {source target : List Char} {a b : BusRange} (sides : Sides piece source target)
      (reads : Reads source (.ok a)) (reads' : Reads target (.ok b)) : CommandTells piece (.ok (a, b))
  | badSource {source target : List Char} {error : BusRangeError}
      (sides : Sides piece source target) (bad : Reads source (.error error)) :
      CommandTells piece (.error error)
  | badTarget {source target : List Char} {a : BusRange} {error : BusRangeError}
      (sides : Sides piece source target) (reads : Reads source (.ok a))
      (bad : Reads target (.error error)) : CommandTells piece (.error error)

/-- The ranges that count, and how it ends. Blank pieces say nothing, and the first malformed one is
the last that is looked at. -/
inductive PiecesTell : List (List Char) → List (BusRange × BusRange) →
    Except BusRangeError Unit → Prop
  | nil : PiecesTell [] [] (.ok ())
  | blank {piece : List Char} {pieces : List (List Char)} {ranges : List (BusRange × BusRange)}
      {outcome : Except BusRangeError Unit} (blank : trim piece = [])
      (others : PiecesTell pieces ranges outcome) : PiecesTell (piece :: pieces) ranges outcome
  | ranges {piece : List Char} {pieces : List (List Char)} {first : BusRange × BusRange}
      {ranges : List (BusRange × BusRange)} {outcome : Except BusRangeError Unit}
      (visible : trim piece ≠ []) (here : CommandTells piece (.ok first))
      (others : PiecesTell pieces ranges outcome) :
      PiecesTell (piece :: pieces) (first :: ranges) outcome
  | malformed {piece : List Char} {pieces : List (List Char)} {error : BusRangeError}
      (visible : trim piece ≠ []) (here : CommandTells piece (.error error)) :
      PiecesTell (piece :: pieces) [] (.error error)

/-- The ranges that count in a directive, and how adding it ends. -/
def Tells (directive : String) (ranges : List (BusRange × BusRange))
    (outcome : Except BusRangeError Unit) : Prop :=
  ∃ pieces, Pieces ',' pieces directive.toList ∧ PiecesTell pieces ranges outcome

def Counted (directive : String) (ranges : List (BusRange × BusRange)) : Prop :=
  ∃ outcome, Tells directive ranges outcome

theorem exists_sides (piece : List Char) : ∃ source target, Sides piece source target := by
  cases split : Text.splitArrow? piece with
  | none => exact ⟨_, _, .alone (Text.splitArrow?_eq_none_iff.1 split)⟩
  | some parts =>
    obtain ⟨rfl, first⟩ := Text.splitArrow?_eq_some_iff.1 split
    exact ⟨_, _, .arrow first⟩

def rangesOf (command : String) : Except BusRangeError (BusRange × BusRange) := do
  let (source, target) := Text.arrowOf command
  return (← BusRange.parse source, ← BusRange.parse target)

section

variable {piece source target : List Char}

theorem Sides.arrow_trim (sides : Sides piece source target) :
    Text.arrow (trim piece) = (source, target) := by
  cases sides with
  | @arrow left right first =>
    have first' : ¬ ['-', '>'] <:+: Text.trimStart left := fun arrow =>
      first (arrow.trans (List.dropWhile_suffix _).isInfix)
    rw [Text.arrow, Text.trim_append_arrow, Text.splitArrow?_append first']
    simp only [Text.trim_trimStart, Text.trim_trimEnd]
  | alone noArrow =>
    have noArrow' : ¬ ['-', '>'] <:+: trim piece := fun arrow =>
      noArrow (arrow.trans (Text.trim_isInfix piece))
    rw [Text.arrow, Text.splitArrow?_eq_none_iff.2 noArrow']
    simp only [Text.trim_trim]

theorem rangesOf_of_sides (sides : Sides piece source target) :
    rangesOf (.ofList (trim piece)) = do
      return (← BusRange.parse (.ofList source), ← BusRange.parse (.ofList target)) := by
  rw [rangesOf, Text.arrowOf, String.toList_ofList, sides.arrow_trim]

theorem Sides.reads_iff (sides : Sides piece source target) (result : Except BusRangeError BusRange) :
    (Reads source result ↔ BusRange.parse (.ofList source) = result) ∧
      (Reads target result ↔ BusRange.parse (.ofList target) = result) := by
  have side (cs : List Char) :
      Reads (trim cs) result ↔ BusRange.parse (.ofList (trim cs)) = result := by
    rw [← BusRange.reads_iff, String.toList_ofList, Text.trim_trim]
  cases sides with
  | arrow => exact ⟨side _, side _⟩
  | alone => exact ⟨side _, side _⟩

theorem commandTells_iff {result : Except BusRangeError (BusRange × BusRange)} :
    CommandTells piece result ↔ rangesOf (.ofList (trim piece)) = result := by
  constructor
  · rintro (⟨sides, reads, reads'⟩ | ⟨sides, bad⟩ | ⟨sides, reads, bad⟩)
    · rw [rangesOf_of_sides sides, (sides.reads_iff _).1.1 reads, (sides.reads_iff _).2.1 reads']
      rfl
    · rw [rangesOf_of_sides sides, (sides.reads_iff _).1.1 bad]
      rfl
    · rw [rangesOf_of_sides sides, (sides.reads_iff _).1.1 reads, (sides.reads_iff _).2.1 bad]
      rfl
  · rintro rfl
    obtain ⟨source, target, sides⟩ := exists_sides piece
    rw [rangesOf_of_sides sides]
    cases first : BusRange.parse (.ofList source) with
    | error error => exact .badSource sides ((sides.reads_iff _).1.2 first)
    | ok a =>
      cases second : BusRange.parse (.ofList target) with
      | error error =>
        exact .badTarget sides ((sides.reads_iff _).1.2 first) ((sides.reads_iff _).2.2 second)
      | ok b =>
        exact .ranges sides ((sides.reads_iff _).1.2 first) ((sides.reads_iff _).2.2 second)

end

theorem exists_piecesTell (pieces : List (List Char)) :
    ∃ ranges outcome, PiecesTell pieces ranges outcome := by
  induction pieces with
  | nil => exact ⟨[], .ok (), .nil⟩
  | cons piece pieces ih =>
    obtain ⟨ranges, outcome, others⟩ := ih
    by_cases blank : trim piece = []
    · exact ⟨ranges, outcome, .blank blank others⟩
    · cases here : rangesOf (.ofList (trim piece)) with
      | error error => exact ⟨[], .error error, .malformed blank (commandTells_iff.2 here)⟩
      | ok first =>
        exact ⟨first :: ranges, outcome, .ranges blank (commandTells_iff.2 here) others⟩

theorem PiecesTell.unique {pieces : List (List Char)} {ranges ranges' : List (BusRange × BusRange)}
    {outcome outcome' : Except BusRangeError Unit} (told : PiecesTell pieces ranges outcome)
    (told' : PiecesTell pieces ranges' outcome') : ranges = ranges' := by
  have same {piece : List Char} {result result' : Except BusRangeError (BusRange × BusRange)}
      (told : CommandTells piece result) (told' : CommandTells piece result') : result = result' :=
    (commandTells_iff.1 told).symm.trans (commandTells_iff.1 told')
  induction told generalizing ranges' with
  | nil =>
    cases told'
    rfl
  | blank blank _ ih =>
    cases told' with
    | blank _ others => exact ih others
    | ranges visible _ _ => exact absurd blank visible
    | malformed visible _ => exact absurd blank visible
  | ranges visible here _ ih =>
    cases told' with
    | blank blank _ => exact absurd blank visible
    | ranges _ here' others =>
      cases same here here'
      rw [ih others]
    | malformed _ here' => cases same here here'
  | malformed visible here =>
    cases told' with
    | blank blank _ => exact absurd blank visible
    | ranges _ here' _ => cases same here here'
    | malformed _ _ => rfl

theorem exists_tells (directive : String) : ∃ ranges outcome, Tells directive ranges outcome := by
  obtain ⟨ranges, outcome, told⟩ := exists_piecesTell (Text.splitAt ',' directive.toList)
  exact ⟨ranges, outcome, _, pieces_iff.2 rfl, told⟩

theorem Tells.unique {directive : String} {ranges ranges' : List (BusRange × BusRange)}
    {outcome outcome' : Except BusRangeError Unit} (told : Tells directive ranges outcome)
    (told' : Tells directive ranges' outcome') : ranges = ranges' := by
  obtain ⟨pieces, between, told⟩ := told
  obtain ⟨pieces', between', told'⟩ := told'
  cases (pieces_iff.1 between).symm.trans (pieces_iff.1 between')
  exact told.unique told'

structure Pairing where
  source : BusRange
  target : BusRange
  position : Nat
deriving Repr, DecidableEq

namespace Pairing

def name (pairing : Pairing) : String :=
  pairing.source.nameAt pairing.position

def destination (pairing : Pairing) : String :=
  pairing.target.nameAt pairing.position

end Pairing

def span (range : BusRange) : Nat :=
  (range.last.toInt - range.first.toInt).natAbs

/-- The pairings of two ranges, as far as both go. -/
def pairings (ranges : BusRange × BusRange) : List Pairing :=
  (List.range (min (span ranges.1) (span ranges.2) + 1)).map fun position =>
    ⟨ranges.1, ranges.2, position⟩

theorem pinsOf_eq (command : String) :
    pinsOf command = (rangesOf command).map fun ranges =>
      (pairings ranges).map fun pairing => (pairing.name, pairing.destination) := by
  have pairs (source target : BusRange) : source.pairs target =
      (pairings (source, target)).map fun pairing => (pairing.name, pairing.destination) := by
    have both : min source.count target.count = min (span source) (span target) + 1 :=
      Nat.add_min_add_right _ _ 1
    rw [BusRange.pairs_eq, pairings, List.map_map, both]
    rfl
  rw [pinsOf, rangesOf]
  generalize Text.arrowOf command = sides
  obtain ⟨source, target⟩ := sides
  simp only
  generalize BusRange.parse source = source?
  generalize BusRange.parse target = target?
  cases source? with
  | error error => rfl
  | ok source =>
    cases target? with
    | error error => rfl
    | ok target => exact congrArg Except.ok (pairs source target)

/-! ## Directives -/

def addPairings (moves : Moves) (added : List Pairing) : Moves :=
  moves.addPins (added.map fun pairing => (pairing.name, pairing.destination))

theorem addPairings_append (moves : Moves) (added more : List Pairing) :
    moves.addPairings (added ++ more) = (moves.addPairings added).addPairings more := by
  simp [addPairings, addPins, NameIndex.insertAll]

theorem addCommands_of_piecesTell {pieces : List (List Char)} {ranges : List (BusRange × BusRange)}
    {outcome : Except BusRangeError Unit} (told : PiecesTell pieces ranges outcome) (moves : Moves) :
    moves.addCommands (((pieces.map trim).filter (!·.isEmpty)).map .ofList) =
      (moves.addPairings (ranges.flatMap pairings), outcome) := by
  have kept {piece : List Char} (visible : trim piece ≠ []) (pieces : List (List Char)) :
      ((piece :: pieces).map trim).filter (!·.isEmpty) =
        trim piece :: (pieces.map trim).filter (!·.isEmpty) := by
    rw [List.map_cons, List.filter_cons_of_pos (by simpa using visible)]
  induction told generalizing moves with
  | nil => rfl
  | blank blank _ ih => simpa [blank] using ih moves
  | ranges visible here _ ih =>
    rw [kept visible, List.map_cons, addCommands, pinsOf_eq, commandTells_iff.1 here,
      List.flatMap_cons, addPairings_append, ← ih]
    rfl
  | malformed visible here =>
    rw [kept visible, List.map_cons, addCommands, pinsOf_eq, commandTells_iff.1 here]
    rfl

theorem addDirective_of_tells {directive : String} {ranges : List (BusRange × BusRange)}
    {outcome : Except BusRangeError Unit} (told : Tells directive ranges outcome) (moves : Moves) :
    moves.addDirective directive = (moves.addPairings (ranges.flatMap pairings), outcome) := by
  obtain ⟨pieces, between, told⟩ := told
  rw [addDirective, Text.commaItems, Text.items, pieces_iff.1 between]
  exact addCommands_of_piecesTell told moves

/-- The moves of directives added one after the other, whether or not one of them fails. -/
def addDirectives (moves : Moves) (directives : List String) : Moves :=
  directives.foldl (fun moves directive => (moves.addDirective directive).1) moves

theorem addDirectives_of_counted {directives : List String}
    {ranges : List (List (BusRange × BusRange))} (counted : List.Forall₂ Counted directives ranges)
    (moves : Moves) :
    moves.addDirectives directives = moves.addPairings (ranges.flatten.flatMap pairings) := by
  induction counted generalizing moves with
  | nil => rfl
  | cons here _ ih =>
    obtain ⟨outcome, here⟩ := here
    rw [addDirectives, List.foldl_cons, addDirective_of_tells here, List.flatten_cons,
      List.flatMap_append, addPairings_append, ← ih]
    rfl

theorem find?_addPairings (added : List Pairing) (name : String) :
    (addPairings {} added).find? name =
      (added.reverse.find? fun pairing => sameName pairing.name name).map Pairing.destination := by
  rw [addPairings, addPins, NameIndex.find?_insertAll, NameIndex.find?_empty, Option.or_none,
    ← List.map_reverse, List.find?_map, Option.map_map]
  rfl

theorem size_addPairings (added : List Pairing) :
    (addPairings {} added).size =
      (added.map fun pairing => Text.lower pairing.name).eraseDups.length := by
  rw [addPairings, addPins, NameIndex.size_insertAll, List.map_map]
  rfl

/-- Adding a directive ends as the directive says, at its first malformed command if it has one.
Of directives certain ranges count. After them a name is moved to the destination of the last pairing
for it among those of these ranges, and stays if there is none; there are as many moves as these
pairings have names. -/
theorem addDirectives_last_wins (directives : List String) :
    (∀ (before : Moves) (directive : String) (outcome : Except BusRangeError Unit),
      (before.addDirective directive).2 = outcome ↔ ∃ ranges, Tells directive ranges outcome) ∧
      ∃ ranges, (∀ ranges', List.Forall₂ Counted directives ranges' ↔ ranges' = ranges) ∧
        let moves := addDirectives {} directives
        let all := ranges.flatten.flatMap pairings
        (∀ name destination, moves.find? name = some destination ↔
          ∃ pairing, IsLast (sameName ·.name name) all pairing ∧
            pairing.destination = destination) ∧
        (∀ name, moves.find? name = none ↔ ∀ pairing ∈ all, ¬ sameName pairing.name name) ∧
        moves.size = (all.map fun pairing => Text.lower pairing.name).eraseDups.length := by
  choose ranges outcome told using exists_tells
  have each (directive : String) (ranges' : List (BusRange × BusRange)) :
      Counted directive ranges' ↔ ranges directive = ranges' := by
    constructor
    · rintro ⟨outcome', told'⟩
      exact (told directive).unique told'
    · rintro rfl
      exact ⟨outcome directive, told directive⟩
  have counted {ranges' : List (List (BusRange × BusRange))} :
      List.Forall₂ Counted directives ranges' ↔ directives.map ranges = ranges' :=
    forall₂_iff_map_eq each
  refine ⟨fun before directive outcome' => ?_, directives.map ranges, fun _ => ?_, ?_⟩
  · constructor
    · rintro rfl
      rw [addDirective_of_tells (told directive)]
      exact ⟨ranges directive, told directive⟩
    · rintro ⟨ranges', told'⟩
      rw [addDirective_of_tells told']
  · exact counted.trans eq_comm
  · intro moves all
    have same : moves = addPairings {} all := addDirectives_of_counted (counted.2 rfl) {}
    refine ⟨fun name destination => ?_, fun name => ?_, ?_⟩
    · simp only [same, find?_addPairings, Option.map_eq_some_iff, isLast_iff_find? fun _ => Iff.rfl]
    · rw [same, find?_addPairings, Option.map_eq_none_iff, List.find?_eq_none]
      simp only [List.mem_reverse]
    · rw [same, size_addPairings]

/-- A malformed command in the middle, blanks between commas, and ranges of several lengths and
directions. -/
theorem addDirectives_last_wins_malformed :
    let broken := "A[0:3]->B[1:0], ,C[0:->D, E->F"
    let whole := "a[1:1] -> H[-2:5]"
    Tells broken [(⟨"A", 0, 3⟩, ⟨"B", 1, 0⟩)] (.error (.unclosedBracket "C[0:")) ∧
      Tells whole [(⟨"a", 1, 1⟩, ⟨"H", -2, 5⟩)] (.ok ()) ∧
      (addDirective {} broken).2 = .error (.unclosedBracket "C[0:") ∧
      let moves := addDirectives {} [broken, whole]
      moves.find? "a0" = some "B1" ∧ moves.find? "A1" = some "H-2" ∧ moves.find? "A2" = none ∧
        moves.find? "E0" = none ∧ moves.size = 2 := by
  intro broken whole
  have told : Tells broken [(⟨"A", 0, 3⟩, ⟨"B", 1, 0⟩)] (.error (.unclosedBracket "C[0:")) := by
    refine ⟨["A[0:3]->B[1:0]".toList, [' '], "C[0:->D".toList, " E->F".toList],
      pieces_iff.2 (by decide +kernel), ?_⟩
    refine .ranges (by decide +kernel) (commandTells_iff.2 (by decide +kernel)) ?_
    refine .blank (by decide +kernel) ?_
    exact .malformed (by decide +kernel) (commandTells_iff.2 (by decide +kernel))
  have told' : Tells whole [(⟨"a", 1, 1⟩, ⟨"H", -2, 5⟩)] (.ok ()) := by
    refine ⟨[whole.toList], pieces_iff.2 (by decide +kernel), ?_⟩
    exact .ranges (by decide +kernel) (commandTells_iff.2 (by decide +kernel)) .nil
  obtain ⟨outcome, ranges, counted, found, absent, size⟩ := addDirectives_last_wins [broken, whole]
  cases (counted _).1 (.cons ⟨_, told⟩ (.cons ⟨_, told'⟩ .nil))
  refine ⟨told, told', (outcome {} broken _).2 ⟨_, told⟩, ?_⟩
  intro moves
  refine ⟨(found "a0" "B1").2 ⟨⟨⟨"A", 0, 3⟩, ⟨"B", 1, 0⟩, 0⟩, ?_, by decide +kernel⟩,
    (found "A1" "H-2").2 ⟨⟨⟨"a", 1, 1⟩, ⟨"H", -2, 5⟩, 0⟩, ?_, by decide +kernel⟩,
    (absent "A2").2 (by decide +kernel), (absent "E0").2 (by decide +kernel),
    size.trans (by decide +kernel)⟩
  · exact (isLast_iff_find? fun _ => Iff.rfl).2 (by decide +kernel)
  · exact (isLast_iff_find? fun _ => Iff.rfl).2 (by decide +kernel)

end Moves

end Pinout
