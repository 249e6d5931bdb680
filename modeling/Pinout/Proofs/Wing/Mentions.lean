import Pinout.Proofs.Fallible
import Pinout.Proofs.Text.Pieces
import Pinout.Proofs.Wing.Slots

/-! # Wings that directives mention

A directive is cut at its semicolons, a piece of it at its first arrow, and the destinations behind
the arrow at their commas. What waits after some directives is told by all the requests they mention:
each position once, where and as it was mentioned first, with the wing mentioned for it last.
-/

namespace Pinout.Wing

open Text (Pieces pieces_iff trim)

/-- What a piece of a directive asks for: nothing if it has no arrow, and otherwise the wing in front
of its first arrow, at every destination behind it. -/
inductive PieceAsks : List Char → List Request → Prop
  | nothing {piece : List Char} (noArrow : ¬ ['-', '>'] <:+: piece) : PieceAsks piece []
  | wing {wing destinations : List Char} {pieces : List (List Char)}
      (first : ¬ ['-', '>'] <:+: wing) (between : Pieces ',' pieces destinations) :
      PieceAsks (wing ++ '-' :: '>' :: destinations)
        (((pieces.map trim).filter (!·.isEmpty)).map fun destination =>
          ⟨normalizeDestination (.ofList destination), .ofList (trim wing)⟩)

def Asks (directive : String) (asked : List Request) : Prop :=
  ∃ pieces requests, Pieces ';' pieces directive.toList ∧ List.Forall₂ PieceAsks pieces requests ∧
    requests.flatten = asked

theorem partRequests_trim_of_noArrow {piece : List Char} (noArrow : ¬ ['-', '>'] <:+: piece) :
    partRequests (.ofList (trim piece)) = [] := by
  have trimmed : ¬ ['-', '>'] <:+: trim piece := fun arrow =>
    noArrow (arrow.trans (Text.trim_isInfix piece))
  rw [partRequests, String.toList_ofList, Text.splitArrow?_eq_none_iff.2 trimmed]

theorem partRequests_trim_append {wing : List Char} (first : ¬ ['-', '>'] <:+: wing)
    (destinations : List Char) :
    partRequests (.ofList (trim (wing ++ '-' :: '>' :: destinations))) =
      (Text.items ',' destinations).map fun destination =>
        ⟨normalizeDestination (.ofList destination), .ofList (trim wing)⟩ := by
  have first' : ¬ ['-', '>'] <:+: Text.trimStart wing := fun arrow =>
    first (arrow.trans (List.dropWhile_suffix _).isInfix)
  rw [partRequests, String.toList_ofList, Text.trim_append_arrow, Text.splitArrow?_append first']
  have visible : Text.isBlank ',' = false := by decide
  simp only [Text.trim_trimStart, Text.trim_trimEnd, Text.items_trim visible]

theorem pieceAsks_iff {piece : List Char} {asked : List Request} :
    PieceAsks piece asked ↔ partRequests (.ofList (trim piece)) = asked := by
  constructor
  · rintro (noArrow | ⟨first, between⟩)
    · exact partRequests_trim_of_noArrow noArrow
    · rw [partRequests_trim_append first, Text.items, pieces_iff.1 between]
  · rintro rfl
    cases split : Text.splitArrow? piece with
    | none =>
      have noArrow := Text.splitArrow?_eq_none_iff.1 split
      rw [partRequests_trim_of_noArrow noArrow]
      exact .nothing noArrow
    | some sides =>
      obtain ⟨wing, destinations⟩ := sides
      obtain ⟨rfl, first⟩ := Text.splitArrow?_eq_some_iff.1 split
      rw [partRequests_trim_append first]
      exact .wing first (pieces_iff.2 rfl)

/-- A part without characters asks for nothing, so it need not be left out. -/
theorem requests_eq (directive : String) :
    requests directive = ((Text.splitAt ';' directive.toList).map fun piece =>
      partRequests (.ofList (trim piece))).flatten := by
  rw [requests, Text.semicolonItems, Text.items]
  induction Text.splitAt ';' directive.toList with
  | nil => rfl
  | cons piece pieces ih =>
    rw [List.map_cons, List.filter_cons, List.map_cons, List.flatten_cons, ← ih]
    split
    · rfl
    · next empty =>
      have nothing : trim piece = [] := by simpa using empty
      rw [nothing]
      rfl

theorem asks_iff {directive : String} {asked : List Request} :
    Asks directive asked ↔ requests directive = asked := by
  have each (pieces : List (List Char)) (asks : List (List Request)) :
      List.Forall₂ PieceAsks pieces asks ↔
        (pieces.map fun piece => partRequests (.ofList (trim piece))) = asks :=
    forall₂_iff_map_eq (r := PieceAsks) fun _ _ => pieceAsks_iff
  simp only [Asks, pieces_iff, each, requests_eq]
  simp

def firstPlace (asked : List Request) (position : String) : Nat :=
  asked.findIdx (sameName ·.position position)

/-- The requests that are left where one position waits for one wing: every position once, in the
order and the spelling of the first request for it, with the wing of the last one. -/
structure LastWins (asked waiting : List Request) : Prop where
  all : ∀ request ∈ asked, ∃ entry ∈ waiting, sameName entry.position request.position
  apart : waiting.Pairwise fun a b => ¬ sameName a.position b.position
  order : waiting.Pairwise fun a b => firstPlace asked a.position < firstPlace asked b.position
  spelling : ∀ entry ∈ waiting, ∃ first,
    IsFirst (sameName ·.position entry.position = true) asked first ∧
      first.position = entry.position
  wing : ∀ entry ∈ waiting, ∃ last,
    IsLast (sameName ·.position entry.position = true) asked last ∧ last.wing = entry.wing

namespace LastWins

variable {asked waiting waiting' : List Request}

theorem subset (wins : LastWins asked waiting) (wins' : LastWins asked waiting') :
    waiting ⊆ waiting' := by
  intro entry waits
  obtain ⟨first, isFirst, spelled⟩ := wins.spelling entry waits
  obtain ⟨entry', waits', same⟩ := wins'.all first isFirst.mem
  -- the two entries are for one position, so the same requests tell them
  have alike : (fun request : Request => sameName request.position entry'.position = true) =
      (sameName ·.position entry.position = true) := by
    funext request
    rw [sameName_iff, sameName_iff, sameName_iff.1 same, spelled]
  obtain ⟨first', isFirst', spelled'⟩ := wins'.spelling entry' waits'
  obtain ⟨last, isLast, carries⟩ := wins.wing entry waits
  obtain ⟨last', isLast', carries'⟩ := wins'.wing entry' waits'
  rw [alike] at isFirst' isLast'
  have equal : entry = entry' := by
    cases entry
    cases entry'
    cases isFirst.unique isFirst'
    cases isLast.unique isLast'
    simp_all
  exact equal ▸ waits'

/-- Nothing else can be left. -/
theorem unique (wins : LastWins asked waiting) (wins' : LastWins asked waiting') :
    waiting = waiting' := by
  have nodup {waiting : List Request} (wins : LastWins asked waiting) : waiting.Nodup :=
    wins.order.imp fun earlier same => Nat.ne_of_lt earlier (congrArg _ (congrArg _ same))
  have perm : waiting.Perm waiting' := (List.perm_ext_iff_of_nodup (nodup wins) (nodup wins')).2
    fun entry => ⟨fun waits => wins.subset wins' waits, fun waits => wins'.subset wins waits⟩
  exact perm.eq_of_pairwise
    (fun a b _ _ earlier later => absurd earlier (Nat.lt_asymm later)) wins.order wins'.order

end LastWins

theorem Placements.lastWins (asked : List Request) :
    LastWins asked (ofRequests asked).toRequests := by
  let key (request : Request) : String := Text.lower request.position
  let firsts := asked.eraseDupsBy fun a b => key a == key b
  have positions : (ofRequests asked).toRequests.map (·.position) = firsts.map (·.position) :=
    positions_ofRequests asked
  have same (a : Request) (position : String) :
      sameName a.position position = true ↔ key a = Text.lower position := sameName_iff
  constructor
  case all =>
    intro request mentioned
    obtain ⟨first, kept, alike⟩ := exists_mem_eraseDupsBy key mentioned
    have here : first.position ∈ (ofRequests asked).toRequests.map (·.position) := by
      rw [positions]
      exact List.mem_map_of_mem kept
    obtain ⟨entry, waits, spelled⟩ := List.mem_map.1 here
    exact ⟨entry, waits, spelled ▸ sameName_iff.2 alike⟩
  case apart => exact pairwise_ofRequests asked
  case order =>
    have place (request : Request) :
        (asked.map key).idxOf (key request) = firstPlace asked request.position := by
      rw [List.idxOf, List.findIdx_map]
      rfl
    have firsts := pairwise_eraseDupsBy key asked
    simp only [place] at firsts
    have ordered := List.pairwise_map (f := Request.position)
      (R := fun a b => firstPlace asked a < firstPlace asked b).2 firsts
    rw [← positions] at ordered
    exact List.pairwise_map (f := Request.position)
      (R := fun a b => firstPlace asked a < firstPlace asked b).1 ordered
  case spelling =>
    intro entry waits
    have here : entry.position ∈ firsts.map (·.position) :=
      positions ▸ List.mem_map_of_mem waits
    obtain ⟨first, kept, spelled⟩ := List.mem_map.1 here
    refine ⟨first, ?_, spelled⟩
    simp only [same, ← spelled]
    exact (mem_eraseDupsBy_iff key).1 kept
  case wing =>
    intro entry waits
    exact (waits_iff_isLast asked entry.position entry.wing).1
      ⟨entry, waits, sameName_iff.2 rfl, rfl⟩

/-- Whatever directives are added: they mention certain requests, and what waits are the positions of
these, each once, in the order and the spelling of its first mention, with the wing of its last. -/
theorem mentions_last_wins (directives : List String) :
    ∃ asked, (∀ asked', List.Forall₂ Asks directives asked' ↔ asked' = asked) ∧
      ∀ waiting, LastWins asked.flatten waiting ↔
        waiting = (Placements.ofDirectives directives).toRequests := by
  refine ⟨directives.map requests, fun asked' => ?_, fun waiting => ?_⟩
  · exact (forall₂_iff_map_eq (r := Asks) (f := requests) fun _ _ => asks_iff).trans eq_comm
  · have wins := Placements.lastWins (directives.flatMap requests)
    rw [← Placements.ofDirectives_eq] at wins
    exact ⟨fun wins' => wins'.unique wins, fun same => same ▸ wins⟩

/-- Wings are replaced within a directive and across directives, in other spellings. -/
example :
    (Placements.ofDirectives ["LED->AL, BL;; none; Btn -> al", " VGA->bl,C"]).toRequests =
      [⟨"A0", "Btn"⟩, ⟨"B0", "VGA"⟩, ⟨"C0", "VGA"⟩] := by
  decide +kernel

end Pinout.Wing
