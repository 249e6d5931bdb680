import Pinout.Proofs.First
import Pinout.Proofs.Last
import Pinout.Proofs.OrderedMap
import Pinout.Proofs.Session.Failure
import Pinout.Proofs.Wing.Destinations

/-! # Slots that wings wait for

Wings wait under the spelling of their position, and are plugged in at the bus and the number that
the spelling stands for. A position asked for twice keeps the later wing. So does a slot, unless it
is written in two ways: with more or fewer zeros in front of the number.
-/

namespace Pinout.Wing

open BusRange (decimal?_eq_some_iff)

/-! ## Slots -/

/-- Two tokens stand for one slot if they split into one bus and one number. -/
def SameSlot (token token' : String) : Prop :=
  sameName (splitToken token).1 (splitToken token').1 = true ∧
    (splitToken token).2 = (splitToken token').2

instance (token token' : String) : Decidable (SameSlot token token') :=
  inferInstanceAs (Decidable (_ ∧ _))

/-- The second token is the first one with more zeros in front of its number. -/
def Padded (token token' : String) : Prop :=
  ∃ name name' digits zeros n, Numbered token name digits n ∧
    Numbered token' name' (List.replicate (zeros + 1) '0' ++ digits) n ∧
    sameName (.ofList name) (.ofList name') = true

/-- Tokens are different names, and stand for different slots but for zeros in front of a number. -/
def Apart (token token' : String) : Prop :=
  ¬ sameName token token' ∧ (SameSlot token token' ↔ Padded token token' ∨ Padded token' token)

theorem SameSlot.symm {token token' : String} (same : SameSlot token token') :
    SameSlot token' token :=
  ⟨sameName_symm same.1, same.2.symm⟩

theorem Padded.sameSlot {token token' : String} (padded : Padded token token') :
    SameSlot token token' := by
  obtain ⟨name, name', digits, zeros, n, numbered, numbered', same⟩ := padded
  rw [SameSlot, numbered.split, numbered'.split]
  exact ⟨same, rfl⟩

namespace Numbered

variable {token token' : String} {name name' digits digits' : List Char} {n : Nat}

theorem toList_lower (numbered : Numbered token name digits n) :
    (Text.lower token).toList = (Text.lower (.ofList name)).toList ++ digits := by
  have decimal : ∀ c ∈ digits, c ∈ Text.decimalChars := fun c member =>
    List.mem_cons_of_mem _ <| Text.mem_decimalDigits_of_isDigit <|
      (decimal?_eq_some_iff.1 numbered.number).digits c member
  rw [Text.toList_lower, Text.toList_lower, numbered.spelled, String.toList_ofList,
    Text.lowerAfter_append_number decimal]

/-- Of two tokens for one slot, the longer number has more zeros in front. -/
theorem padded (numbered : Numbered token name digits n)
    (numbered' : Numbered token' name' digits' n)
    (same : sameName (.ofList name) (.ofList name') = true) (apart : ¬ sameName token token')
    (shorter : digits.length ≤ digits'.length) : Padded token token' := by
  obtain ⟨-, all, value⟩ := decimal?_eq_some_iff.1 numbered.number
  obtain ⟨-, all', value'⟩ := decimal?_eq_some_iff.1 numbered'.number
  have zeros := BusRange.eq_zeros_append all all' shorter (value.trans value'.symm)
  cases more : digits'.length - digits.length with
  | zero =>
    rw [more, List.replicate_zero, List.nil_append] at zeros
    refine absurd (sameName_iff.2 ?_) apart
    rw [← String.toList_inj, numbered.toList_lower, numbered'.toList_lower, zeros,
      sameName_iff.1 same]
  | succ k =>
    rw [more] at zeros
    exact ⟨name, name', digits, k, n, numbered, zeros ▸ numbered', same⟩

/-- A name in front of a number has no digit, and so has its lower-case form. -/
theorem not_sameName (numbered : Numbered token name digits n)
    (digit : token'.toList.any Char.isDigit = true) : ¬ sameName (.ofList name) token' := by
  intro same
  rw [← Text.any_isDigit_lowerAfter [], ← Text.toList_lower, ← sameName_iff.1 same,
    Text.toList_lower, Text.any_isDigit_lowerAfter, String.toList_ofList] at digit
  obtain ⟨c, member, digit⟩ := List.any_eq_true.1 digit
  have plain := numbered.plain c member
  rw [isTokenName, digit] at plain
  cases plain

end Numbered

/-- Tokens with a digit stand for one slot just if they differ in zeros in front of a number. -/
theorem apart_of_not_sameName {token token' : String} (digit : token.toList.any Char.isDigit = true)
    (digit' : token'.toList.any Char.isDigit = true) (apart : ¬ sameName token token') :
    Apart token token' := by
  refine ⟨apart, fun same => ?_, ?_⟩
  · have apart' : ¬ sameName token' token := fun same => apart (sameName_symm same)
    obtain ⟨bus, offset⟩ := same
    rcases splitToken_cases token with ⟨name, digits, n, numbered⟩ | whole
    · rw [numbered.split] at bus offset
      rcases splitToken_cases token' with ⟨name', digits', n', numbered'⟩ | whole'
      · rw [numbered'.split] at bus offset
        cases (show n = n' from offset)
        rcases Nat.le_total digits.length digits'.length with shorter | longer
        · exact .inl (numbered.padded numbered' bus apart shorter)
        · exact .inr (numbered'.padded numbered (sameName_symm bus) apart' longer)
      · rw [whole'] at bus
        exact absurd bus (numbered.not_sameName digit')
    · rw [whole] at bus
      rcases splitToken_cases token' with ⟨name', digits', n', numbered'⟩ | whole'
      · rw [numbered'.split] at bus
        exact absurd (sameName_symm bus) (numbered'.not_sameName digit)
      · rw [whole'] at bus
        exact absurd bus apart
  · rintro (padded | padded)
    · exact padded.sameSlot
    · exact padded.sameSlot.symm

theorem any_isDigit_normalizeDestination (destination : String) :
    (normalizeDestination destination).toList.any Char.isDigit = true := by
  have behind (cs : List Char) {d : Char} (digit : d.isDigit = true) :
      (String.ofList (cs ++ [d])).toList.any Char.isDigit = true := by
    simp [digit]
  rw [normalizeDestination]
  split <;> exact behind _ rfl

theorem any_isDigit_of_mem_requests {directive : String} {request : Request}
    (member : request ∈ requests directive) :
    request.position.toList.any Char.isDigit = true := by
  obtain ⟨part, -, member⟩ := List.mem_flatMap.1 member
  rw [partRequests] at member
  split at member
  · obtain ⟨destination, -, rfl⟩ := List.mem_map.1 member
    exact any_isDigit_normalizeDestination _
  · cases member

/-! ## Requests that wait -/

namespace Placements

def ofRequests (asked : List Request) : Placements :=
  asked.foldl add {}

theorem ofRequests_concat (asked : List Request) (request : Request) :
    ofRequests (asked ++ [request]) = (ofRequests asked).add request := by
  rw [ofRequests, List.foldl_append]
  rfl

def ofDirectives (directives : List String) : Placements :=
  directives.foldl addDirective {}

theorem ofDirectives_eq (directives : List String) :
    ofDirectives directives = ofRequests (directives.flatMap requests) :=
  List.foldl_flatMap.symm

/-- A position waits where it was asked for first, as it was spelled then. -/
theorem keys_ofRequests (asked : List Request) :
    (ofRequests asked).keys =
      (asked.eraseDupsBy fun a b => sameName a.position b.position).map (.ofString ·.position) := by
  let key (request : Request) : String := Text.lower request.position
  change _ = (asked.eraseDupsBy fun a b => key a == key b).map _
  induction asked using List.reverseRecOn with
  | nil => rfl
  | append_singleton asked request ih =>
    have known : (ofRequests asked).entries.any (·.1 == .ofString request.position) =
        (asked.eraseDupsBy fun a b => key a == key b).any (key · == key request) := by
      calc (ofRequests asked).entries.any (·.1 == .ofString request.position)
        _ = (ofRequests asked).keys.any (· == .ofString request.position) := by
          rw [OrderedMap.keys, List.any_map]
          rfl
        _ = _ := by
          rw [ih, List.any_map]
          rfl
    rw [ofRequests_concat, add, OrderedMap.keys_insert, known, ih, eraseDupsBy_concat]
    split
    · rfl
    · rw [List.map_append, List.map_singleton]

/-- The wing that was asked for last waits for a position. -/
theorem find?_ofRequests (asked : List Request) (position : String) :
    (ofRequests asked).find? position =
      (asked.reverse.find? (sameName ·.position position)).map (·.wing) := by
  have filled : ofRequests asked =
      OrderedMap.ofList (asked.map fun request => (.ofString request.position, request.wing)) := by
    rw [OrderedMap.ofList, OrderedMap.insertAll, List.foldl_map]
    rfl
  rw [filled, CaselessMap.find?, OrderedMap.get?_ofList, ← List.map_reverse, List.find?_map,
    Option.map_map]
  rfl

theorem find?_eq (placements : Placements) (position : String) :
    placements.find? position =
      (placements.toRequests.find? (sameName ·.position position)).map (·.wing) := by
  have same : ((sameName ·.position position) ∘ fun entry : Caseless × String =>
      (⟨entry.1.spelling, entry.2⟩ : Request)) = (·.1 == .ofString position) := by
    funext entry
    change _ = (entry.1.folded == Text.lower position)
    rw [entry.1.folded_eq]
    rfl
  rw [toRequests, List.find?_map, same, Option.map_map]
  rfl

theorem positions_ofRequests (asked : List Request) :
    (ofRequests asked).toRequests.map (·.position) =
      (asked.eraseDupsBy fun a b => sameName a.position b.position).map (·.position) := by
  calc (ofRequests asked).toRequests.map (·.position)
    _ = (ofRequests asked).keys.map (·.spelling) := by
      rw [toRequests, OrderedMap.keys, List.map_map, List.map_map]
      rfl
    _ = _ := by
      rw [keys_ofRequests, List.map_map]
      rfl

theorem pairwise_ofRequests (asked : List Request) :
    (ofRequests asked).toRequests.Pairwise fun a b => ¬ sameName a.position b.position := by
  have firsts := pairwise_eraseDupsBy (fun request : Request => Text.lower request.position) asked
  have different : (asked.eraseDupsBy fun a b => sameName a.position b.position).Pairwise
      fun a b => ¬ sameName a.position b.position := by
    refine firsts.imp ?_
    intro a b earlier same
    rw [sameName_iff.1 same] at earlier
    exact Nat.lt_irrefl _ earlier
  have positions : ((ofRequests asked).toRequests.map (·.position)).Pairwise
      fun a b => ¬ sameName a b := by
    rw [positions_ofRequests]
    exact List.pairwise_map.2 different
  exact List.pairwise_map.1 positions

theorem exists_of_mem_ofRequests {asked : List Request} {request : Request}
    (waits : request ∈ (ofRequests asked).toRequests) :
    ∃ first ∈ asked, first.position = request.position := by
  have here : request.position ∈ (ofRequests asked).toRequests.map (·.position) :=
    List.mem_map_of_mem waits
  rw [positions_ofRequests] at here
  obtain ⟨first, kept, spelled⟩ := List.mem_map.1 here
  exact ⟨first, mem_of_mem_eraseDupsBy kept, spelled⟩

/-- Where no two requests are for one position, a request is the one found for its position. -/
theorem find?_position_iff {waiting : List Request}
    (apart : waiting.Pairwise fun a b => ¬ sameName a.position b.position)
    {position wing : String} :
    (waiting.find? (sameName ·.position position)).map (·.wing) = some wing ↔
      ∃ request ∈ waiting, sameName request.position position = true ∧ request.wing = wing := by
  rw [Option.map_eq_some_iff]
  constructor
  · rintro ⟨request, found, asks⟩
    have here := List.find?_some found
    exact ⟨request, List.mem_of_find?_eq_some found, here, asks⟩
  · rintro ⟨request, waits, here, asks⟩
    cases found : waiting.find? (sameName ·.position position) with
    | none => exact absurd here (List.find?_eq_none.1 found request waits)
    | some first =>
      have there := List.find?_some found
      have same : first = request :=
        eq_of_pairwise_not apart (fun _ _ => sameName_symm) (List.mem_of_find?_eq_some found) waits
          (sameName_trans there (sameName_symm here))
      exact ⟨first, rfl, same ▸ asks⟩

/-- A position waits for the wing that was asked for last. -/
theorem waits_iff_isLast (asked : List Request) (position wing : String) :
    (∃ request ∈ (ofRequests asked).toRequests,
        sameName request.position position = true ∧ request.wing = wing) ↔
      ∃ last, IsLast (sameName ·.position position = true) asked last ∧ last.wing = wing := by
  have same (request : Request) : sameName request.position position = true ↔
      sameName request.position position = true := Iff.rfl
  rw [← find?_position_iff (pairwise_ofRequests asked), ← find?_eq, find?_ofRequests,
    Option.map_eq_some_iff]
  exact exists_congr fun last => and_congr_left' (isLast_iff_find? same).symm

end Placements

/-! ## Wings that are plugged in -/

theorem tokens_knownPlacements (catalog : Catalog) (board : BoardId) (waiting : List Request) :
    (Session.knownPlacements catalog board waiting).map (·.token) <+: waiting.map (·.position) := by
  induction waiting with
  | nil => exact List.prefix_refl []
  | cons request waiting ih =>
    rw [Session.knownPlacements]
    split
    · exact List.nil_prefix
    · exact (List.prefix_cons_inj request.position).2 ih

theorem mem_knownPlacements {catalog : Catalog} {board : BoardId} {waiting : List Request}
    {placement : Placement} (member : placement ∈ Session.knownPlacements catalog board waiting) :
    ∃ request ∈ waiting, request.position = placement.token ∧
      catalog.find? .wing request.wing = some placement.wing := by
  induction waiting with
  | nil => cases member
  | cons request waiting ih =>
    rw [Session.knownPlacements] at member
    split at member
    · cases member
    · next wing known =>
      rcases List.mem_cons.1 member with rfl | member
      · exact ⟨request, List.mem_cons_self, rfl, known⟩
      · obtain ⟨request', waits, same⟩ := ih member
        exact ⟨request', List.mem_cons_of_mem _ waits, same⟩

theorem Placements.apart_of_requests {asked : List Request}
    (digits : ∀ request ∈ asked, request.position.toList.any Char.isDigit = true) :
    (ofRequests asked).toRequests.Pairwise fun a b => Apart a.position b.position := by
  have digit (request : Request) (waits : request ∈ (ofRequests asked).toRequests) :
      request.position.toList.any Char.isDigit = true := by
    obtain ⟨first, member, spelled⟩ := exists_of_mem_ofRequests waits
    exact spelled ▸ digits first member
  exact (pairwise_ofRequests asked).imp_of_mem fun here there =>
    apart_of_not_sameName (digit _ here) (digit _ there)

/-- Wings wait, and are plugged in, at positions that stand for different slots but for zeros in
front of a number, each position with the wing that was asked for last. -/
theorem waiting_slots (directives : List String) :
    (Placements.ofDirectives directives).toRequests.Pairwise
        (fun a b => Apart a.position b.position) ∧
      (∀ position wing,
        (∃ request ∈ (Placements.ofDirectives directives).toRequests,
            sameName request.position position = true ∧ request.wing = wing) ↔
          ∃ last, IsLast (sameName ·.position position = true) (directives.flatMap requests) last ∧
            last.wing = wing) ∧
      ∀ (session : Session) (board : BoardId),
        let placements := Placements.ofDirectives directives
        let placed := Session.knownPlacements session.catalog board placements.toRequests
        (Session.applyPlacements { session with placements } board).1.catalog =
            plugAll session.catalog placed ∧
          placed.Pairwise (fun a b => Apart a.token b.token) ∧
          ∀ placement ∈ placed,
            ∃ last, IsLast (sameName ·.position placement.token = true)
                (directives.flatMap requests) last ∧
              session.catalog.find? .wing last.wing = some placement.wing := by
  have digits (request : Request) (member : request ∈ directives.flatMap requests) :
      request.position.toList.any Char.isDigit = true := by
    obtain ⟨directive, -, member⟩ := List.mem_flatMap.1 member
    exact any_isDigit_of_mem_requests member
  have apart : (Placements.ofDirectives directives).toRequests.Pairwise
      fun a b => Apart a.position b.position := by
    rw [Placements.ofDirectives_eq]
    exact Placements.apart_of_requests digits
  have asksLast := Placements.waits_iff_isLast (directives.flatMap requests)
  rw [← Placements.ofDirectives_eq] at asksLast
  refine ⟨apart, asksLast, fun session board => ?_⟩
  intro placements placed
  refine ⟨?_, ?_, fun placement member => ?_⟩
  · rw [Session.applyPlacements_fst]
    rfl
  · have tokens := tokens_knownPlacements session.catalog board placements.toRequests
    have positions : (placements.toRequests.map (·.position)).Pairwise Apart :=
      List.pairwise_map.2 apart
    exact List.pairwise_map.1 (positions.sublist tokens.sublist)
  · obtain ⟨request, waits, position, known⟩ := mem_knownPlacements member
    have here : sameName request.position placement.token = true := by
      rw [position, sameName_iff]
    obtain ⟨last, isLast, same⟩ := (asksLast placement.token request.wing).1
      ⟨request, waits, here, rfl⟩
    exact ⟨last, isLast, same ▸ known⟩

/-- A board of two pins, a wing as large as the board and a wing of one pin. -/
def crowded : Session :=
  let board (name bus : String) (pins : List String) : Board :=
    { names := [name]
      buses := [{ name := bus, slots := pins.map fun pin => ⟨{ name := some pin }, []⟩ }] }
  let (withBoard, _) := ({} : Catalog).register .board (board "One" "A" ["P1", "P2"])
  let (withWing, _) := withBoard.register .wing (board "Big" "D" ["B0", "B1"])
  let (catalog, _) := withWing.register .wing (board "LED" "D" ["LED0"])
  { catalog }

/-- Two wings wait for one slot, and both are plugged in there. -/
theorem waiting_slots_twice :
    let placements := Placements.ofDirectives ["Big->A;LED->A0"]
    let (session, _) := Session.applyPlacements { crowded with placements } 0
    placements.toRequests = [⟨"A0", "Big"⟩, ⟨"A00", "LED"⟩] ∧
      ¬ placements.toRequests.Pairwise (fun a b => ¬ SameSlot a.position b.position) ∧
      (session.catalog.board 0).buses.flatMap (·.slots.map (·.depth)) = [2, 1] := by
  refine ⟨?_, ?_, ?_⟩ <;> decide +kernel

end Pinout.Wing
