import Pinout.Proofs.Catalog.Further

/-! # The order of loads

Two texts whose boards have different names stand behind each other in the catalog, and loading them
the other way round exchanges two blocks of numbers. Names lead to the same boards then, and so do
parent names, also across the texts. As the names are new, the text loaded first leaves some parents
open but resolves none of them otherwise than both texts together.
-/

namespace Pinout

/-- The number of a board behind `base` others when a block of boards and the block behind it change
places. -/
def exchange (base first second id : Nat) : Nat :=
  if id < base then id
  else if id < base + first then id + second
  else if id < base + first + second then id - first
  else id

variable {base first second : Nat}

theorem exchange_of_lt {id : Nat} (inside : id < base) : exchange base first second id = id :=
  if_pos inside

theorem exchange_first {position : Nat} (inside : position < first) :
    exchange base first second (base + position) = base + second + position := by
  rw [exchange, if_neg (by omega), if_pos (by omega)]
  omega

theorem exchange_second {position : Nat} (inside : position < second) :
    exchange base first second (base + first + position) = base + position := by
  rw [exchange, if_neg (by omega), if_neg (by omega), if_pos (by omega)]
  omega

theorem exchange_of_le {id : Nat} (outside : base + first + second ≤ id) :
    exchange base first second id = id := by
  rw [exchange, if_neg (by omega), if_neg (by omega), if_neg (by omega)]

theorem exchange_exchange (base first second id : Nat) :
    exchange base second first (exchange base first second id) = id := by
  unfold exchange
  split_ifs <;> omega

/-- Where parents are moved along with their boards, cycles are. -/
theorem OnCycle.moved {parent parent' : BoardId → Option BoardId} {move : BoardId → BoardId}
    {id : BoardId} (cycle : OnCycle parent id)
    (steps : ∀ id, parent' (move id) = (parent id).map move) : OnCycle parent' (move id) :=
  Relation.TransGen.lift move (fun id _ step => (steps id).trans (congrArg (·.map move) step))
    id id cycle

namespace Catalog

/-! ## Two blocks of boards -/

def registerBoth (catalog : Catalog) (kind : BoardKind) (boards : List Board) (kind' : BoardKind)
    (boards' : List Board) : Catalog :=
  ((catalog.registerAll kind boards).1.registerAll kind' boards').1

section

variable {catalog : Catalog} {kind kind' : BoardKind} {boards boards' : List Board}

theorem board?_exchange (catalog : Catalog) (kind : BoardKind) (boards : List Board)
    (kind' : BoardKind) (boards' : List Board) (id : Nat) :
    (catalog.registerBoth kind' boards' kind boards).board?
        (exchange catalog.entries.size boards.length boards'.length id) =
      (catalog.registerBoth kind boards kind' boards').board? id := by
  simp only [registerBoth, board?_registerAll, size_registerAll]
  generalize catalog.entries.size = base
  rcases Nat.lt_or_ge id base with before | behind
  · rw [exchange_of_lt before, if_pos (by omega), if_pos before, if_pos (by omega), if_pos before]
  obtain ⟨position, rfl⟩ := Nat.exists_eq_add_of_le behind
  rcases Nat.lt_or_ge position boards.length with first | behind
  · rw [exchange_first first, if_neg (by omega), if_pos (by omega), if_neg (by omega)]
    simp
  obtain ⟨position, rfl⟩ := Nat.exists_eq_add_of_le behind
  rw [← Nat.add_assoc]
  rcases Nat.lt_or_ge position boards'.length with second | behind
  · rw [exchange_second second, if_pos (by omega), if_neg (by omega), if_neg (by omega)]
    simp
  · rw [exchange_of_le (by omega), if_neg (by omega), if_neg (by omega),
      List.getElem?_eq_none (by omega), List.getElem?_eq_none (by omega)]
    rfl

theorem find?_exchange (sound : Sound catalog)
    (apart : ∀ name, Board.lastNamed? name boards = none ∨ Board.lastNamed? name boards' = none)
    (kind'' : BoardKind) (name : String) :
    (catalog.registerBoth kind' boards' kind boards).find? kind'' name =
      ((catalog.registerBoth kind boards kind' boards').find? kind'' name).map
        (exchange catalog.entries.size boards.length boards'.length) := by
  have before : (catalog.find? kind'' name).map
      (exchange catalog.entries.size boards.length boards'.length) = catalog.find? kind'' name := by
    cases here : catalog.find? kind'' name with
    | none => rfl
    | some id => exact congrArg some (exchange_of_lt (sound.found kind'' name id here))
  have inFirst : ((Board.lastNamed? name boards).map (catalog.entries.size + ·)).map
      (exchange catalog.entries.size boards.length boards'.length) =
        (Board.lastNamed? name boards).map (catalog.entries.size + boards'.length + ·) := by
    rw [Option.map_map]
    exact Option.map_congr fun position here => exchange_first (Board.lastNamed?_lt here)
  have inSecond : ((Board.lastNamed? name boards').map
      (catalog.entries.size + boards.length + ·)).map
      (exchange catalog.entries.size boards.length boards'.length) =
        (Board.lastNamed? name boards').map (catalog.entries.size + ·) := by
    rw [Option.map_map]
    exact Option.map_congr fun position here => exchange_second (Board.lastNamed?_lt here)
  simp only [registerBoth, find?_registerAll, size_registerAll, Option.map_or, before,
    apply_ite (Option.map (exchange _ _ _)), inFirst, inSecond, Option.map_none]
  -- at most one of the blocks has the name, so it does not matter which one is asked first
  rcases apart name with none | none <;> simp [none]

theorem resolvedParent?_exchange (sound : Sound catalog)
    (apart : ∀ name, Board.lastNamed? name boards = none ∨ Board.lastNamed? name boards' = none)
    (id : BoardId) :
    (catalog.registerBoth kind' boards' kind boards).resolvedParent?
        (exchange catalog.entries.size boards.length boards'.length id) =
      ((catalog.registerBoth kind boards kind' boards').resolvedParent? id).map
        (exchange catalog.entries.size boards.length boards'.length) := by
  rw [resolvedParent?, board?_exchange, resolvedParent?]
  cases (catalog.registerBoth kind boards kind' boards').board? id with
  | none => rfl
  | some board =>
    simp only [Option.bind_some, resolveParent, find?_exchange sound apart, ← Option.map_or,
      Option.map_bind, Function.comp_def]

/-- Where no name resolves to a cycle, blocks can be exchanged. -/
theorem embeds_exchange (sound : Sound catalog)
    (apart : ∀ name, Board.lastNamed? name boards = none ∨ Board.lastNamed? name boards' = none)
    (acyclic : ∀ id, ¬ OnCycle (catalog.registerBoth kind boards kind' boards').resolvedParent? id) :
    Embeds (exchange catalog.entries.size boards.length boards'.length)
      (catalog.registerBoth kind boards kind' boards').link.1
      (catalog.registerBoth kind' boards' kind boards).link.1 := by
  have acyclic' (id : BoardId) :
      ¬ OnCycle (catalog.registerBoth kind' boards' kind boards).resolvedParent? id :=
    fun cycle => acyclic _ (cycle.moved (resolvedParent?_exchange sound fun name =>
      (apart name).symm))
  have linked (catalog : Catalog) (acyclic : ∀ id, ¬ OnCycle catalog.resolvedParent? id) :
      catalog.link.1.parent? = catalog.resolvedParent? := by
    funext id
    rw [parent?_link, (link_snd_eq_nil_iff catalog).2 acyclic, if_neg List.not_mem_nil]
  constructor
  · intro id board here
    rw [board?_link] at here ⊢
    exact (board?_exchange ..).trans here
  · intro id _
    rw [linked _ acyclic, linked _ acyclic']
    exact resolvedParent?_exchange sound apart id

/-! ## One text alone -/

theorem find?_congr_of_sameName {name name' : String} (same : sameName name name' = true)
    (kind : BoardKind) : catalog.find? kind name = catalog.find? kind name' := by
  rw [find?, Registry.find?, NameIndex.find?, sameName_iff.1 same]
  rfl

/-- New names open up parents, and lead none elsewhere. -/
theorem resolvedParent?_registerAll_of_unknown
    (unknown : ∀ taken ∈ boards.flatMap (·.names), ∀ kind, catalog.contains kind taken = false)
    {id above : BoardId} (here : catalog.resolvedParent? id = some above) :
    (catalog.registerAll kind boards).1.resolvedParent? id = some above := by
  -- a name that leads somewhere is none of the new ones
  have kept {kind' : BoardKind} {name : String} (known : catalog.contains kind' name = true)
      (kind'' : BoardKind) :
      (catalog.registerAll kind boards).1.find? kind'' name = catalog.find? kind'' name := by
    refine find?_registerAll_of_elsewhere catalog kind (fun taken member => ?_) kind''
    refine Bool.eq_false_iff.2 fun same => ?_
    rw [contains, ← find?_congr_of_sameName same] at known
    cases (unknown taken member kind').symm.trans known
  obtain ⟨board, there, resolved⟩ := Option.bind_eq_some_iff.1 here
  obtain ⟨name, wanted, found⟩ := resolveParent_eq_some_iff.1 resolved
  obtain ⟨kind', known⟩ : ∃ kind', catalog.contains kind' name = true := by
    rcases found with own | ⟨-, other⟩
    · exact ⟨_, by rw [contains, own]; rfl⟩
    · exact ⟨_, by rw [contains, other]; rfl⟩
  rw [resolvedParent?, board?_registerAll, if_pos (lt_of_board? there), there, Option.bind_some]
  refine resolveParent_eq_some_iff.2 ⟨name, wanted, ?_⟩
  simp only [kept known]
  exact found

theorem load_isOk_iff_acyclic (catalog : Catalog) (kind : BoardKind) (source : String) :
    (∃ summary, (catalog.load kind source).2 = .ok summary) ↔
      ∀ id, ¬ OnCycle (catalog.load kind source).1.resolvedParent? id := by
  rw [load_isOk_iff, link_snd_eq_nil_iff, resolvedParent?_load]

/-- What new names do not join to a cycle is on none without them. -/
theorem acyclic_of_load {source : String}
    (unknown : ∀ taken ∈ (Definition.read source).names, ∀ kind,
      catalog.contains kind taken = false)
    (acyclic : ∀ id, ¬ OnCycle (catalog.load kind source).1.resolvedParent? id) (id : BoardId) :
    ¬ OnCycle catalog.resolvedParent? id := by
  rw [resolvedParent?_load] at acyclic
  exact fun cycle => acyclic id
    (cycle.mono fun _ _ => resolvedParent?_registerAll_of_unknown unknown)

theorem contains_load_of_elsewhere {source name : String}
    (elsewhere : ∀ taken ∈ (Definition.read source).names, sameName taken name = false)
    (kind' : BoardKind) :
    (catalog.load kind source).1.contains kind' name = catalog.contains kind' name := by
  rw [load_fst]
  exact congrArg Option.isSome (find?_registerAll_of_elsewhere catalog kind elsewhere kind')

end

/-! ## Either order -/

def Succeeds (loads : List Load) (load : Load) : Prop :=
  ∃ summary, ((loaded loads).load load.kind load.source).2 = .ok summary

def Load.boards (load : Load) : List Board :=
  (Definition.read load.source).boards

def Load.names (load : Load) : List String :=
  (Definition.read load.source).names

variable {loads : List Load} {one other : Load}

theorem loaded_pair (loads : List Load) (one other : Load) :
    loaded (loads ++ [one, other]) =
      ((loaded loads).registerBoth one.kind one.boards other.kind other.boards).link.1 := by
  rw [List.append_cons, loaded_concat, loaded_concat, load_fst, load_fst, link_registerAll_link]
  rfl

theorem lastNamed?_apart
    (apart : ∀ name ∈ one.names, ∀ name' ∈ other.names, sameName name name' = false)
    (name : String) :
    Board.lastNamed? name one.boards = none ∨ Board.lastNamed? name other.boards = none := by
  by_cases taken : ∃ name' ∈ other.names, sameName name' name = true
  · obtain ⟨name', member, same⟩ := taken
    refine .inl (Board.lastNamed?_eq_none_iff.2 (isNamed_eq_false fun name'' member' => ?_))
    rw [sameName, ← sameName_iff.1 same]
    exact apart name'' member' name' member
  · push Not at taken
    exact .inr (Board.lastNamed?_eq_none_iff.2 (isNamed_eq_false fun name' member =>
      Bool.eq_false_iff.2 (taken name' member)))

/-- Both texts are loaded without an error if they are acyclic together. -/
theorem succeeds_both
    (unknown : ∀ name ∈ other.names, ∀ kind, (loaded loads).contains kind name = false)
    (apart : ∀ name ∈ one.names, ∀ name' ∈ other.names, sameName name name' = false)
    (acyclic : ∀ id, ¬ OnCycle (loaded (loads ++ [one, other])).resolvedParent? id) :
    Succeeds loads one ∧ Succeeds (loads ++ [one]) other := by
  rw [List.append_cons, loaded_concat] at acyclic
  refine ⟨(load_isOk_iff_acyclic _ _ _).2 ?_, (load_isOk_iff_acyclic _ _ _).2 acyclic⟩
  rw [loaded_concat] at acyclic
  refine acyclic_of_load (fun name member kind => ?_) acyclic
  rw [contains_load_of_elsewhere fun taken member' => apart taken member' name member]
  exact unknown name member kind

/-- Texts whose names are new and different are loaded in either order, if all parents together are
acyclic. Names lead to the same boards, which show the same, other numbers aside. -/
theorem load_order (loads : List Load) (one other : Load)
    (unknown : ∀ name ∈ one.names ++ other.names, ∀ kind,
      (loaded loads).contains kind name = false)
    (apart : ∀ name ∈ one.names, ∀ name' ∈ other.names, sameName name name' = false)
    (acyclic : ∀ id, ¬ OnCycle (loaded (loads ++ [one, other])).resolvedParent? id) :
    let first := loaded (loads ++ [one, other])
    let second := loaded (loads ++ [other, one])
    let move := exchange (loaded loads).entries.size one.boards.length other.boards.length
    (Succeeds loads one ∧ Succeeds (loads ++ [one]) other) ∧
      (Succeeds loads other ∧ Succeeds (loads ++ [other]) one) ∧
      Function.Injective move ∧
      (∀ kind name, second.find? kind name = (first.find? kind name).map move) ∧
      (∀ kind name id, first.find? kind name = some id → id < first.entries.size) ∧
      ∀ id < first.entries.size, ShowsAs move first second id := by
  intro first second move
  have sound := sound_loaded loads
  have apart' := lastNamed?_apart apart
  have acyclic' (id : BoardId) : ¬ OnCycle second.resolvedParent? id := by
    intro cycle
    simp only [second, loaded_pair, resolvedParent?_link] at cycle
    simp only [loaded_pair, resolvedParent?_link] at acyclic
    exact acyclic _ (cycle.moved (resolvedParent?_exchange sound fun name => (apart' name).symm))
  refine ⟨succeeds_both (fun name member => unknown name (List.mem_append_right _ member)) apart
      acyclic,
    succeeds_both (fun name member => unknown name (List.mem_append_left _ member))
      (fun name member name' member' => ?_) acyclic',
    Function.LeftInverse.injective (exchange_exchange _ _ _), fun kind name => ?_,
    (sound_loaded _).found, fun id inside => ?_⟩
  · rw [sameName, Bool.beq_comm]
    exact apart name' member' name member
  · simp only [first, second, loaded_pair]
    exact find?_exchange sound apart' kind name
  · have embeds : Embeds move first second := by
      simp only [first, second, loaded_pair]
      simp only [loaded_pair, resolvedParent?_link] at acyclic
      exact embeds_exchange sound apart' acyclic
    exact embeds.showsAs (sound_loaded _) (sound_loaded _) (bare_loaded _) inside

/-- Parents lead from the one text to the other and back, and into both from boards before them. -/
theorem load_order_crossing :
    let loads : List Load :=
      [⟨.board, "Base : Later \x7b A : P1 \x7d"⟩, ⟨.wing, "Shield : Uno \x7b S : SIG \x7d"⟩]
    let one : Load := ⟨.board, "One, Uno : Two \x7b B : P2 \x7d\nThree : Base \x7b C : P3 \x7d"⟩
    let other : Load := ⟨.board, "Two \x7b D \x7b K = V \x7d : P4 \x7d\nLater : one \x7b \x7d"⟩
    let first := loaded (loads ++ [one, other])
    let second := loaded (loads ++ [other, one])
    (∀ name ∈ one.names ++ other.names, ∀ kind, (loaded loads).contains kind name = false) ∧
      (∀ name ∈ one.names, ∀ name' ∈ other.names, sameName name name' = false) ∧
      (∀ id, ¬ OnCycle first.resolvedParent? id) ∧
      Succeeds (loads ++ [one]) other ∧ Succeeds (loads ++ [other]) one ∧
      first.lineage 3 = [4, 2, 5, 0, 3] ∧ second.lineage 5 = [2, 4, 3, 0, 5] ∧
      second.pins 5 = (first.pins 3).map (·.moved (exchange 2 2 2)) := by
  intro loads one other first second
  have unknown : ∀ name ∈ one.names ++ other.names, ∀ kind,
      (loaded loads).contains kind name = false := by
    intro name member kind
    cases kind <;> revert name member <;> decide +kernel
  have apart : ∀ name ∈ one.names, ∀ name' ∈ other.names, sameName name name' = false := by
    decide +kernel
  have acyclic : ∀ id, ¬ OnCycle first.resolvedParent? id := by
    have nothing : first.link.2 = [] := by decide +kernel
    exact first.link_snd_eq_nil_iff.1 nothing
  have lineage : first.lineage 3 = [4, 2, 5, 0, 3] := by decide +kernel
  have sizes : (loaded loads).entries.size = 2 ∧ one.boards.length = 2 ∧
      other.boards.length = 2 := by
    decide +kernel
  obtain ⟨⟨-, either⟩, ⟨-, orElse⟩, -, -, -, shows⟩ := load_order loads one other unknown apart acyclic
  rw [sizes.1, sizes.2.1, sizes.2.2] at shows
  have three := shows 3 (by decide +kernel)
  refine ⟨unknown, apart, acyclic, either, orElse, lineage, ?_, three.pins⟩
  exact three.lineage.trans (congrArg (List.map (exchange 2 2 2)) lineage)

end Catalog

end Pinout
