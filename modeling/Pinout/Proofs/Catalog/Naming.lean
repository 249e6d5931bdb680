import Pinout.Proofs.Catalog.Registering

/-! # Names and lists of boards

Whatever happens to a catalog, its boards are those that were registered, in order, with the names
and the pins they had. A name leads to the last board of its kind that has it, and a board is listed
as long as one of its own names leads to it: the search tree behind the names has no key that is not
a name of the board found there.
-/

namespace Pinout

theorem lastIndex?_concat {α : Type} (p : α → Bool) (xs : List α) (x : α) :
    lastIndex? p (xs ++ [x]) = if p x then some xs.length else lastIndex? p xs := by
  rw [lastIndex?, List.reverse_concat, List.findIdx?_cons]
  split
  · simp
  · rw [lastIndex?, Option.map_map]
    refine Option.map_congr fun fromEnd _ => ?_
    simp only [Function.comp_apply, List.length_append, List.length_singleton]
    omega

theorem getElem?_concat {α : Type} (xs : List α) (x : α) (i : Nat) :
    (xs ++ [x])[i]? = if i = xs.length then some x else xs[i]? := by
  split
  · next last => rw [last, List.getElem?_concat_length]
  · next elsewhere =>
    rcases Nat.lt_or_gt_of_ne elsewhere with inside | outside
    · exact List.getElem?_append_left inside
    · rw [List.getElem?_eq_none outside.le, List.getElem?_eq_none]
      rw [List.length_append, List.length_singleton]
      exact outside

theorem NameIndex.mem_values_iff {α : Type} {index : NameIndex α} {value : α} :
    value ∈ index.values ↔ ∃ key : String, index.byLower[key]? = some value := by
  have values : index.values = index.byLower.toList.map (·.2) := by
    change index.byLower.foldr (fun _ value values => value :: values) [] = _
    rw [Std.TreeMap.foldr_eq_foldr_toList, List.map_eq_foldr]
  simp [values, Std.TreeMap.mem_toList_iff_getElem?_eq_some]

namespace Registry

/-- Every key is the lower-case form of a name of the board it leads to. -/
def Keyed (registry : Registry) (namesOf : BoardId → List String) : Prop :=
  ∀ (key : String) id, registry.names.byLower[key]? = some id →
    ∃ name ∈ namesOf id, Text.lower name = key

variable {registry : Registry} {namesOf namesOf' : BoardId → List String}

theorem Keyed.mono (keyed : registry.Keyed namesOf) (kept : ∀ id, namesOf id ⊆ namesOf' id) :
    registry.Keyed namesOf' := by
  intro key id here
  obtain ⟨name, member, lower⟩ := keyed key id here
  exact ⟨name, kept id member, lower⟩

theorem Keyed.insert (keyed : registry.Keyed namesOf) {names : List String} {id : BoardId}
    (own : names ⊆ namesOf id) : (registry.insert names id).Keyed namesOf := by
  obtain ⟨index, order⟩ := registry
  induction names generalizing index with
  | nil => exact keyed
  | cons name names ih =>
    obtain ⟨first, others⟩ := List.cons_subset.1 own
    refine ih others (index.insert name id) fun key other here => ?_
    simp only [NameIndex.insert, Std.TreeMap.getElem?_insert] at here
    split at here
    · next same =>
      cases here
      exact ⟨name, first, Std.LawfulEqCmp.eq_of_compare same⟩
    · exact keyed key other here

end Registry

/-! ## Registrations -/

structure Registration where
  kind : BoardKind
  board : Board
deriving Repr, DecidableEq

def Registration.answers (kind : BoardKind) (name : String) (registration : Registration) : Bool :=
  registration.kind = kind && registration.board.isNamed name

def Change.registrations : Change → List Registration
  | .register kind board => [⟨kind, board⟩]
  | .load kind source => (Definition.read source).boards.map (⟨kind, ·⟩)
  | .link | .reparent _ _ | .plug _ _ _ => []

namespace Board

/-- Something about boards that neither stacks nor parent names nor kinds have to do with. -/
structure Steady {α : Type} (part : Board → α) : Prop where
  wired : ∀ board, part board.wired = part board
  reparent : ∀ board parentName, part { board with parentName } = part board
  ofKind : ∀ board kind, part (board.ofKind kind) = part board

theorem steady_names : Steady (·.names) where
  wired board := rfl
  reparent board parentName := rfl
  ofKind board kind := by cases kind <;> rfl

end Board

namespace Catalog

/-- The catalog has the registered boards, each at its place, and finds them by their names. -/
structure Records (catalog : Catalog) (registered : List Registration) : Prop where
  parts : ∀ {α : Type} {part : Board → α}, Board.Steady part → ∀ id,
    (catalog.board? id).map part = registered[id]?.map fun registration => part registration.board
  find : ∀ kind name, catalog.find? kind name = lastIndex? (·.answers kind name) registered
  order : ∀ kind, (catalog.registry kind).order.toList.Pairwise (· < ·)
  mem_order : ∀ kind (id : BoardId), id ∈ (catalog.registry kind).order ↔
    registered[id]?.map (·.kind) = some kind
  keyed : ∀ kind, (catalog.registry kind).Keyed fun id => (catalog.board id).names

variable {catalog catalog' : Catalog} {registered : List Registration}

theorem Records.names (records : Records catalog registered) (id : BoardId) :
    (catalog.board? id).map (·.names) = registered[id]?.map (·.board.names) :=
  records.parts Board.steady_names id

theorem records_empty : Records {} [] where
  parts steady id := by simp [board?]
  find kind name := by cases kind <;> simp [find?, registry, Registry.find?, lastIndex?]
  order kind := by cases kind <;> exact .nil
  mem_order kind id := by cases kind <;> simp [registry]
  keyed kind key id here := by cases kind <;> simp [registry] at here

theorem Records.size (records : Records catalog registered) :
    catalog.entries.size = registered.length := by
  have inside (id : Nat) : id < catalog.entries.size ↔ id < registered.length := by
    have same := Bool.eq_iff_iff.1 (congrArg Option.isSome (records.names id))
    simpa [board?] using same
  have le := inside registered.length
  have ge := inside catalog.entries.size
  omega

theorem board_names (catalog : Catalog) (id : BoardId) :
    (catalog.board id).names = ((catalog.board? id).map (·.names)).getD [] := by
  rw [board]
  cases catalog.board? id <;> rfl

/-- Records are about what is steady and about registries. -/
theorem Records.of_eq (records : Records catalog registered)
    (same : ∀ {α : Type} {part : Board → α}, Board.Steady part → ∀ id,
      (catalog'.board? id).map part = (catalog.board? id).map part)
    (registry : catalog'.registry = catalog.registry) : Records catalog' registered where
  parts steady id := (same steady id).trans (records.parts steady id)
  find kind name := by rw [find?, registry, ← find?, records.find]
  order := by rw [registry]; exact records.order
  mem_order := by rw [registry]; exact records.mem_order
  keyed kind := by
    simp only [registry, board_names catalog', same Board.steady_names, ← board_names]
    exact records.keyed kind

/-! ## Registering -/

theorem registry_register_self (catalog : Catalog) (kind : BoardKind) (board : Board) :
    (catalog.register kind board).1.registry kind =
      (catalog.registry kind).insert board.names catalog.entries.size := by
  cases kind <;> rfl

theorem registry_register_of_ne (catalog : Catalog) {kind kind' : BoardKind} (other : kind' ≠ kind)
    (board : Board) : (catalog.register kind board).1.registry kind' = catalog.registry kind' := by
  cases kind <;> cases kind' <;> first | rfl | exact absurd rfl other

theorem board?_register (catalog : Catalog) (kind : BoardKind) (board : Board) (id : BoardId) :
    (catalog.register kind board).1.board? id =
      if id = catalog.entries.size then some (board.ofKind kind) else catalog.board? id := by
  cases kind <;> simp only [register, board?, Array.getElem?_push] <;> split <;> rfl

theorem names_register_self (catalog : Catalog) (kind : BoardKind) (board : Board) :
    ((catalog.register kind board).1.board catalog.entries.size).names = board.names := by
  rw [Catalog.board, board?_register, if_pos rfl]
  exact Board.steady_names.ofKind board kind

theorem names_register_subset (catalog : Catalog) (kind : BoardKind) (board : Board)
    (id : BoardId) :
    (catalog.board id).names ⊆ ((catalog.register kind board).1.board id).names := by
  by_cases last : id = catalog.entries.size
  · -- there was no board yet, so there are no names
    rw [Catalog.board, Catalog.board?, last, Array.getElem?_eq_none (Nat.le_refl _)]
    exact List.nil_subset _
  · rw [Catalog.board, Catalog.board, board?_register, if_neg last]
    exact fun name member => member

theorem Records.register (records : Records catalog registered) (kind : BoardKind)
    (board : Board) :
    Records (catalog.register kind board).1 (registered ++ [⟨kind, board⟩]) := by
  have size := records.size
  constructor
  case parts =>
    intro α part steady id
    rw [board?_register, getElem?_concat, size]
    split
    · rw [Option.map_some, Option.map_some, steady.ofKind]
    · exact records.parts steady id
  case find =>
    intro kind' name
    rw [find?_register_eq, lastIndex?_concat, records.find, size]
    by_cases own : kind' = kind
    · cases named : board.isNamed name <;> simp [Registration.answers, own, named]
    · simp [Registration.answers, own, Ne.symm own]
  case order =>
    intro kind'
    by_cases own : kind' = kind
    · subst own
      rw [registry_register_self, Registry.insert, Array.toList_push, List.pairwise_append]
      refine ⟨records.order kind', List.pairwise_singleton _ _, fun id member last here => ?_⟩
      rw [List.mem_singleton.1 here, size]
      obtain ⟨registration, there, -⟩ := Option.map_eq_some_iff.1
        ((records.mem_order kind' id).1 (Array.mem_toList_iff.1 member))
      exact (List.getElem?_eq_some_iff.1 there).1
    · rw [registry_register_of_ne catalog own]
      exact records.order kind'
  case mem_order =>
    intro kind' id
    rw [getElem?_concat]
    by_cases own : kind' = kind
    · subst own
      rw [registry_register_self, Registry.insert, Array.mem_push, records.mem_order, size]
      split <;> simp_all
    · rw [registry_register_of_ne catalog own, records.mem_order]
      split
      · next last => simp [last, Ne.symm own]
      · rfl
  case keyed =>
    intro kind'
    have before := (records.keyed kind').mono (names_register_subset catalog kind board)
    by_cases own : kind' = kind
    · subst own
      rw [registry_register_self]
      refine before.insert ?_
      simp only [names_register_self, List.Subset.refl]
    · rw [registry_register_of_ne catalog own]
      exact before

theorem Records.registerAll (records : Records catalog registered) (kind : BoardKind)
    (boards : List Board) :
    Records (catalog.registerAll kind boards).1 (registered ++ boards.map (⟨kind, ·⟩)) := by
  induction boards generalizing catalog registered with
  | nil => exact (List.append_nil registered).symm ▸ records
  | cons board boards ih =>
    have follows := ih (records.register kind board)
    rwa [List.append_assoc] at follows

/-! ## Histories -/

theorem registry_of_wired (same : catalog'.wired = catalog.wired) :
    catalog'.registry = catalog.registry := by
  have registries := congrArg registry same
  exact registries

theorem parts_of_wired {α : Type} {part : Board → α} (steady : Board.Steady part)
    (same : catalog'.wired = catalog.wired) (id : BoardId) :
    (catalog'.board? id).map part = (catalog.board? id).map part := by
  have unstacked (catalog : Catalog) :
      (catalog.board? id).map part = (catalog.wired.board? id).map part := by
    rw [board?_wired, Option.map_map]
    exact Option.map_congr fun board _ => (steady.wired board).symm
  rw [unstacked, same, ← unstacked]

theorem Records.apply (records : Records catalog registered) (change : Change) :
    Records (catalog.apply change) (registered ++ change.registrations) := by
  cases change with
  | register kind board => exact records.register kind board
  | load kind source =>
    rw [Catalog.apply, load_fst]
    exact (records.registerAll kind _).of_eq (fun _ id => by rw [board?_link]) rfl
  | link =>
    rw [Catalog.apply, relink_fst, Change.registrations, List.append_nil]
    exact records.of_eq (fun _ id => by rw [board?_link]) rfl
  | reparent id parentName =>
    rw [Change.registrations, List.append_nil]
    refine records.of_eq (fun steady id' => ?_) rfl
    simp only [Catalog.apply, modifyBoard, board?, Array.getElem?_modify]
    split
    · cases catalog.entries[id']? with
      | none => rfl
      | some entry => exact congrArg some (steady.reparent entry.board parentName)
    · rfl
  | plug board wing token =>
    rw [Change.registrations, List.append_nil]
    have same := Wing.wired_plug catalog board wing token
    exact records.of_eq (parts_of_wired · same) (registry_of_wired same)

def registrations (changes : List Change) : List Registration :=
  changes.flatMap (·.registrations)

theorem after_concat (changes : List Change) (change : Change) :
    after (changes ++ [change]) = (after changes).apply change := by
  simp [after]

theorem records_after (changes : List Change) :
    Records (after changes) (registrations changes) := by
  induction changes using List.reverseRecOn with
  | nil => exact records_empty
  | append_singleton changes change ih =>
    rw [after_concat, registrations, List.flatMap_append, List.flatMap_singleton]
    exact ih.apply change

/-! ## What is listed -/

theorem Records.mem_boards_iff (records : Records catalog registered) {kind : BoardKind}
    {id : BoardId} :
    id ∈ catalog.boards kind ↔ ∃ registration, registered[id]? = some registration ∧
      registration.kind = kind ∧
      ∃ name ∈ registration.board.names, catalog.find? kind name = some id := by
  rw [boards, Registry.mem_boards_iff, records.mem_order, NameIndex.mem_values_iff]
  constructor
  · rintro ⟨placed, key, here⟩
    obtain ⟨registration, there, own⟩ := Option.map_eq_some_iff.1 placed
    obtain ⟨name, member, rfl⟩ := records.keyed kind key id here
    change name ∈ (catalog.board id).names at member
    rw [board_names, records.names, there] at member
    exact ⟨registration, there, own, name, member, here⟩
  · rintro ⟨registration, there, own, name, -, here⟩
    exact ⟨by rw [there, Option.map_some, own], Text.lower name, here⟩

theorem registry_registerAll_of_ne (catalog : Catalog) {kind kind' : BoardKind}
    (other : kind' ≠ kind) (boards : List Board) :
    (catalog.registerAll kind boards).1.registry kind' = catalog.registry kind' := by
  induction boards generalizing catalog with
  | nil => rfl
  | cons board boards ih => exact (ih _).trans (registry_register_of_ne catalog other board)

theorem registry_apply_of_ne (catalog : Catalog) {kind : BoardKind} {change : Change}
    (others : ∀ registration ∈ change.registrations, registration.kind ≠ kind) :
    (catalog.apply change).registry kind = catalog.registry kind := by
  cases change with
  | register kind' board =>
    exact registry_register_of_ne catalog (others _ (List.mem_singleton_self _)).symm board
  | load kind' source =>
    rw [Catalog.apply, load_fst]
    by_cases own : kind = kind'
    · -- only a text without boards registers none of its own kind
      have nothing : (Definition.read source).boards = [] := by
        refine List.eq_nil_iff_forall_not_mem.2 fun board member => ?_
        exact others ⟨kind', board⟩ (List.mem_map_of_mem member) own.symm
      rw [nothing]
      rfl
    · exact registry_registerAll_of_ne catalog own _
  | link =>
    rw [Catalog.apply, relink_fst]
    rfl
  | reparent id parentName => rfl
  | plug board wing token =>
    exact congrFun (registry_of_wired (Wing.wired_plug catalog board wing token)) kind

/-- Whatever is registered and loaded, in whatever order: boards stand where they were registered, a
name of a kind leads to the last board of that kind that was registered under it, in any spelling,
and the boards of a kind that are listed are those to which one of their names leads, each once and
in the order in which they were registered. What is registered as another kind changes neither. -/
theorem last_registered_is_found (changes : List Change) (kind : BoardKind) :
    let catalog := after changes
    let registered := registrations changes
    (∀ id, (catalog.board? id).map (·.names) = registered[id]?.map (·.board.names)) ∧
      (∀ name, catalog.find? kind name = lastIndex? (·.answers kind name) registered) ∧
      (catalog.boards kind).Pairwise (· < ·) ∧
      (∀ id, id ∈ catalog.boards kind ↔ ∃ registration, registered[id]? = some registration ∧
        registration.kind = kind ∧
        ∃ name ∈ registration.board.names, catalog.find? kind name = some id) ∧
      ∀ change : Change, (∀ registration ∈ change.registrations, registration.kind ≠ kind) →
        (after (changes ++ [change])).find? kind = catalog.find? kind ∧
          (after (changes ++ [change])).boards kind = catalog.boards kind := by
  intro catalog registered
  have records : Records catalog registered := records_after changes
  refine ⟨records.names, records.find kind, ?_, fun id => records.mem_boards_iff,
    fun change others => ?_⟩
  · exact (records.order kind).filter _
  · have same := registry_apply_of_ne catalog others
    rw [after_concat]
    constructor
    · funext name
      exact congrArg (·.find? name) same
    · exact congrArg Registry.boards same

/-- Once all names of a board were taken by later ones, it is not listed any more. -/
example :
    let names := [["One", "Uno"], ["UNO"], ["one", "One"]]
    let catalog := after (names.map fun names => .register .board (.named names))
    catalog.find? .board "uno" = some 1 ∧ catalog.boards .board = [1, 2] := by
  decide +kernel

end Catalog

end Pinout
