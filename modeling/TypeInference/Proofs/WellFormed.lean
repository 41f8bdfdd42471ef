import TypeInference.Proofs.Scope.Operation

/-!
# Well-formed worlds

In a well-formed world every value is stored once and refers only to values stored
before it and to declarations that exist.  A request is well formed when its world
is and when everything it remembers is within that world.  Interning a value that is
within the world keeps the world well formed and every identifier as it was.
-/

namespace TypeInference

variable {value : Value} {arena later : Arena} {id : ValueId} {values : Array Value}
  {limit position : Nat}

variable {declarations : Declarations}

/-! ## Arenas -/

namespace Arena

/-- One arena continues another if it begins with the same values. -/
instance : LE Arena := ⟨fun arena later => arena.values.toList <+: later.values.toList⟩

theorem le_refl (arena : Arena) : arena ≤ arena := List.prefix_refl arena.values.toList

theorem le_trans {first second third : Arena} (earlier : first ≤ second) (later : second ≤ third) :
    first ≤ third :=
  List.IsPrefix.trans earlier later

theorem size_le_of_le (continues : arena ≤ later) : arena.size ≤ later.size := by
  have lengths := List.IsPrefix.length_le continues
  simpa [size] using lengths

theorem lt_size_of_get? (stored : arena.get? id = some value) : id.index < arena.size :=
  (Array.getElem?_eq_some_iff.mp stored).1

theorem exists_get? (within : id.index < arena.size) : ∃ value, arena.get? id = some value :=
  ⟨arena.values[id.index], Array.getElem?_eq_getElem within⟩

/-- No identifier ever changes its meaning. -/
theorem get?_of_le (continues : arena ≤ later) (stored : arena.get? id = some value) :
    later.get? id = some value := by
  unfold get? at stored ⊢
  rw [← Array.getElem?_toList] at stored ⊢
  obtain ⟨within, rfl⟩ := List.getElem?_eq_some_iff.mp stored
  exact List.prefix_iff_getElem?.mp continues id.index within

theorem get?_of_find? (found : arena.find? value = some id) : arena.get? id = some value :=
  arena.located found

theorem get?_ne_of_find?_eq_none (absent : arena.find? value = none) (id : ValueId) :
    arena.get? id ≠ some value :=
  fun stored => arena.listed (Array.mem_of_getElem? stored) absent

/-- Interning stores the value behind all others, unless it is stored already. -/
theorem intern_cases (arena : Arena) (value : Value) :
    (∃ id, arena.intern value = (id, arena) ∧ arena.get? id = some value) ∨
      (arena.intern value = (⟨arena.size⟩, arena.push value) ∧
        ∀ id, arena.get? id ≠ some value) := by
  cases found : arena.find? value with
  | some id => exact Or.inl ⟨id, by simp [intern, found], get?_of_find? found⟩
  | none => exact Or.inr ⟨by simp [intern, found, size], get?_ne_of_find?_eq_none found⟩

theorem le_push (arena : Arena) (value : Value) : arena ≤ arena.push value := by
  show arena.values.toList <+: (arena.values.push value).toList
  rw [Array.toList_push]
  exact List.prefix_append _ _

theorem get?_push (found : (arena.push value).get? id = some stored) :
    arena.get? id = some stored ∨ (id.index = arena.size ∧ stored = value) := by
  have found : (arena.values.push value)[id.index]? = some stored := found
  rw [Array.getElem?_push] at found
  split at found
  · rename_i last
    cases found
    exact Or.inr ⟨last, rfl⟩
  · exact Or.inl found

theorem get?_push_self (arena : Arena) (value : Value) :
    (arena.push value).get? ⟨arena.size⟩ = some value :=
  Array.getElem?_push_size

end Arena

/-! ## Worlds -/

/--
A well-formed world: values are stored once, the index leads to exactly where each of them
is, the constants are in their places, every value refers to earlier values and to
existing declarations only, and so do the declarations.
-/
structure World.WellFormed (world : World) : Prop where
  distinct : world.arena.values.toList.Nodup
  indexed : ∀ value id, world.arena.find? value = some id ↔ world.arena.get? id = some value
  noneStored : world.arena.get? Arena.noneId = some .none
  anyStored : world.arena.get? Arena.anyId = some .any
  ellipsisStored : world.arena.get? Arena.ellipsisId = some .ellipsis
  descending : ∀ id value, world.arena.get? id = some value →
    Within world.declarations id.index value
  declared : world.declarations.InScope world.arena.size

/-- Values that are stored once are found where they are stored. -/
theorem Arena.find?_eq_some_iff (distinct : arena.values.toList.Nodup) (value : Value)
    (id : ValueId) :
    arena.find? value = some id ↔ arena.get? id = some value := by
  refine ⟨Arena.get?_of_find?, fun stored => ?_⟩
  cases found : arena.find? value with
  | none => exact absurd stored (Arena.get?_ne_of_find?_eq_none found id)
  | some other =>
    have otherStored := Arena.get?_of_find? found
    unfold Arena.get? at stored otherStored
    rw [← Array.getElem?_toList] at stored otherStored
    have within := (List.getElem?_eq_some_iff.mp stored).1
    have same : id.index = other.index :=
      (List.getElem?_inj within distinct).mp (stored.trans otherStored.symm)
    cases id
    cases other
    simp only at same
    rw [same]

namespace World.WellFormed

variable {arena : Arena}

theorem within_of_get? (wellFormed : World.WellFormed ⟨arena, declarations⟩)
    (stored : arena.get? id = some value) :
    Within declarations arena.size value :=
  (wellFormed.descending id value stored).grow (Nat.le_of_lt (Arena.lt_size_of_get? stored))

/-- Interning a value that is within a well-formed world keeps it well formed. -/
theorem intern (wellFormed : World.WellFormed ⟨arena, declarations⟩)
    (within : Within declarations arena.size value) :
    World.WellFormed ⟨(arena.intern value).2, declarations⟩ := by
  rcases Arena.intern_cases arena value with ⟨id, interned, -⟩ | ⟨interned, absent⟩
  · rw [interned]
    exact wellFormed
  · rw [interned]
    have continues := Arena.le_push arena value
    have distinct : (arena.values.push value).toList.Nodup := by
      rw [Array.toList_push, List.nodup_append]
      refine ⟨wellFormed.distinct, by simp, ?_⟩
      intro other member last lastMember same
      obtain ⟨position, holds⟩ := List.mem_iff_getElem?.mp member
      rw [same, List.mem_singleton.mp lastMember] at holds
      rw [Array.getElem?_toList] at holds
      exact absent ⟨position⟩ holds
    exact
      { distinct := distinct
        indexed := Arena.find?_eq_some_iff distinct
        noneStored := Arena.get?_of_le continues wellFormed.noneStored
        anyStored := Arena.get?_of_le continues wellFormed.anyStored
        ellipsisStored := Arena.get?_of_le continues wellFormed.ellipsisStored
        descending := by
          intro id stored found
          rcases Arena.get?_push found with old | ⟨last, rfl⟩
          · exact wellFormed.descending id stored old
          · rw [last]
            exact within
        declared := wellFormed.declared.grow (Arena.size_le_of_le continues) }

end World.WellFormed

theorem Arena.le_intern (arena : Arena) (value : Value) : arena ≤ (arena.intern value).2 := by
  rcases Arena.intern_cases arena value with ⟨id, interned, -⟩ | ⟨interned, -⟩
  · rw [interned]
    exact Arena.le_refl arena
  · rw [interned]
    exact Arena.le_push arena value

theorem Arena.get?_intern (arena : Arena) (value : Value) :
    (arena.intern value).2.get? (arena.intern value).1 = some value := by
  rcases Arena.intern_cases arena value with ⟨id, interned, stored⟩ | ⟨interned, -⟩
  · rw [interned]
    exact stored
  · rw [interned]
    exact Arena.get?_push_self arena value

/-! ## Requests -/

/-- A request whose world is well formed and that remembers only what is within it. -/
structure State.WellFormed (declarations : Declarations) (state : State) : Prop where
  world : World.WellFormed ⟨state.arena, declarations⟩
  hints : ∀ node set, state.hints.get? node = some set →
    Within declarations state.arena.size set
  subscripts : ∀ node arguments, state.subscripts.get? node = some arguments →
    Within declarations state.arena.size arguments
  returns : ∀ invocation result, state.returns.get? invocation = some (.finished result) →
    Within declarations state.arena.size result
  cells : ∀ (index : Nat) answer, state.cells[index]? = some (some answer) →
    Within declarations state.arena.size answer

namespace State.WellFormed

variable {state : State}

/-- A request that has remembered nothing yet is well formed if its world is. -/
theorem ofWorld (wellFormed : World.WellFormed ⟨arena, declarations⟩) (budget : ExecutionBudget) :
    State.WellFormed declarations { arena := arena, budget := budget } where
  world := wellFormed
  hints := fun _ _ found => nomatch found
  subscripts := fun _ _ found => nomatch found
  returns := fun _ _ found => nomatch found
  cells := fun index answer found => by simp at found

section

variable (wellFormed : state.WellFormed declarations)

include wellFormed

theorem intern (within : Within declarations state.arena.size value) :
    State.WellFormed declarations { state with arena := (state.arena.intern value).2 } := by
  have larger : state.arena.size ≤ (state.arena.intern value).2.size :=
    Arena.size_le_of_le (Arena.le_intern state.arena value)
  exact
    { world := wellFormed.world.intern within
      hints := fun node set found => (wellFormed.hints node set found).grow larger
      subscripts := fun node arguments found =>
        (wellFormed.subscripts node arguments found).grow larger
      returns := fun invocation result found =>
        (wellFormed.returns invocation result found).grow larger
      cells := fun index answer found => (wellFormed.cells index answer found).grow larger }

theorem rememberHint {set : TypeSet} (within : Within declarations state.arena.size set)
    (node : NodeId) :
    State.WellFormed declarations { state with hints := state.hints.insert node set } where
  world := wellFormed.world
  hints := by
    intro other found stored
    by_cases same : other = node
    · rw [same, Table.get?_insert_self] at stored
      cases stored
      exact within
    · rw [Table.get?_insert_of_ne _ same] at stored
      exact wellFormed.hints other found stored
  subscripts := wellFormed.subscripts
  returns := wellFormed.returns
  cells := wellFormed.cells

theorem rememberSubscript (within : Within declarations state.arena.size arguments)
    (node : NodeId) :
    State.WellFormed declarations
      { state with subscripts := state.subscripts.insert node arguments } where
  world := wellFormed.world
  hints := wellFormed.hints
  subscripts := by
    intro other found stored
    by_cases same : other = node
    · rw [same, Table.get?_insert_self] at stored
      cases stored
      exact within
    · rw [Table.get?_insert_of_ne _ same] at stored
      exact wellFormed.subscripts other found stored
  returns := wellFormed.returns
  cells := wellFormed.cells

theorem setProgress
    (within : ∀ result, progress = .finished result → Within declarations state.arena.size result)
    (invocation : Invocation) (journal : List Mark) :
    State.WellFormed declarations
      { state with returns := state.returns.insert invocation progress, journal := journal } where
  world := wellFormed.world
  hints := wellFormed.hints
  subscripts := wellFormed.subscripts
  returns := by
    intro other result stored
    by_cases same : other = invocation
    · rw [same, Table.get?_insert_self] at stored
      exact within result (Option.some.inj stored)
    · rw [Table.get?_insert_of_ne _ same] at stored
      exact wellFormed.returns other result stored
  cells := wellFormed.cells

theorem appendCells (count : Nat) :
    State.WellFormed declarations
      { state with cells := state.cells ++ Array.replicate count none } where
  world := wellFormed.world
  hints := wellFormed.hints
  subscripts := wellFormed.subscripts
  returns := wellFormed.returns
  cells := by
    intro index answer stored
    rw [Array.getElem?_append] at stored
    split at stored
    · exact wellFormed.cells index answer stored
    · rw [Array.getElem?_replicate] at stored
      split at stored <;> cases stored

theorem pushCell : State.WellFormed declarations { state with cells := state.cells.push none } where
  world := wellFormed.world
  hints := wellFormed.hints
  subscripts := wellFormed.subscripts
  returns := wellFormed.returns
  cells := by
    intro index answer stored
    rw [Array.getElem?_push] at stored
    split at stored
    · cases stored
    · exact wellFormed.cells index answer stored

theorem fillCell (within : Within declarations state.arena.size answer) (cell : CellId) :
    State.WellFormed declarations
      { state with
        cells := state.cells.modify cell.index (fun present => present.or (some answer)) } where
  world := wellFormed.world
  hints := wellFormed.hints
  subscripts := wellFormed.subscripts
  returns := wellFormed.returns
  cells := by
    intro index found stored
    rw [Array.getElem?_modify] at stored
    split at stored
    · obtain ⟨present, presentStored, filled⟩ := Option.map_eq_some_iff.mp stored
      cases present with
      | none =>
        cases filled
        exact within
      | some old =>
        cases filled
        exact wellFormed.cells index found presentStored
    · exact wellFormed.cells index found stored

end

end State.WellFormed

end TypeInference
