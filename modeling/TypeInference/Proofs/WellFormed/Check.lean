import TypeInference.Proofs.WellFormed

/-!
# Checking that a world is well formed

Scopes are decidable, and a world is well formed if finitely many checks on its
arena and its declarations pass.  The world that every analysis starts from passes.
-/

namespace TypeInference

/-! ## Scopes are decidable -/

section Decidable

variable {declarations : Declarations} {bound : Nat}

instance (id : ValueId) : Decidable (Within declarations bound id) :=
  inferInstanceAs (Decidable (id.index < bound))

instance (class_ : ClassId) : Decidable (Within declarations bound class_) :=
  inferInstanceAs (Decidable (class_.index < declarations.classes.size))

instance (function : FunctionId) : Decidable (Within declarations bound function) :=
  inferInstanceAs (Decidable (function.index < declarations.functions.size))

instance (text : String) : Decidable (Within declarations bound text) :=
  .isTrue trivial

instance {α : Type} [Scoped α] [∀ item : α, Decidable (Within declarations bound item)]
    (items : List α) : Decidable (Within declarations bound items) :=
  inferInstanceAs (Decidable (∀ item ∈ items, Within declarations bound item))

instance {α β : Type} [Scoped α] [Scoped β] [∀ item : α, Decidable (Within declarations bound item)]
    [∀ item : β, Decidable (Within declarations bound item)]
    (pair : α × β) : Decidable (Within declarations bound pair) :=
  inferInstanceAs
    (Decidable (Within declarations bound pair.1 ∧ Within declarations bound pair.2))

instance (set : TypeSet) : Decidable (Within declarations bound set) :=
  inferInstanceAs (Decidable (Within declarations bound set.members))

instance (substitution : Substitution) : Decidable (Within declarations bound substitution) :=
  inferInstanceAs
    (Decidable (∀ binding ∈ substitution.bindings, Within declarations bound binding.set))

instance (arguments : TypeArguments) : Decidable (Within declarations bound arguments) :=
  inferInstanceAs (Decidable (Within declarations bound arguments.slots))

instance (generics : Generics) : Decidable (Within declarations bound generics) :=
  match generics with
  | .resolved arguments => inferInstanceAs (Decidable (Within declarations bound arguments))
  | .lazy _ => .isTrue trivial

instance (group : MethodGroup) : Decidable (Within declarations bound group) :=
  inferInstanceAs (Decidable (Within declarations bound group.signatures))

instance (stored : Value) : Decidable (Within declarations bound stored) :=
  match stored with
  | .classObject class_ | .typedDict class_ =>
    inferInstanceAs (Decidable (Within declarations bound class_))
  | .genericClass class_ generics | .instanceOf class_ generics =>
    inferInstanceAs
      (Decidable (Within declarations bound class_ ∧ Within declarations bound generics))
  | .special _ generics | .callable generics | .tuple generics =>
    inferInstanceAs (Decidable (Within declarations bound generics))
  | .typeList items | .packedTuple items =>
    inferInstanceAs (Decidable (Within declarations bound items))
  | .packedDict entries => inferInstanceAs (Decidable (Within declarations bound entries))
  | .function callee => inferInstanceAs (Decidable (Within declarations bound callee))
  | .overloaded functions => inferInstanceAs (Decidable (Within declarations bound functions))
  | .boundMethod callee receiver =>
    inferInstanceAs
      (Decidable (Within declarations bound callee ∧ Within declarations bound receiver))
  | .exactly described => inferInstanceAs (Decidable (Within declarations bound described))
  | .typeVariable _ | .literal _ | .any | .none | .ellipsis => .isTrue trivial

end Decidable

/-! ## Checks -/

/-- A value that a table gives a key stands in its listing. -/
theorem Table.mem_entries_of_get? [DecidableEq κ] {table : Table κ ν} {value : ν}
    (found : table.get? key = some value) :
    (key, value) ∈ table.entries := by
  obtain ⟨entries⟩ := table
  unfold Table.get? at found
  induction entries with
  | nil => cases found
  | cons entry rest ih =>
    obtain ⟨present, stored⟩ := entry
    simp only [Table.find] at found
    split at found
    · rename_i same
      cases found
      simp [same]
    · exact List.mem_cons_of_mem _ (ih found)

abbrev World.ArenaPasses (world : World) : Prop :=
  world.arena.values.toList.Nodup ∧
    world.arena.get? Arena.noneId = some .none ∧
    world.arena.get? Arena.anyId = some .any ∧
    world.arena.get? Arena.ellipsisId = some .ellipsis ∧
    ∀ entry ∈ world.arena.values.toList.zipIdx, Within world.declarations entry.2 entry.1

abbrev World.DeclarationsPass (world : World) : Prop :=
  Within world.declarations world.arena.size Builtin.dict ∧
    (∀ class_ ∈ world.declarations.classes.toList,
      Within world.declarations world.arena.size class_.bases ∧
        ∀ entry ∈ class_.methods.entries,
          Within world.declarations world.arena.size entry.2) ∧
    (∀ entry ∈ world.declarations.typeVariables.bounds.entries,
      Within world.declarations world.arena.size entry.2) ∧
    ∀ entry ∈ world.declarations.typeVariables.constraints.entries,
      Within world.declarations world.arena.size entry.2

/-- A world that passes the checks is well formed. -/
theorem World.WellFormed.ofChecks {world : World} (arena : world.ArenaPasses)
    (declarations : world.DeclarationsPass) :
    world.WellFormed := by
  obtain ⟨distinct, noneStored, anyStored, ellipsisStored, descending⟩ := arena
  obtain ⟨builtins, classes, bounds, constraints⟩ := declarations
  refine
    { distinct := distinct
      indexed := Arena.find?_eq_some_iff distinct
      noneStored := noneStored
      anyStored := anyStored
      ellipsisStored := ellipsisStored
      descending := ?_
      declared := ⟨builtins, ?_, ?_, ?_⟩ }
  · intro id stored found
    refine descending (stored, id.index) ?_
    rw [List.mk_mem_zipIdx_iff_getElem?, Array.getElem?_toList]
    exact found
  · intro id class_ found
    obtain ⟨basesWithin, methodsWithin⟩ :=
      classes class_ (Array.mem_toList_iff.mpr (Array.mem_of_getElem? found))
    exact ⟨basesWithin, fun name group present =>
      methodsWithin (name, group) (Table.mem_entries_of_get? present)⟩
  · intro variable_ set found
    exact bounds (variable_, set) (Table.mem_entries_of_get? found)
  · intro variable_ set found
    exact constraints (variable_, set) (Table.mem_entries_of_get? found)

/-- The world that every analysis starts from is well formed. -/
theorem World.initial_wellFormed : World.initial.WellFormed :=
  .ofChecks (by decide +kernel) (by decide +kernel)

end TypeInference
