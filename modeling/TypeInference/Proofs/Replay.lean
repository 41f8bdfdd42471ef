import Mathlib.Order.Basic
import TypeInference.Proofs.Deferred
import TypeInference.Proofs.GuardedPlace
import TypeInference.Proofs.WellFormed
import TypeInference.Tree

/-!
# What a request remembers

An operation that is performed a second time finds everything that it needs: values are
interned, annotations are read, calls are known.  This module says what it is for one
state to remember what another one knows, and for a step to be quiet, that is, to add
nothing to what is remembered.
-/

namespace TypeInference

open Inference

/-! ## Arenas -/

namespace Arena

variable {arena : Arena} {stored other : Value} {id : ValueId}

theorem find?_intern (arena : Arena) (stored : Value) :
    (arena.intern stored).2.find? stored = some (arena.intern stored).1 := by
  unfold intern
  cases found : arena.find? stored with
  | some id => exact found
  | none => exact Table.get?_insert_self _ _ _

/-- A value keeps its identifier when others are interned. -/
theorem find?_of_find?_intern (found : arena.find? other = some id) :
    (arena.intern stored).2.find? other = some id := by
  unfold intern
  cases present : arena.find? stored with
  | some _ => exact found
  | none =>
    have different : other ≠ stored := by
      rintro rfl
      rw [present] at found
      cases found
    exact (Table.get?_insert_of_ne _ different _).trans found

/-- A value that has an identifier is not added again. -/
theorem intern_of_find? (found : arena.find? stored = some id) :
    arena.intern stored = (id, arena) := by
  rw [intern, found]

end Arena

/-! ## States that remember others -/

/-- Everything that is known in a state is known later, and the same calls are computed. -/
structure State.Extends (state later : State) : Prop where
  value : ∀ {id : ValueId} {stored : Value},
    state.arena.get? id = some stored → later.arena.get? id = some stored
  interned : ∀ {stored : Value} {id : ValueId},
    state.arena.find? stored = some id → later.arena.find? stored = some id
  hint : ∀ {node : NodeId} {set : TypeSet},
    state.hints.get? node = some set → later.hints.get? node = some set
  subscript : ∀ {node : NodeId} {arguments : TypeArguments},
    state.subscripts.get? node = some arguments → later.subscripts.get? node = some arguments
  finished : ∀ {invocation : Invocation} {result : TypeSet},
    state.returns.get? invocation = some (.finished result) →
      later.returns.get? invocation = some (.finished result)
  running : ∀ invocation, later.returns.get? invocation = some .running ↔
    state.returns.get? invocation = some .running

/-- Nothing is added to what is remembered, and no guard is touched. -/
structure State.Quiet (state after : State) : Prop extends state.Undisturbed after where
  arena : after.arena = state.arena
  hints : after.hints = state.hints
  subscripts : after.subscripts = state.subscripts

namespace State

variable {state between after later : State}

theorem Extends.refl (state : State) : state.Extends state := ⟨id, id, id, id, id, fun _ => Iff.rfl⟩

theorem Extends.trans (first : state.Extends between) (second : between.Extends after) :
    state.Extends after where
  value found := second.value (first.value found)
  interned found := second.interned (first.interned found)
  hint found := second.hint (first.hint found)
  subscript found := second.subscript (first.subscript found)
  finished found := second.finished (first.finished found)
  running invocation := (second.running invocation).trans (first.running invocation)

theorem Quiet.refl (state : State) : state.Quiet state :=
  { Undisturbed.refl state with arena := rfl, hints := rfl, subscripts := rfl }

theorem Quiet.trans (first : state.Quiet between) (second : between.Quiet after) :
    state.Quiet after where
  returns := second.returns.trans first.returns
  nodeGuard := second.nodeGuard.trans first.nodeGuard
  budget := second.budget.trans first.budget
  memoMisses := second.memoMisses.trans first.memoMisses
  refusals := second.refusals.trans first.refusals
  journal := second.journal.trans first.journal
  arena := second.arena.trans first.arena
  hints := second.hints.trans first.hints
  subscripts := second.subscripts.trans first.subscripts

theorem Extends.of_same (arena : after.arena = state.arena) (hints : after.hints = state.hints)
    (subscripts : after.subscripts = state.subscripts) (returns : after.returns = state.returns) :
    state.Extends after := by
  constructor
  all_goals intros
  all_goals simp_all

theorem Extends.intern (state : State) (stored : Value) :
    state.Extends { state with arena := (state.arena.intern stored).2 } :=
  ⟨Arena.get?_of_le (Arena.le_intern state.arena stored), Arena.find?_of_find?_intern, id, id, id,
    fun _ => Iff.rfl⟩

theorem Quiet.extends (quiet : state.Quiet after) : state.Extends after :=
  .of_same quiet.arena quiet.hints quiet.subscripts quiet.returns

end State

end TypeInference
