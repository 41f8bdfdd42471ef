import Mathlib.Data.List.Nodup
import TypeInference.Proofs.Watch

/-!
# The guards are restored

An operation that completes leaves the guards as it found them, whatever was refused on
the way: the nodes being inferred, the functions being executed and how deeply they
nest, and the calls being computed.  Throughout a run no node is being inferred twice,
and the depth of the executions is the number of functions on the stack.
-/

namespace TypeInference

open Inference

/-- No node is being inferred twice, and executions nest as deeply as the stack is high. -/
structure State.Guarded (state : State) : Prop where
  nodes : state.nodeGuard.active.Nodup
  depth : state.budget.depth = state.budget.active.length

theorem State.Guarded.of_restored {state after : State} (holds : state.Guarded)
    (restored : state.Restored after) :
    after.Guarded := by
  refine ⟨?_, ?_⟩
  · rw [restored.nodeGuard]
    exact holds.nodes
  · rw [restored.depth, restored.active]
    exact holds.depth

theorem invariant_guarded (settings : Settings) : Invariant settings State.Guarded where
  aside undisturbed holds := holds.of_restored undisturbed.restored
  enterNode inactive holds := ⟨List.nodup_cons.mpr ⟨inactive, holds.nodes⟩, holds.depth⟩
  leaveNode holds := ⟨holds.nodes.sublist (List.tail_sublist _), holds.depth⟩
  enterBody {state function} _ holds := by
    have entered := state.budget.enter_stack function false
    refine ⟨holds.nodes, ?_⟩
    show (state.budget.enter function false).1.depth =
      (state.budget.enter function false).1.active.length
    rw [entered.1, entered.2, holds.depth, List.length_cons]
  leaveBody {state _} holds := by
    refine ⟨holds.nodes, ?_⟩
    show state.budget.depth - 1 = state.budget.active.tail.length
    rw [holds.depth, List.length_tail]
  refuseBody {state _ _} holds := holds.of_restored (.refuseBody state)
  startCall _ holds := ⟨holds.nodes, holds.depth⟩
  finishCall _ holds := ⟨holds.nodes, holds.depth⟩

/--
Whatever the tree asks for, every operation that completes restores the guards, and they
are in order whenever an operation is entered or returns, in every run.
-/
theorem guards_restored
    (environment : Environment)
    (fuel : Nat) :
    (∀ {α : Type} (operation : Operation α) (state after : State) (answer : α),
      environment.answer fuel operation state = .ok (answer, after) →
      state.Restored after) ∧
    ∀ {α : Type} (program : Program α) (arena : Arena),
      environment.Maintains State.Guarded fuel program (environment.start arena) := by
  refine ⟨fun operation state after answer completed => ?_, fun program arena => ?_⟩
  · exact environment.restores_answer completed
  · exact environment.maintains (invariant_guarded _) id fuel program ⟨List.nodup_nil, rfl⟩

/-- A tree with one node, which is what it evaluates to itself. -/
def selfReferring : Environment :=
  { declarations := {}, provider := { inferNode := fun node => .perform (.inferNode node) } }

/-- The node is refused inside, and the guards are restored all the same. -/
theorem guards_restored_of_selfReferring :
    ∃ after, selfReferring.answer 2 (.inferNode ⟨7⟩) (selfReferring.start .initial) =
        .ok (∅, after) ∧
      after.events = #[.nodeRecursion ⟨7⟩] ∧
      (selfReferring.start .initial).Restored after :=
  ⟨_, rfl, rfl, (guards_restored selfReferring 2).1 (.inferNode ⟨7⟩) _ _ _ rfl⟩

end TypeInference
