import TypeInference.Proofs.Judgement.Request
import TypeInference.Proofs.Reachability

/-!
# A call without an end

A method that is bound to a callable may return a type variable whose bound is the
method itself.  The instances of the type variable are then what the method returns,
and nothing remembers that the method is being called already.  Such a call lacks
fuel, however much of it there is.
-/

namespace TypeInference

variable {arguments : Arguments} {id receiver callee method : ValueId}

namespace Inference

variable {α β : Type} {first : Inference α} {next : α → Inference β} {state : State}

theorem bind_of_error (fails : first state = .error fault) :
    (first >>= next) state = .error fault := by
  show (first state >>= fun pair => next pair.1 pair.2) = _
  rw [fails]
  rfl

end Inference

open Inference

/-- A method of a callable that returns a type variable whose bound is the method. -/
def Arena.ReturnsItself (arena : Arena) (declarations : Declarations) (method : ValueId) : Prop :=
  ∃ callee receiver returned variable_,
    arena.get? method = some (.boundMethod callee receiver) ∧
      arena.get? callee = some (.callable (.ofSlots [∅, .singleton returned])) ∧
      arena.get? returned = some (.typeVariable variable_) ∧
      declarations.typeVariables.fallback variable_ = .singleton method

namespace Engine

variable {engine : Engine} {state : State} {fault : Fault}

/-- A call of one value fails as the value does. -/
theorem executeSet_singleton_fails (fails : engine.executeValue arguments id state = .error fault) :
    engine.executeSet (.singleton id) arguments state = .error fault :=
  bind_of_error fails

theorem executeValue_boundMethod
    (found : state.arena.get? id = some (.boundMethod callee receiver)) :
    engine.executeValue arguments id state =
      engine.execute (.singleton callee) (.bound receiver arguments) state :=
  bind_of_ok (value_of_get? found)

theorem executeValue_callable (found : state.arena.get? id = some (.callable generics)) :
    engine.executeValue arguments id state = engine.callCallable generics arguments state :=
  bind_of_ok (value_of_get? found)

/-- The instances of a type variable that is bound by a method are what the method returns. -/
theorem instances_typeVariable_fails (deep : 0 < engine.settings.unificationDepthLimit)
    (methodFound : state.arena.get? method = some (.boundMethod callee receiver))
    (returnedFound : state.arena.get? returned = some (.typeVariable variable_))
    (fallback : engine.declarations.typeVariables.fallback variable_ = .singleton method)
    (fails : engine.execute (.singleton method) .empty state = .error fault) :
    engine.instances (.singleton returned) state = .error fault := by
  obtain ⟨levels, limit⟩ : ∃ levels, engine.settings.unificationDepthLimit = levels + 1 :=
    ⟨engine.settings.unificationDepthLimit - 1, by omega⟩
  have methodFails : engine.valueInstances (engine.instancesWithin levels) method state =
      .error fault := by
    rw [valueInstances, bind_of_ok (value_of_get? methodFound)]
    exact fails
  have nested : engine.instancesWithin (levels + 1) (.singleton method) state = .error fault :=
    bind_of_error methodFails
  have returnedFails : engine.valueInstances (engine.instancesWithin (levels + 1)) returned
      state = .error fault := by
    rw [valueInstances, bind_of_ok (value_of_get? returnedFound)]
    simp only [variableInstances, fallback]
    exact nested
  rw [instances, Engine.levels, limit]
  exact bind_of_error returnedFails

/-- A callable that takes no parameter list returns the instances of its second argument. -/
theorem callCallable_fails (fails : ∀ after : State, after.arena = state.arena →
      engine.instances returned after = .error fault) :
    engine.callCallable (.ofSlots [∅, returned]) (.bound receiver .empty) state = .error fault :=
  fails { state with cells := state.cells.push none } rfl

end Engine

namespace Environment

variable {env : Environment}

/-- A method that returns itself is called again and again, until there is no fuel left. -/
theorem answer_of_returnsItself (deep : 0 < env.settings.unificationDepthLimit)
    (returnsItself : state.arena.ReturnsItself env.declarations method) (fuel : Nat) :
    env.answer fuel (.execute (.singleton method) .empty) state = .error .outOfFuel := by
  obtain ⟨callee, receiver, returned, variable_, methodFound, calleeFound, returnedFound,
    fallback⟩ := returnsItself
  have declarations : ∀ fuel, (env.engine fuel).declarations = env.declarations :=
    fun fuel => by cases fuel <;> rfl
  have settings : ∀ fuel, (env.engine fuel).settings = env.settings :=
    fun fuel => by cases fuel <;> rfl
  -- Each turn spends fuel twice: on the method, and on the callable behind it.
  induction fuel using Nat.strongRecOn generalizing state with
  | ind fuel ih =>
  refine Engine.executeSet_singleton_fails ?_
  rw [Engine.executeValue_boundMethod methodFound]
  cases fuel with
  | zero => rfl
  | succ fuel =>
    refine Engine.executeSet_singleton_fails ?_
    rw [Engine.executeValue_callable calleeFound]
    refine Engine.callCallable_fails fun after same => ?_
    rw [← same] at methodFound calleeFound returnedFound
    refine Engine.instances_typeVariable_fails ?_ methodFound returnedFound ?_ ?_
    · rw [settings]
      exact deep
    · rw [declarations]
      exact fallback
    · cases fuel with
      | zero => rfl
      | succ fuel =>
        exact ih fuel (by omega) methodFound calleeFound returnedFound

end Environment

/-- A type variable that is bounded by a method of a callable, which returns the variable. -/
def World.selfReturning : World :=
  let (variable_, declared) := World.initial.declarations.addTypeVariable "T"
  { arena := World.initial.arena.append
      [.typeVariable variable_, .callable (.ofSlots [∅, .singleton ⟨19⟩]),
        .boundMethod ⟨20⟩ Arena.noneId]
    declarations := declared.setBound variable_ (.singleton ⟨21⟩) }

/-- In this well-formed world, and with no tree at all, calling the method never finishes. -/
theorem outOfFuel_of_selfReturning :
    let environment : Environment :=
      { declarations := World.selfReturning.declarations, provider := Tree.fixedProvider {} }
    World.selfReturning.WellFormed ∧
      Within environment.declarations World.selfReturning.arena.size (TypeSet.singleton ⟨21⟩) ∧
      ∀ fuel, environment.answer fuel (.execute (.singleton ⟨21⟩) .empty)
        (environment.start World.selfReturning.arena) = .error .outOfFuel := by
  intro environment
  refine ⟨.ofChecks (by decide +kernel) (by decide +kernel), by decide +kernel, fun fuel => ?_⟩
  refine Environment.answer_of_returnsItself (by decide) ?_ fuel
  exact ⟨⟨20⟩, Arena.noneId, ⟨19⟩, ⟨8⟩, by decide +kernel, by decide +kernel, by decide +kernel,
    by decide +kernel⟩

end TypeInference
