import TypeInference.Proofs.Judgement.Execution

/-!
# Operations and programs keep a request well formed

If the questions that are put to the engine are answered within the scope, then so
is every operation, and so is every program that asks for operations within the
scope.
-/

namespace TypeInference

def Operation.internsFunctions {α : Type} : Operation α → Bool
  | .intern _ | .readAttribute _ _ => true
  | _ => false

namespace Judgement

variable {env : Environment} {judgement : Judgement env} {bound : Nat}

open Inference

/-- An operation within the scope is answered within the scope. -/
def Answers {α : Type} (judgement : Judgement env) (bound : Nat) (operation : Operation α)
    (step : Nat → Inference α) : Prop :=
  operation.InScope env.declarations bound →
    judgement.Keeps bound step fun later answer =>
      operation.Answers env.declarations later answer

/-- Programs stay within the scope if the operations they ask for do. -/
theorem yields_run {answer : Nat → {β : Type} → Operation β → Inference β}
    (answers : ∀ {β : Type} (operation : Operation β) bound,
      judgement.Answers bound operation fun fuel => answer fuel operation)
    {program : Program TypeSet} (inScope : program.InScope env.declarations bound) :
    judgement.Yields bound fun fuel => program.run (answer fuel) := by
  induction program generalizing bound with
  | done result => exact yields_pure inScope
  | ask operation next ih =>
    refine Keeps.bind (answers operation bound inScope.1) fun later reply larger replied => ?_
    exact ih reply (inScope.2 later reply larger replied)

/-- What the engine is asked is answered within the scope. -/
structure Serves (judgement : Judgement env) : Prop where
  reads : judgement.Reads
  bodies : judgement.Bodies
  notes : judgement.Notes
  executes : ∀ bound set arguments, Within env.declarations bound set →
    Within env.declarations bound arguments →
    judgement.Yields bound fun fuel => (env.stage fuel).execute set arguments

theorem Serves.calls (serves : judgement.Serves) : judgement.Calls :=
  fun bound _ within _ => serves.executes bound _ .empty (within_singleton within) within_nil

theorem Serves.matched (serves : judgement.Serves) : judgement.Matches :=
  fun _ bound set within => serves.executes bound set .empty within within_nil

theorem yields_inferNodeOnce (node : NodeId) (program : ∀ bound, judgement.Yields bound fun fuel =>
      (env.stage fuel).runProgram (env.provider.inferNode node)) :
    judgement.Stages bound (·.inferNodeOnce node) := by
  refine Yields.bind (yields_count _) fun _ _ _ _ => ?_
  refine Keeps.bind keeps_get fun _ state _ _ => ?_
  cases state.nodeGuard.enter? node with
  | none => exact yields_emit_pure _ within_empty
  | some guard =>
    have entered : ∀ {later : Nat}, judgement.Yields later fun _ =>
        (modify fun state => { state with nodeGuard := guard } : Inference Unit) :=
      yields_modify_aside fun _ => ⟨rfl, rfl, rfl, rfl, rfl⟩
    have left : ∀ {later : Nat}, judgement.Yields later fun _ =>
        (modify fun state => { state with nodeGuard := state.nodeGuard.leave } : Inference Unit) :=
      yields_modify_aside fun _ => ⟨rfl, rfl, rfl, rfl, rfl⟩
    refine Yields.bind entered fun later _ _ _ => ?_
    refine Yields.bind (program later) fun _ result _ resultWithin => ?_
    exact Yields.bind left fun _ _ larger _ => yields_pure (resultWithin.grow larger)

theorem yields_executeSet (serves : judgement.Serves) {set : TypeSet}
    (within : env.Scopes bound set) (argumentsWithin : env.Scopes bound arguments) :
    judgement.Stages bound (·.executeSet set arguments) := by
  refine yields_unionOver fun id member => ?_
  refine yields_executeValue serves.reads serves.calls serves.matched ?_ ?_ argumentsWithin
    (within id member)
  · intro later function larger functionWithin
    exact yields_returnType serves.reads serves.calls serves.matched serves.bodies serves.notes
      functionWithin (argumentsWithin.grow larger)
  · intro later callee receiver larger below receiverWithin
    have calleeWithin : env.Scopes later callee :=
      Nat.lt_trans below (Nat.lt_of_lt_of_le (within id member) larger)
    exact serves.executes later _ _ (within_singleton calleeWithin)
      ⟨receiverWithin, argumentsWithin.grow larger⟩

/-- Operations within the scope that intern no functions are answered within the scope. -/
theorem Serves.performs (serves : judgement.Serves)
    (nodes : ∀ bound node, judgement.Yields bound fun fuel =>
      (env.stage fuel).runProgram (env.provider.inferNode node))
    (internsNone : operation.internsFunctions = false) (bound : Nat) :
    judgement.Answers bound operation fun fuel => (env.stage fuel).perform operation := by
  have reads := serves.reads
  have calls := serves.calls
  have matched := serves.matched
  intro inScope
  cases operation with
  | intern stored => cases internsNone
  | value id => exact yields_value inScope
  | inferNode node => exact yields_inferNodeOnce node (nodes · node)
  | readHint node => exact yields_readHint reads node
  | parameterType function index => exact yields_parameterType reads calls inScope index
  | typeArguments generics => exact yields_typeArguments reads inScope
  | classOf id => exact yields_classOf inScope
  | classesOf set => exact yields_classesOf inScope
  | resolutionOrder id => exact yields_resolutionOrder reads inScope
  | ancestor id class_ => exact yields_ancestor? reads inScope.1 class_
  | instances set => exact yields_instances reads calls inScope
  | execute set arguments => exact yields_executeSet serves inScope.1 inScope.2
  | returnType function arguments =>
    exact yields_returnType reads calls matched serves.bodies serves.notes inScope.1 inScope.2
  | elements id => exact yields_elements reads calls inScope
  | iterate set => exact yields_iterate reads calls inScope
  | elementSet set => exact yields_elementSet reads calls inScope
  | readAttribute set name => cases internsNone
  | readItem set index => exact yields_readItem reads calls inScope index
  | typedDictKeys class_ =>
    exact (yields_typedDictKeys reads inScope).imp fun _ _ _ _ => trivial
  | typedDictField class_ key => exact yields_typedDictField reads calls inScope key
  | unify hint actual => exact yields_unify reads calls matched inScope.1 inScope.2
  | freeVariables set =>
    exact (yields_freeVariables reads inScope).imp fun _ _ _ _ => trivial
  | inferVariables function arguments =>
    exact yields_inferVariables reads calls matched inScope.1 inScope.2
  | substitute set substitution => exact yields_substitute reads inScope.1 inScope.2
  | classBindings id => exact yields_classBindings reads inScope
  | unpack arguments function sink =>
    exact yields_unpack reads (fun _ => calls) inScope.1 inScope.2 sink
  | bind function arguments sink =>
    exact yields_bind reads inScope.1 (fun _ => calls) inScope.2 sink
  | accepts parameter => exact (yields_accepts reads inScope).imp fun _ _ _ _ => trivial
  | matchSignature arguments signature =>
    exact yields_matchSignature reads calls inScope signature
  | resolve deferred => exact yields_resolve reads deferred bound inScope

end Judgement

end TypeInference
