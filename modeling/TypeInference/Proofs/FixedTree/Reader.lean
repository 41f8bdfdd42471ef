import TypeInference.Proofs.FixedTree

/-!
# Engines that make no calls

Much of what an engine does over a tree of fixed nodes makes no calls.  Such steps are the
same for an engine that gives up when it is asked for a call, and what such an engine does
is easily known: it does the same with every fuel, it can be repeated, and it does not
depend on which calls are being computed.
-/

namespace TypeInference

open Inference

variable {α : Type} {state after : State}

def Operation.isCall {α : Type} : Operation α → Bool
  | .execute _ _ => true
  | _ => false

/-- An engine that gives up when it is asked for a call. -/
def Engine.withoutCalls (engine : Engine) : Engine :=
  engine.asking fun operation =>
    if operation.isCall then throw .outOfFuel else engine.ask operation

/-- An engine with just enough fuel to read annotations, which makes no calls. -/
def Environment.reader (environment : Environment) : Engine :=
  (environment.stage 1).withoutCalls

/-- A step that all engines take alike. -/
def Parametric {α : Type} (step : Engine → Inference α) : Prop :=
  ∀ {engine : Engine} (pairing : Pairing engine), pairing.Sinks .discarding .discarding →
    pairing.Fits (step engine) (step pairing.other)

/-! ## Steps that ask for annotations only -/

/-- Another way to answer that makes no difference to nodes and names. -/
structure Engine.ReadsAlike (engine : Engine)
    (ask : {α : Type} → Operation α → Inference α) : Prop where
  node : ∀ node, ask (.inferNode node) = engine.ask (.inferNode node)
  name : ∀ name, (engine.provider.resolveName name).run ask =
    (engine.provider.resolveName name).run engine.ask

namespace Engine.ReadsAlike

variable {engine : Engine} {ask : {α : Type} → Operation α → Inference α}
  (alike : engine.ReadsAlike ask)

include alike

theorem readHint : (engine.asking ask).readHint = engine.readHint := by
  funext node
  unfold Engine.readHint Engine.followReference Engine.inferNode Engine.runProgram
  simp only [alike.node, alike.name]

theorem typeArguments : (engine.asking ask).typeArguments = engine.typeArguments := by
  funext generics
  cases generics with
  | resolved _ => rfl
  | lazy node =>
    unfold Engine.typeArguments
    simp only [alike.readHint]

theorem collectWithin (levels : Nat) :
    (engine.asking ask).collectWithin levels = engine.collectWithin levels := by
  induction levels with
  | zero => rfl
  | succ levels ih =>
    funext found set
    unfold Engine.collectWithin Engine.collectValue
    simp only [ih, alike.typeArguments]

theorem freeVariables : (engine.asking ask).freeVariables = engine.freeVariables := by
  funext set
  exact congrFun (congrFun (alike.collectWithin _) []) set

theorem substituteWithin (substitution : Substitution) (levels : Nat) :
    (engine.asking ask).substituteWithin substitution levels =
      engine.substituteWithin substitution levels := by
  induction levels with
  | zero => rfl
  | succ levels ih =>
    funext set
    unfold Engine.substituteWithin Engine.substituteValue Engine.substituteGenerics
    simp only [ih, alike.typeArguments]

theorem substitute : (engine.asking ask).substitute = engine.substitute := by
  funext set substitution
  unfold Engine.substitute
  rw [alike.substituteWithin]
  rfl

theorem classBindings : (engine.asking ask).classBindings = engine.classBindings := by
  funext id
  unfold Engine.classBindings
  simp only [alike.typeArguments]
  rfl

theorem ancestors : (engine.asking ask).ancestors = engine.ancestors := by
  have visits (bound : Nat) : (engine.asking ask).visitWithin bound = engine.visitWithin bound := by
    induction bound with
    | zero => rfl
    | succ bound ih =>
      funext reached id
      unfold Engine.visitWithin Engine.visitBases
      simp only [ih, alike.classBindings, alike.substitute]
      rfl
  funext id
  exact congrFun (congrFun (visits _) []) id

end Engine.ReadsAlike

/-! ## Reading a tree of fixed nodes -/

namespace Environment

variable {env : Environment} {tree : Tree} (provider : env.provider = tree.fixedProvider)

include provider

/-- With fuel, a node answers what the tree fixes for it, unless it is being inferred. -/
theorem inferNode_stage_succ (fuel : Nat) (node : NodeId) :
    (env.stage (fuel + 1)).ask (.inferNode node) = guarded node (pure (tree.fixedSet node)) := by
  rw [env.ask_stage_succ]
  show (env.stage fuel).inferNodeOnce node = _
  rw [Engine.inferNodeOnce_eq_guarded, env.stage_toEnvironment, provider]
  rfl

/-- The fuel makes no difference to nodes and names. -/
theorem readsAlike_stage (fuel : Nat) : env.reader.ReadsAlike (env.stage (fuel + 1)).ask where
  node node := by
    have reads : env.reader.ask (.inferNode node) = (env.stage 1).ask (.inferNode node) := rfl
    rw [reads, inferNode_stage_succ provider, inferNode_stage_succ provider]
  name name := by
    have known : env.reader.provider.resolveName name = .done ((tree.names.get? name).getD ∅) := by
      show env.provider.resolveName name = _
      rw [provider]
      rfl
    rw [known]
    rfl

theorem consults_reader : env.reader.Consults tree := by
  intro node state after set idle inferred
  exact consults_stage provider 1 idle inferred

/-- What the reader remembers of annotations is what they evaluate to. -/
theorem reads_reader : env.reader.Reads tree.Informing where
  asks operation := by
    show Conserves tree.Informing
      (if operation.isCall then throw .outOfFuel else (env.stage 1).ask operation)
    split
    · exact .throw _ _
    · exact (env.abides_informing provider 1).asks operation
  hints node := fun _ _ _ succeeds informs =>
    (informs_readHint provider (consults_reader provider) informs succeeds).2.2
  subscripts generics := fun _ _ _ succeeds informs =>
    (informs_typeArguments provider (consults_reader provider) informs succeeds).2.2

variable {step : Engine → Inference α} {answer : α}

theorem informs_of_parametric (parametric : Parametric step) (informs : tree.Informs state)
    (ran : step env.reader state = .ok (answer, after)) :
    tree.Informs after :=
  conserves_of_fits tree.conserved_informing (reads_reader provider) (parametric _ rfl) _ _ _
    ran informs

/-- What the reader did can be repeated wherever all that it left behind is known. -/
theorem repeats_reader (parametric : Parametric step) :
    Repeats (step env.reader) (step env.reader) := by
  have stages := rehearsed_of_le provider (Nat.le_refl 1)
  have rehearsed : env.reader.Rehearsed tree env.reader.ask := by
    refine ⟨stages.provider, fun {α operation} repeatable => ?_, stages.resolves⟩
    show Repeats (if operation.isCall then throw .outOfFuel else (env.stage 1).ask operation)
      (if operation.isCall then throw .outOfFuel else (env.stage 1).ask operation)
    split
    · exact ⟨nofun, nofun⟩
    · exact stages.answers repeatable
  exact repeats_of_tracks fun known? =>
    parametric (rehearsed.suits known?).pairing (rehearsed.suits known?).discarding

end Environment

end TypeInference
