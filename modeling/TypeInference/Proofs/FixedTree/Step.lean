import TypeInference.Proofs.FixedTree.Instance
import TypeInference.Proofs.FixedTree.Recall

/-!
# Steps that the reader takes

A step of the reader is known in full: the request that it leaves behind is in order, the
step can be taken again by whoever knows as much, and engines that make calls take the same
step.  Steps that read annotations within the scope of the tree are always taken.
-/

namespace TypeInference

open Inference

variable {id : ValueId} {set : TypeSet}

namespace Environment

section Definitions

variable (env : Environment) (tree : Tree) (base : Nat)

/-- A request in order, which remembers of annotations what they evaluate to. -/
structure Steady (state : State) : Prop where
  admitted : (Judgement.total env (.spanning base)).Admits state
  informs : tree.Informs state

/-- The reader has taken a step, and takes it again wherever it knows as much. -/
structure Takes {α : Type} (step : Engine → Inference α) (state : State) (answer : α)
    (after : State) : Prop where
  ran : step env.reader state = .ok (answer, after)
  steady : env.Steady tree base after
  continues : state.arena ≤ after.arena
  extends_ : state.Extends after
  again : ∀ {known : State}, after.Extends known → known.nodeGuard.active = [] →
    ∃ knownAfter, step env.reader known = .ok (answer, knownAfter) ∧
      known.Quiet knownAfter

end Definitions

variable {env : Environment} {tree : Tree} {base : Nat} {state after : State}

theorem Steady.start (world : World.WellFormed ⟨arena, env.declarations⟩) :
    env.Steady tree arena.size (env.start arena) where
  admitted := ⟨.ofWorld world _, Nat.le_refl _⟩
  informs :=
    { idle := rfl
      hints := fun found => by cases found
      subscripts := fun found => by cases found }

section Steps

variable (provider : env.provider = tree.fixedProvider)
  {α : Type} {step : Engine → Inference α} {answer : α}

include provider

theorem takes_of_ran (parametric : Parametric step) (steady : env.Steady tree base state)
    (ran : step env.reader state = .ok (answer, after))
    (admitted : (Judgement.total env (.spanning base)).Admits after)
    (continues : state.arena ≤ after.arena) :
    env.Takes tree base step state answer after := by
  have informs := informs_of_parametric provider parametric steady.informs ran
  have repeats := repeats_reader provider parametric
  refine ⟨ran, ⟨admitted, informs⟩, continues, (repeats.learns ran).extends_ steady.informs.idle,
    fun remembers knownIdle => ?_⟩
  obtain ⟨knownAfter, again, quiet, _⟩ :=
    repeats.again steady.informs.idle ran remembers knownIdle
  exact ⟨knownAfter, again, quiet⟩

/-- A step that reaches its answer is taken. -/
theorem exists_takes_of_reaches (parametric : Parametric step) (steady : env.Steady tree base state)
    (reaches : (Judgement.total env (.spanning base)).Reaches state
      (fun _ => step env.reader) post) :
    ∃ answer after, env.Takes tree base step state answer after ∧ post after answer := by
  obtain ⟨enough, ⟨answer, after⟩, ⟨admitted, continues, holds⟩, ran⟩ := reaches
  exact ⟨answer, after, takes_of_ran provider parametric steady
    (ran enough (Nat.le_refl enough)) admitted continues, holds⟩

/-- A step that asks for annotations within the scope only is taken. -/
theorem exists_takes [Scoped α] (parametric : Parametric step)
    (alike : ∀ fuel, step (env.reader.asking (env.stage (fuel + 1)).ask) = step env.reader)
    (yields : (Judgement.total env (.spanning base)).Yields state.arena.size
      fun fuel => step (env.stage fuel))
    (steady : env.Steady tree base state) :
    ∃ answer after, env.Takes tree base step state answer after ∧
      env.Scopes after.arena.size answer :=
  exists_takes_of_reaches provider parametric steady
    ((yields.reaches steady.admitted (Nat.le_refl _)).reader step alike)

omit provider in
/-- Where a step is known, it is taken again without a trace. -/
theorem Takes.repeat (takes : env.Takes tree base step state answer after)
    (remembers : after.Extends known) (steady : env.Steady tree base known)
    (again : env.Takes tree base step known knownAnswer knownAfter) :
    knownAnswer = answer ∧ known.Quiet knownAfter := by
  obtain ⟨_, ran, quiet⟩ := takes.again remembers steady.informs.idle
  cases ran.symm.trans again.ran
  exact ⟨rfl, quiet⟩

omit provider in
/-- What the reader does, an engine with fuel does as well. -/
theorem refines_reader (env : Environment) (parametric : Parametric step) (fuel : Nat) :
    Refines (step env.reader) (step (env.engine (fuel + 1))) := by
  have asks {β : Type} (operation : Operation β) :
      Refines (env.reader.ask operation) ((env.stage (fuel + 1)).ask operation) := by
    show Refines (if operation.isCall then throw .outOfFuel else (env.stage 1).ask operation) _
    split
    · exact fun _ _ fails => by cases fails
    · rw [env.ask_stage_succ, env.ask_stage_succ]
      exact env.perform_stage_refines (Nat.zero_le fuel) operation
  exact refines_of_fits asks (parametric (refinement asks) rfl)

/-- An engine that succeeds does what the reader does. -/
theorem eq_of_engine (parametric : Parametric step)
    (read : step env.reader state = .ok (answer, after))
    (ran : step (env.engine fuel) state = .ok (otherAnswer, otherAfter)) :
    otherAnswer = answer ∧ otherAfter.arena = after.arena := by
  have asks {β : Type} (operation : Operation β) :
      Refines ((env.stage fuel).ask operation) ((env.stage (fuel + 1)).ask operation) := by
    cases fuel with
    | zero => exact fun _ _ fails => by cases fails
    | succ fuel =>
      rw [env.ask_stage_succ, env.ask_stage_succ]
      exact env.perform_stage_refines (Nat.le_succ fuel) operation
  have refines : Refines (step (env.stage fuel)) (step (env.stage (fuel + 1))) :=
    refines_of_fits asks (parametric (refinement asks) rfl)
  rw [← env.stage_eq_engine] at ran
  have known := env.ignores_of_parametric provider parametric fuel state.returns 0 state.journal
    _ _ _ read
  cases known.symm.trans (refines state _ ran)
  exact ⟨rfl, rfl⟩

end Steps

/-! ## Reading annotations -/

section Reading

variable (provider : env.provider = tree.fixedProvider)
  (inScope : tree.InScope env.declarations base)
  (steady : env.Steady tree base state)

include provider inScope steady

omit inScope in
theorem exists_takes_classOf (within : env.Scopes state.arena.size id) :
    ∃ class? after, env.Takes tree base (fun _ => Engine.classOf id) state class? after ∧
      env.Scopes after.arena.size class? :=
  exists_takes provider (fun _ _ => Pairing.fits_classOf id) (fun _ => rfl)
    (Judgement.yields_classOf within) steady

theorem exists_takes_ancestors (within : env.Scopes state.arena.size id) :
    ∃ order after, env.Takes tree base (fun engine => engine.ancestors id) state order after ∧
      env.Scopes after.arena.size order :=
  exists_takes provider (fun _ _ => Pairing.fits_ancestors id)
    (fun fuel => congrFun (env.readsAlike_stage provider fuel).ancestors id)
    (Judgement.yields_ancestors
      (Judgement.total_reads_of_inScope provider inScope fun spans => spans) within) steady

theorem exists_takes_readHint (node : NodeId) :
    ∃ hint after, env.Takes tree base (fun engine => engine.readHint node) state hint after ∧
      env.Scopes after.arena.size hint :=
  exists_takes provider (fun _ _ => Pairing.fits_readHint node)
    (fun fuel => congrFun (env.readsAlike_stage provider fuel).readHint node)
    (Judgement.yields_readHint
      (Judgement.total_reads_of_inScope provider inScope fun spans => spans) node) steady

theorem exists_takes_freeVariables (within : env.Scopes state.arena.size set) :
    ∃ free after, env.Takes tree base (fun engine => engine.freeVariables set) state
      free after := by
  obtain ⟨free, after, takes, _⟩ := exists_takes provider
    (fun _ _ => Pairing.fits_freeVariables set)
    (fun fuel => congrFun (env.readsAlike_stage provider fuel).freeVariables set)
    (Judgement.yields_freeVariables
      (Judgement.total_reads_of_inScope provider inScope fun spans => spans) within) steady
  exact ⟨free, after, takes⟩

theorem exists_takes_classBindings (within : env.Scopes state.arena.size id) :
    ∃ bindings after, env.Takes tree base (fun engine => engine.classBindings id) state
        bindings after ∧
      env.Scopes after.arena.size bindings :=
  exists_takes provider (fun _ _ => Pairing.fits_classBindings id)
    (fun fuel => congrFun (env.readsAlike_stage provider fuel).classBindings id)
    (Judgement.yields_classBindings
      (Judgement.total_reads_of_inScope provider inScope fun spans => spans) within) steady

section

variable (within : env.Scopes state.arena.size set)

include within

theorem exists_takes_substitute (substitutionWithin : env.Scopes state.arena.size substitution) :
    ∃ replaced after, env.Takes tree base
        (fun engine => engine.substitute set substitution) state replaced after ∧
      env.Scopes after.arena.size replaced :=
  exists_takes provider (fun _ _ => Pairing.fits_substitute set substitution)
    (fun fuel => congrFun
      (congrFun (env.readsAlike_stage provider fuel).substitute set) substitution)
    (Judgement.yields_substitute
      (Judgement.total_reads_of_inScope provider inScope fun spans => spans) within
      substitutionWithin) steady

/--
Where no function is met, values are found in the place of a set, and where all that is met
describes instances only, they are instances.
-/
theorem exists_takes_described (meets : tree.MeetsNoFunction env.declarations state.arena
      (env.settings.unificationDepthLimit + 1) set) :
    ∃ found after,
      env.Takes tree base (fun engine => engine.instances set) state found after ∧
      ∀ id ∈ found, tree.MeetsDescriptions env.declarations state.arena
        (env.settings.unificationDepthLimit + 1) set → after.arena.HoldsInstance id := by
  have parametric : Parametric fun engine => engine.instances set :=
    fun _ _ => Pairing.fits_instances set
  have spans : base ≤ state.arena.size := steady.admitted.invariant
  have inScopeStill : tree.InScope env.declarations state.arena.size :=
    ⟨fun node => (inScope.nodes node).grow spans,
      fun name set known => (inScope.names name set known).grow spans⟩
  exact exists_takes_of_reaches provider parametric steady
    (Judgement.reaches_instancesWithin_informed provider
      (Judgement.total_reads_of_inScope provider inScope fun spans => spans)
      steady.admitted.wellFormed.world inScopeStill trivial within meets steady.admitted
      steady.informs (Arena.le_refl _))

/-- Where no function is met, instances are found. -/
theorem exists_takes_instances (meets : tree.MeetsNoFunction env.declarations state.arena
      (env.settings.unificationDepthLimit + 1) set) :
    ∃ found after, env.Takes tree base (fun engine => engine.instances set) state found after := by
  obtain ⟨found, after, takes, _⟩ := exists_takes_described provider inScope steady within meets
  exact ⟨found, after, takes⟩

end

end Reading

end Environment

end TypeInference
