import TypeInference.Proofs.Judgement.Fuel
import TypeInference.Proofs.Pairing.Alongside

/-!
# Watched runs

A property of requests is watched by an engine that looks whenever an operation is entered
and whenever one returns, at whatever depth, and that breaks off with a fault where the
property fails.  A request maintains the property if watching it makes no difference,
whichever fault the engine breaks off with: to the end of a run, or as far as it comes.

What is not touched but in the guarded places is maintained if these keep it.
-/

namespace TypeInference

open Inference

variable {α : Type} {holds seen : State → Prop} {fault : Fault} {state after : State}
  {node : NodeId} {function : FunctionId} {invocation : Invocation}

/-! ## Watching -/

namespace Inference

open Classical in
/-- Go on where a property holds, and break off with a fault where it fails. -/
noncomputable def watch (holds : State → Prop) (fault : Fault) : Inference Unit :=
  fun state => if holds state then .ok ((), state) else .error fault

/-- Watch a step as it begins and as it ends. -/
noncomputable def watched {α : Type} (holds : State → Prop) (fault : Fault) (step : Inference α) :
    Inference α := do
  watch holds fault
  let answer ← step
  watch holds fault
  return answer

theorem watch_of_holds (isHeld : holds state) : watch holds fault state = .ok ((), state) :=
  if_pos isHeld

end Inference

namespace Environment

/-- The engine of an environment that watches all operations that it asks for. -/
noncomputable def watchful (environment : Environment) (holds : State → Prop) (fault : Fault) :
    Nat → Engine
  | 0 => { environment with ask := fun _ => throw .outOfFuel }
  | fuel + 1 =>
    { environment with
      ask := fun operation =>
        watched holds fault ((environment.watchful holds fault fuel).perform operation) }

/--
Along a run, a property holds whenever an operation is entered and whenever one returns, be
it part of the program or asked for by the engine or the tree.
-/
def Maintains (environment : Environment) (holds : State → Prop) (fuel : Nat) {α : Type}
    (program : Program α) (state : State) : Prop :=
  ∀ fault, program.run (fun operation =>
      watched holds fault ((environment.watchful holds fault fuel).perform operation)) state =
    environment.run fuel program state

end Environment

/-! ## Vigils -/

/-- A property that is kept in the guarded places, and that nothing else touches. -/
structure Invariant (settings : Settings) (holds : State → Prop) : Prop where
  aside : ∀ {state after : State}, state.Undisturbed after → holds state → holds after
  enterNode : ∀ {state : State} {node}, node ∉ state.nodeGuard.active → holds state →
    holds (state.enterNode node)
  leaveNode : ∀ {state : State}, holds state → holds state.leaveNode
  enterBody : ∀ {state : State} {function}, (state.budget.enter function false).2 = none →
    holds state → holds (state.enterBody function false)
  leaveBody : ∀ {state : State} {function}, holds state → holds (state.leaveBody function)
  refuseBody : ∀ {state : State} {function reason}, holds state →
    holds (state.refuseBody settings function false reason)
  startCall : ∀ {state : State} {invocation}, state.returns.get? invocation = none →
    holds state → holds (state.startCall invocation)
  finishCall : ∀ {state : State} {invocation result},
    state.returns.get? invocation = some .running → holds state →
    holds (state.finishCall invocation result)

/-- The same state in both runs, in which the guards are as in another one. -/
structure Vigil (holds : State → Prop) (base state other : State) : Prop where
  same : other = state
  isHeld : holds state
  restored : base.Restored state

/-- From states in which a property holds, two steps do the same, keep it and restore the guards. -/
def Vigilant {α : Type} (holds : State → Prop) (step other : Inference α) : Prop :=
  ∀ base, Alongside True (Vigil holds base) Eq step other

theorem Outcome.eq {run other : Except Fault (α × State)}
    (outcome : Outcome True (Vigil holds base) Eq run other) :
    other = run := by
  cases outcome with
  | answer same vigil =>
    cases same
    cases vigil.same
    rfl
  | fault isShared => exact isShared trivial

theorem Outcome.keeps {other : Except Fault (α × State)}
    (outcome : Outcome True (Vigil holds base) Eq (.ok (result, after)) other) :
    holds after ∧ base.Restored after := by
  cases outcome with
  | answer _ vigil => exact ⟨vigil.isHeld, vigil.restored⟩

section Guarded

variable {settings : Settings} (invariant : Invariant settings holds)
  {content other : Inference TypeSet}

include invariant

theorem Vigil.aside (vigil : Vigil holds base state otherState)
    (undisturbed : state.Undisturbed after) :
    Vigil holds base after after :=
  ⟨rfl, invariant.aside undisturbed vigil.isHeld, vigil.restored.trans undisturbed.restored⟩

theorem Invariant.likeness (base : State) : Likeness (Vigil holds base) := by
  constructor
  all_goals
    rintro state other vigil
    cases vigil.same
    intros
    first
    | rfl
    | exact vigil.aside invariant ⟨rfl, rfl, rfl, rfl, rfl, rfl⟩

/-! ## The guarded places -/

theorem Vigilant.guarded (contentVigilant : Vigilant holds content other) (source : NodeId) :
    Vigilant holds (guarded source content) (guarded source other) := by
  rintro base _ state ⟨rfl, isHeld, restored⟩
  have asked : state.Undisturbed state.askNode := ⟨rfl, rfl, rfl, rfl, rfl, rfl⟩
  by_cases active : source ∈ state.nodeGuard.active
  · rw [guarded_of_active active, guarded_of_active active]
    exact .answer rfl (Vigil.aside invariant ⟨rfl, isHeld, restored⟩ ⟨rfl, rfl, rfl, rfl, rfl, rfl⟩)
  · rw [guarded_of_not_active active, guarded_of_not_active active]
    have entered : holds (state.askNode.enterNode source) :=
      invariant.enterNode active (invariant.aside asked isHeld)
    refine (contentVigilant _ _ _ ⟨rfl, entered, .refl _⟩).map (fun _ => State.leaveNode)
      fun left => ?_
    obtain ⟨rfl, leftHeld, leftRestored⟩ := left
    exact ⟨rfl, invariant.leaveNode leftHeld,
      restored.trans (asked.restored.trans leftRestored.leaveNode)⟩

theorem Vigilant.budgeted (contentVigilant : Vigilant holds content other)
    (function : FunctionId) :
    Vigilant holds (budgeted settings function false content)
      (budgeted settings function false other) := by
  rintro base _ state ⟨rfl, isHeld, restored⟩
  cases refusal : (state.budget.enter function false).2 with
  | some reason =>
    rw [budgeted_of_refusal refusal, budgeted_of_refusal refusal]
    exact .answer rfl ⟨rfl, invariant.refuseBody isHeld, restored.trans (.refuseBody state)⟩
  | none =>
    rw [budgeted_of_no_refusal refusal, budgeted_of_no_refusal refusal]
    have entered := invariant.enterBody refusal isHeld
    refine (contentVigilant _ _ _ ⟨rfl, entered, .refl _⟩).map
      (fun _ left => left.leaveBody function) fun left => ?_
    obtain ⟨rfl, leftHeld, leftRestored⟩ := left
    exact ⟨rfl, invariant.leaveBody leftHeld, restored.trans leftRestored.leaveBody⟩

theorem Vigilant.remembered (againVigilant : Vigilant holds again otherAgain)
    (contentVigilant : Vigilant holds content other) (invocation : Invocation) :
    Vigilant holds (remembered invocation again content)
      (remembered invocation otherAgain other) := by
  rintro base _ state ⟨rfl, isHeld, restored⟩
  rw [remembered_eq, remembered_eq]
  cases known : state.returns.get? invocation with
  | none =>
    have started := invariant.startCall known isHeld
    refine (contentVigilant _ _ _ ⟨rfl, started, .refl _⟩).map
      (fun result left => left.finishCall invocation result) fun left => ?_
    obtain ⟨rfl, leftHeld, leftRestored⟩ := left
    -- The content has left the call as it found it: being computed.
    have running := (leftRestored.running invocation).mpr (Table.get?_insert_self _ _ _)
    exact ⟨rfl, invariant.finishCall running leftHeld,
      restored.trans (leftRestored.finishCall known)⟩
  | some progress =>
    cases progress with
    | running => exact againVigilant base _ _ ⟨rfl, isHeld, restored⟩
    | finished result =>
      exact .answer rfl
        (Vigil.aside invariant ⟨rfl, isHeld, restored⟩ ⟨rfl, rfl, rfl, rfl, rfl, rfl⟩)

end Guarded

namespace Vigilant

/-- Where a property holds, watching what follows from it makes no difference. -/
theorem watched {step other : Inference α} (vigilant : Vigilant holds step other)
    (implies : ∀ {state}, holds state → seen state) (fault : Fault) :
    Vigilant holds step (watched seen fault other) := by
  intro base
  have watching : Alongside True (Vigil holds base) Eq (pure ()) (watch seen fault) := by
    rintro _ state ⟨rfl, isHeld, restored⟩
    rw [watch_of_holds (implies isHeld)]
    exact .answer rfl ⟨rfl, isHeld, restored⟩
  have goes := watching.andThen fun _ => (vigilant base).andThen fun answer =>
    watching.andThen fun _ => .pure (rfl : answer = answer)
  simpa [Inference.watched] using goes

theorem run {answer other : {β : Type} → Operation β → Inference β}
    (each : ∀ {β : Type} (operation : Operation β),
      Vigilant holds (answer operation) (other operation))
    (program : Program α) :
    Vigilant holds (program.run answer) (program.run other) := by
  intro base
  induction program with
  | done result => exact .pure rfl
  | ask operation next ih => exact .andThen (each operation base) ih

end Vigilant

/-! ## Every operation -/

section Engines

variable {engine : Engine} (invariant : Invariant engine.settings holds)
  {otherAsk : {α : Type} → Operation α → Inference α}
  (asks : ∀ {α : Type} (operation : Operation α),
    Vigilant holds (engine.ask operation) (otherAsk operation))
  (base : State)

/-- Keeping a vigil is an accord of engines that keep it whatever they ask for. -/
def vigilance : Accord engine :=
  (invariant.likeness base).accord True otherAsk engine.settings.reportsDiagnostics Eq
    (fun _ => asks _ base) (fun _ _ => asks _ base) fun sink other diagnostic sinks => by
      cases sinks
      unfold Engine.report
      split
      · exact .andThen (.modify fun alike => (invariant.likeness base).emit alike _)
          fun _ => .pure rfl
      · exact .pure rfl

theorem vigilance_reads : (vigilance invariant asks base).Reads :=
  (invariant.likeness base).reads True otherAsk _ Eq fun _ => Vigilant.run asks _ base

include invariant asks

theorem vigilant_bodyType (declared : engine.declarations.function? function = some declaration)
    (plain : declaration.builtin = none) (arguments : Arguments) :
    Vigilant holds (engine.bodyType function arguments)
      ((engine.asking otherAsk).bodyType function arguments) := by
  rw [Engine.bodyType_eq_budgeted, Engine.bodyType_eq_budgeted]
  unfold Engine.functionDeclaration
  dsimp only
  rw [declared, pure_bind, pure_bind, plain]
  have body : Vigilant holds (engine.inferBody function arguments)
      ((engine.asking otherAsk).inferBody function arguments) := fun base =>
    Accord.pairs_inferBody (vigilance_reads invariant asks base) rfl
      (.look (invariant.likeness base).depth) (fun _ => Vigilant.run asks _ base) _ _
  exact body.budgeted invariant function

/-- Whatever an engine performs, it keeps the vigil. -/
theorem vigilant_perform (operation : Operation α) :
    Vigilant holds (engine.perform operation) ((engine.asking otherAsk).perform operation) := by
  intro base
  refine Accord.pairs_perform (vigilance_reads invariant asks base) rfl
    (fun node => Vigilant.guarded invariant (Vigilant.run asks _) node base)
    (fun function arguments => ?_) rfl operation
  show Alongside True (Vigil holds base) Eq (engine.returnType function arguments)
    ((engine.asking otherAsk).returnType function arguments)
  rw [Engine.returnType_eq_remembered, Engine.returnType_eq_remembered]
  refine Vigilant.remembered invariant ?_ ?_ _ base
  · exact fun base => (vigilance invariant asks base).pairs_recursiveReturn function
  · exact fun base => Accord.pairs_declaredReturn (vigilance_reads invariant asks base) rfl
      fun _ declared plain => vigilant_bodyType invariant asks declared plain arguments base

end Engines

theorem Invariant.trivial (settings : Settings) : Invariant settings fun _ => True := by
  constructor
  all_goals
    intros
    exact True.intro

namespace Environment

variable (env : Environment) (invariant : Invariant env.settings holds)
  (implies : ∀ {state}, holds state → seen state) {program : Program α}

section

include invariant implies

theorem vigilant_watchful (fault : Fault) (fuel : Nat) (operation : Operation α) :
    Vigilant holds (env.answer fuel operation)
      ((env.watchful seen fault fuel).perform operation) := by
  unfold answer
  induction fuel generalizing α with
  | zero => exact vigilant_perform invariant (fun _ _ => .throw _) operation
  | succ fuel ih =>
    exact vigilant_perform invariant (fun operation => (ih operation).watched implies fault)
      operation

/-- A request maintains what follows from what the guarded places keep. -/
theorem maintains (fuel : Nat) (program : Program α) (isHeld : holds state) :
    env.Maintains seen fuel program state := by
  intro fault
  have vigilant : Vigilant holds (env.run fuel program) _ := Vigilant.run (fun operation =>
    (env.vigilant_watchful invariant implies fault fuel operation).watched implies fault) program
  exact (vigilant state state state ⟨rfl, isHeld, .refl _⟩).eq

end

include invariant in
/-- What the guarded places keep is kept by a run that completes, and the guards are restored. -/
theorem keeps_run (completed : env.run fuel program state = .ok (result, after))
    (isHeld : holds state) :
    holds after ∧ state.Restored after := by
  have vigilant : Vigilant holds (env.run fuel program) _ := Vigilant.run (fun operation =>
    env.vigilant_watchful invariant id .outOfFuel fuel operation) program
  have outcome := vigilant state state state ⟨rfl, isHeld, .refl _⟩
  rw [completed] at outcome
  exact outcome.keeps

theorem restores_run (completed : env.run fuel program state = .ok (result, after)) :
    state.Restored after :=
  (env.keeps_run (.trivial _) completed True.intro).2

theorem restores_answer {operation : Operation α}
    (completed : env.answer fuel operation state = .ok (result, after)) :
    state.Restored after := by
  have asked : env.run fuel (.perform operation) state = .ok (result, after) :=
    bind_eq_ok_iff.mpr ⟨_, _, completed, rfl⟩
  exact env.restores_run asked

end Environment

end TypeInference
