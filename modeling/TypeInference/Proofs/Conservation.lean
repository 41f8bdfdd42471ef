import TypeInference.Proofs.Judgement.Fuel
import TypeInference.Proofs.Pairing.Accord
import TypeInference.Proofs.GuardedPlace

/-!
# What every operation conserves

Some relations between states hold from before to after a step whatever the step is asked
for, because they hold from before to after each of the few changes that steps are made
of.  This module says so once and for all: a relation that is conserved by the changes
which concern neither annotations nor nodes nor calls, and by an engine when it reads
annotations, infers nodes and computes what calls return, is conserved by all that the
engine performs.
-/

namespace TypeInference

open Inference

variable {α : Type} {relation : State → State → Prop} {content : Inference TypeSet} {node : NodeId}

/-- Every run of a step leads to a state that is related to the one it started from. -/
def Conserves {α : Type} (relation : State → State → Prop) (step : Inference α) : Prop :=
  ∀ state answer after, step state = .ok (answer, after) → relation state after

theorem Conserves.throw (relation : State → State → Prop) (fault : Fault) :
    Conserves relation (throw fault : Inference α) :=
  fun _ _ _ fails => by cases fails

/-- Values, annotations, nodes and calls are as they were; all else has been added to. -/
structure State.Beside (state after : State) : Prop where
  arena : after.arena = state.arena
  hints : after.hints = state.hints
  subscripts : after.subscripts = state.subscripts
  nodeGuard : after.nodeGuard = state.nodeGuard
  returns : after.returns = state.returns
  cells : state.cells.size ≤ after.cells.size
  refusals : state.counters.refusals ≤ after.counters.refusals
  events : ∀ event ∈ state.events, event ∈ after.events

namespace State.Beside

variable (state : State)

theorem refl : state.Beside state :=
  ⟨rfl, rfl, rfl, rfl, rfl, Nat.le_refl _, Nat.le_refl _, fun _ member => member⟩

theorem emit (event : Event) : state.Beside { state with events := state.events.push event } :=
  ⟨rfl, rfl, rfl, rfl, rfl, Nat.le_refl _, Nat.le_refl _,
    fun _ member => Array.mem_push_of_mem _ member⟩

theorem count {counters : Counters} (refusals : state.counters.refusals ≤ counters.refusals) :
    state.Beside { state with counters := counters } :=
  ⟨rfl, rfl, rfl, rfl, rfl, Nat.le_refl _, refusals, fun _ member => member⟩

theorem cell {cells : Array (Option TypeSet)} (larger : state.cells.size ≤ cells.size) :
    state.Beside { state with cells := cells } :=
  ⟨rfl, rfl, rfl, rfl, rfl, larger, Nat.le_refl _, fun _ member => member⟩

theorem budget (budget : ExecutionBudget) (journal : List Mark) :
    state.Beside { state with budget := budget, journal := journal } :=
  ⟨rfl, rfl, rfl, rfl, rfl, Nat.le_refl _, Nat.le_refl _, fun _ member => member⟩

end State.Beside

/-- A relation that is conserved by changes which are beside the point, and by new values. -/
structure Conserved (relation : State → State → Prop) : Prop where
  refl : ∀ state, relation state state
  trans : ∀ {state between after},
    relation state between → relation between after → relation state after
  aside : ∀ {state after : State}, state.Beside after → relation state after
  intern : ∀ (state : State) (stored : Value),
    relation state { state with arena := (state.arena.intern stored).2 }

/-- A relation that does not concern calls. -/
def IgnoresCalls (relation : State → State → Prop) : Prop :=
  ∀ {state after : State}, after.arena = state.arena → after.hints = state.hints →
    after.subscripts = state.subscripts → after.nodeGuard = state.nodeGuard →
    relation state after

/-- An engine whose answers and annotations conserve a relation. -/
structure Engine.Reads (engine : Engine) (relation : State → State → Prop) : Prop where
  asks : ∀ {α : Type} (operation : Operation α), Conserves relation (engine.ask operation)
  hints : ∀ node, Conserves relation (engine.readHint node)
  subscripts : ∀ generics, Conserves relation (engine.typeArguments generics)

/-- An engine that conserves a relation wherever it remembers or guards something. -/
structure Engine.Abides (engine : Engine) (relation : State → State → Prop) : Prop
    extends engine.Reads relation where
  nodes : ∀ node, Conserves relation (engine.inferNodeOnce node)
  returns : ∀ function arguments, Conserves relation (engine.returnType function arguments)

namespace Conserved

variable {relation : State → State → Prop} (conserved : Conserved relation) {α β : Type}

include conserved

/-! ## Steps -/

theorem pure (answer : α) : Conserves relation (pure answer) := by
  rintro state _ _ ⟨⟩
  exact conserved.refl state

theorem bind (firstConserves : Conserves relation first)
    (nextConserves : ∀ answer, Conserves relation (next answer)) :
    Conserves relation (first >>= next) := by
  intro state answer after succeeds
  obtain ⟨middle, between, started, finished⟩ := bind_eq_ok_iff.mp succeeds
  exact conserved.trans (firstConserves _ _ _ started) (nextConserves middle _ _ _ finished)

theorem looks (part : State → α) : Conserves relation (look part) := by
  rintro state _ _ ⟨⟩
  exact conserved.refl state

theorem value (id : ValueId) : Conserves relation (value id) := by
  intro state stored after succeeds
  unfold Inference.value at succeeds
  split at succeeds <;> cases succeeds
  exact conserved.refl state

theorem internSet (stored : Value) : Conserves relation (internSet stored) := by
  rintro state _ _ ⟨⟩
  exact conserved.intern state stored

theorem emit (event : Event) : Conserves relation (emit event) := by
  rintro state _ _ ⟨⟩
  exact conserved.aside (.emit state event)

theorem run (each : ∀ {β : Type} (operation : Operation β), Conserves relation (answer operation))
    (program : Program α) :
    Conserves relation (program.run answer) := by
  induction program with
  | done result => exact conserved.pure result
  | ask operation next ih =>
    exact conserved.bind (each operation) ih

theorem mapM (each : ∀ item, Conserves relation (step item)) (items : List α) :
    Conserves relation (items.mapM step) := by
  induction items with
  | nil => exact conserved.pure []
  | cons item rest ih =>
    rw [List.mapM_cons]
    exact conserved.bind (each item) fun _ => conserved.bind ih fun _ => conserved.pure _

theorem functionDeclaration (engine : Engine) (function : FunctionId) :
    Conserves relation (engine.functionDeclaration function) := by
  unfold Engine.functionDeclaration
  split
  · exact conserved.pure _
  · exact .throw relation _

/-! ## Bodies and calls -/

theorem budgeted (contentConserves : Conserves relation content) (settings : Settings)
    (function : FunctionId) (builtin : Bool) :
    Conserves relation (budgeted settings function builtin content) := by
  intro state result after succeeds
  rcases budgeted_cases succeeds with ⟨reason, _, rfl⟩ | ⟨before, contained, rfl⟩
  · exact conserved.aside ⟨rfl, rfl, rfl, rfl, rfl, Nat.le_refl _, Nat.le_succ _,
      fun _ member => Array.mem_push_of_mem _ member⟩
  · have entered : relation state (state.enterBody function builtin) :=
      conserved.aside (.budget state _ _)
    have left : relation before (before.leaveBody function) :=
      conserved.aside (.budget before _ _)
    exact conserved.trans entered (conserved.trans (contentConserves _ _ _ contained) left)

theorem remembered (ignores : IgnoresCalls relation) (againConserves : Conserves relation again)
    (contentConserves : Conserves relation content) (invocation : Invocation) :
    Conserves relation (remembered invocation again content) := by
  intro state result after succeeds
  rcases remembered_cases succeeds with
    ⟨_, before, contained, rfl⟩ | ⟨_, succeeds⟩ | ⟨_, rfl⟩
  · have started : relation state (state.startCall invocation) := ignores rfl rfl rfl rfl
    have finished : relation before (before.finishCall invocation result) := ignores rfl rfl rfl rfl
    exact conserved.trans started (conserved.trans (contentConserves _ _ _ contained) finished)
  · exact againConserves _ _ _ succeeds
  · exact conserved.aside (.count state (Nat.le_refl _))

end Conserved

/-! ## Every operation -/

/-- A step that conserves a relation and whose answers are related to something. -/
structure Conserving (relation : State → State → Prop) {α : Type} (related : α → α → Prop)
    (step : Inference α) : Prop where
  conserves : Conserves relation step
  answered : ∀ state answer after, step state = .ok (answer, after) →
    ∃ other, related answer other

theorem Conserving.same (conserves : Conserves relation step) : Conserving relation Eq step :=
  ⟨conserves, fun _ answer _ _ => ⟨answer, rfl⟩⟩

namespace Conserved

variable {relation : State → State → Prop} (conserved : Conserved relation) {engine : Engine}
  (asks : ∀ {α : Type} (operation : Operation α), Conserves relation (engine.ask operation))

/-- Conservation, as an accord that looks at one side only. -/
def accord : Accord engine where
  otherAsk := engine.ask
  Sinks := Eq
  Pairs related step _ := Conserving relation related step
  pairs_pure holds := ⟨conserved.pure _, by rintro _ _ _ ⟨⟩; exact ⟨_, holds⟩⟩
  pairs_bind first next := by
    refine ⟨fun state answer after succeeds => ?_, fun state answer after succeeds => ?_⟩
    all_goals
      obtain ⟨middle, between, started, finished⟩ := bind_eq_ok_iff.mp succeeds
      obtain ⟨other, holds⟩ := first.answered state middle between started
      have rest := next middle other holds
    · exact conserved.trans (first.conserves _ _ _ started) (rest.conserves _ _ _ finished)
    · exact rest.answered _ _ _ finished
  pairs_throw fault := ⟨.throw relation fault, fun _ _ _ fails => by cases fails⟩
  pairs_value id := .same (conserved.value id)
  pairs_intern stored := .same (by rintro state _ _ ⟨⟩; exact conserved.intern state stored)
  pairs_emit event := .same (conserved.emit event)
  pairs_describe _ := .same (conserved.looks _)
  pairs_unified :=
    .same (by rintro state _ _ ⟨⟩; exact conserved.aside (.count state (Nat.le_refl _)))
  pairs_cells := .same (conserved.looks _)
  pairs_changeCells _ larger :=
    .same (by rintro state _ _ ⟨⟩; exact conserved.aside (.cell state (larger _)))
  pairs_inferNode _ := .same (asks _)
  pairs_execute _ _ := .same (asks _)
  pairs_report {sink _} diagnostic sinks := by
    cases sinks
    refine .same ?_
    unfold Engine.report
    split
    · exact conserved.bind (conserved.emit _) fun _ => conserved.pure _
    · exact conserved.pure sink

include conserved asks

/-- Annotations that are read conserve what answers conserve, if noting them does. -/
theorem readHint (notes : ∀ (state : State) (result : TypeSet),
      relation state { state with hints := state.hints.insert node result }) :
    Conserves relation (engine.readHint node) := by
  refine ((conserved.accord asks).pairs_readHint (fun name => .same (conserved.run asks _))
    (.same (conserved.looks _)) fun result => .same ?_).conserves
  rintro state _ _ ⟨⟩
  exact notes state result

omit asks in
/-- So do the type arguments of a subscript. -/
theorem typeArguments (hints : ∀ node, Conserves relation (engine.readHint node))
    (notes : ∀ (state : State) (arguments : TypeArguments),
      relation state { state with subscripts := state.subscripts.insert node arguments }) :
    Conserves relation (engine.typeArguments (.lazy node)) := by
  rw [Engine.typeArguments_lazy_eq]
  refine conserved.bind (conserved.looks _) fun known? => ?_
  cases known? with
  | some known => exact conserved.pure known
  | none =>
    refine conserved.bind (conserved.mapM hints _) fun slots => ?_
    refine conserved.bind (conserved.emit _) fun _ => ?_
    rintro state _ _ ⟨⟩
    exact notes state _

end Conserved

section Engines

variable {relation : State → State → Prop} (conserved : Conserved relation)
  {engine : Engine} (reads : engine.Reads relation)

/-- An engine whose annotations conserve a relation reads them in accord. -/
theorem Engine.Reads.accordant : (conserved.accord reads.asks).Reads :=
  ⟨fun node => .same (reads.hints node), fun generics => .same (reads.subscripts generics)⟩

/-- Conservation, as a pairing. -/
abbrev conservation : Pairing engine :=
  (conserved.accord reads.asks).pairing (reads.accordant conserved)

include conserved reads

theorem conserves_of_fits (fits : (conservation conserved reads).Fits step other) :
    Conserves relation step :=
  (Accord.pairs_of_fits (reads.accordant conserved) fits).conserves

theorem conserves_reportUnpackable (function : Option FunctionId) (kind : DiagnosticKind)
    (node : NodeId) (message : FunctionDeclaration → String → String) (id : ValueId)
    (sink : Diagnostics) :
    Conserves relation (engine.reportUnpackable function kind node message id sink) :=
  ((conserved.accord reads.asks).pairs_reportUnpackable rfl function kind node message id).conserves

theorem conserves_bodyType (function : FunctionId) (arguments : Arguments) :
    Conserves relation (engine.bodyType function arguments) := by
  rw [Engine.bodyType_eq_budgeted]
  refine conserved.bind (conserved.functionDeclaration engine function) fun declaration => ?_
  refine conserved.budgeted (Accord.pairs_inferBody (reads.accordant conserved) rfl
    (.same (conserved.looks _)) (fun execution => ?_) function arguments).conserves _ _ _
  exact .same (conserved.run reads.asks _)

theorem conserves_declaredReturn (function : FunctionId) (arguments : Arguments) :
    Conserves relation (engine.declaredReturn function arguments) :=
  (Accord.pairs_declaredReturn (reads.accordant conserved) rfl fun _ _ _ =>
    .same (conserves_bodyType conserved reads function arguments)).conserves

theorem conserves_returnType (ignores : IgnoresCalls relation) (function : FunctionId)
    (arguments : Arguments) :
    Conserves relation (engine.returnType function arguments) := by
  rw [Engine.returnType_eq_remembered]
  exact conserved.remembered ignores
    ((conserved.accord reads.asks).pairs_recursiveReturn function).conserves
    (conserves_declaredReturn conserved reads function arguments) _

end Engines

/-- Whatever an engine performs conserves what it abides by. -/
theorem Engine.Abides.conserves_perform (conserved : Conserved relation) {engine : Engine}
    (abides : engine.Abides relation) (operation : Operation α) :
    Conserves relation (engine.perform operation) :=
  (Accord.pairs_perform (abides.toReads.accordant conserved) rfl
    (fun node => .same (abides.nodes node))
    (fun function arguments => .same (abides.returns function arguments)) rfl
    operation).conserves

/-- With every fuel, an engine abides by what it conserves when it reads annotations. -/
theorem Environment.abides_stage {env : Environment} (conserved : Conserved relation)
    (abides : ∀ fuel, (∀ {α : Type} (operation : Operation α),
        Conserves relation ((env.stage fuel).ask operation)) →
      (env.stage fuel).Abides relation)
    (fuel : Nat) :
    (env.stage fuel).Abides relation := by
  induction fuel with
  | zero => exact abides 0 fun operation => .throw relation .outOfFuel
  | succ fuel ih =>
    refine abides (fuel + 1) fun operation => ?_
    rw [env.ask_stage_succ]
    exact ih.conserves_perform conserved operation

end TypeInference
