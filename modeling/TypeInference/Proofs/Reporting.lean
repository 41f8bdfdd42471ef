import TypeInference.Proofs.Pairing.Alongside
import TypeInference.Proofs.Replay.Body

/-!
# Reports do not influence inference

Whether problems of calls are reported, and whether the sinks for them record or discard,
is a matter of what is written down.  Two engines that differ in nothing else walk side by
side through every operation: they give the same answers, but for the sinks that come back
with them, and leave the same request behind, but for its events.

A tree sees the settings of a request only by what comes back in a sink.  It does not read
them if it does the same whatever is in the sinks.
-/

namespace TypeInference

open Inference

variable {α : Type} {state : State}

/-! ## Requests and programs that differ in reports only -/

/-- The same request with other events, and with problems of calls reported or not. -/
def State.retold (state : State) (events : Array Event) (reports : Bool) : State :=
  { state with
    events := events
    budget :=
      { state.budget with
        settings := { state.budget.settings with reportsDiagnostics := reports } } }

/-- Requests with the same arena, caches, guards, cells, counters and journal. -/
def State.Agrees (state other : State) : Prop :=
  ∃ events reports, other = state.retold events reports

/-- The same fault, or related answers and requests that agree. -/
inductive Agreement {α : Type} (related : α → α → Prop) :
    Except Fault (α × State) → Except Fault (α × State) → Prop where
  | fault (fault : Fault) : Agreement related (.error fault) (.error fault)
  | answer {answer other : α} {state otherState : State} :
    related answer other →
    state.Agrees otherState →
    Agreement related (.ok (answer, state)) (.ok (other, otherState))

/-- Requests that agree still do so when they leave a body. -/
theorem State.Agrees.leaveBody (agrees : state.Agrees other) (function : FunctionId) :
    (state.leaveBody function).Agrees (other.leaveBody function) := by
  obtain ⟨events, reports, rfl⟩ := agrees
  exact ⟨events, reports, rfl⟩

/-- The same operation, but for the sink that it is given. -/
inductive Operation.SameButSink : {α : Type} → Operation α → Operation α → Prop where
  | refl {α : Type} (operation : Operation α) : SameButSink operation operation
  | unpack (arguments : Arguments) (function : Option FunctionId) (sink other : Diagnostics) :
    SameButSink (.unpack arguments function sink) (.unpack arguments function other)
  | bind (function : FunctionId) (arguments : Arguments) (sink other : Diagnostics) :
    SameButSink (.bind function arguments sink) (.bind function arguments other)

/-- The same answer to an operation, but for the sink that comes back with it. -/
def Operation.SameAnswer : {α : Type} → Operation α → α → α → Prop
  | _, .unpack _ _ _, answer, other => answer.1 = other.1
  | _, .bind _ _ _, answer, other => answer.1 = other.1
  | _, _, answer, other => answer = other

/-- Programs that do the same, but for sinks, whatever comes back in the sinks. -/
inductive Program.SameButSinks {α : Type} : Program α → Program α → Prop where
  | done (answer : α) : SameButSinks (.done answer) (.done answer)
  | ask {β : Type} {operation other : Operation β} {next nextOther : β → Program α} :
    operation.SameButSink other →
    (∀ answer otherAnswer, operation.SameAnswer answer otherAnswer →
      SameButSinks (next answer) (nextOther otherAnswer)) →
    SameButSinks (.ask operation next) (.ask other nextOther)

/-- A tree that does the same whatever is reported. -/
structure Provider.Indifferent (provider : Provider) : Prop where
  nodes : ∀ node, (provider.inferNode node).SameButSinks (provider.inferNode node)
  names : ∀ name, (provider.resolveName name).SameButSinks (provider.resolveName name)
  bodies : ∀ execution, (provider.inferBody execution).SameButSinks (provider.inferBody execution)

/-- The same environment, in which problems of calls are reported or not. -/
def Environment.reporting (environment : Environment) (reports : Bool) : Environment :=
  { environment with settings := { environment.settings with reportsDiagnostics := reports } }

/-! ## Steps that agree -/

theorem likeness_agrees : LikeNodes State.Agrees := by
  refine ⟨⟨?_, ?_, ?_, ?_, ?_, ?_⟩, ?_, ?_⟩
  all_goals rintro state _ ⟨events, reports, rfl⟩
  · rfl
  · exact fun _ => ⟨events, reports, rfl⟩
  · rfl
  · exact fun event => ⟨events.push event, reports, rfl⟩
  · exact ⟨events, reports, rfl⟩
  · exact ⟨events, reports, rfl⟩
  · rfl
  · exact fun _ => ⟨events, reports, rfl⟩

theorem likeCalls_agrees : LikeCalls State.Agrees := by
  constructor
  all_goals rintro state _ ⟨events, reports, rfl⟩
  · rfl
  · exact fun _ _ _ => ⟨events, reports, rfl⟩
  · exact fun _ => ⟨events, reports, rfl⟩

/-- From requests that agree, both steps fail alike, or have related answers and agree again. -/
abbrev Agreeing {α : Type} (related : α → α → Prop) (step other : Inference α) : Prop :=
  Alongside True State.Agrees related step other

namespace Agreeing

variable {α : Type} {related : α → α → Prop} {step other : Inference α}

theorem agreement (agreeing : Agreeing related step other) (agrees : state.Agrees otherState) :
    Agreement related (step state) (other otherState) := by
  have outcome := agreeing state otherState agrees
  revert outcome
  generalize step state = run
  generalize other otherState = otherRun
  intro outcome
  cases outcome with
  | answer holds agrees => exact .answer holds agrees
  | @fault fault _ isShared =>
    rw [isShared trivial]
    exact .fault fault

theorem run {answer other : {β : Type} → Operation β → Inference β}
    (each : ∀ {β : Type} {operation otherOperation : Operation β},
      operation.SameButSink otherOperation →
      Agreeing operation.SameAnswer (answer operation) (other otherOperation))
    {program otherProgram : Program α} (same : program.SameButSinks otherProgram) :
    Agreeing Eq (program.run answer) (otherProgram.run other) := by
  induction same with
  | done result => exact .pure rfl
  | ask sameOperation _ ih => exact (each sameOperation).bind ih

end Agreeing

/-- The switch for reports does not count for the budget. -/
theorem ExecutionBudget.enter_reporting (budget : ExecutionBudget) (reports : Bool)
    (function : FunctionId) (builtin : Bool) :
    ({ budget with settings := { budget.settings with reportsDiagnostics := reports } } :
      ExecutionBudget).enter function builtin =
      ({ (budget.enter function builtin).1 with
          settings :=
            { (budget.enter function builtin).1.settings with reportsDiagnostics := reports } },
        (budget.enter function builtin).2) := by
  unfold enter charge activate
  dsimp only
  repeat' split
  all_goals rfl

theorem Agreeing.budgeted (contentAgrees : Agreeing Eq content other)
    (settings otherSettings : Settings) (function : FunctionId) (builtin : Bool) :
    Agreeing Eq (budgeted settings function builtin content)
      (budgeted otherSettings function builtin other) := by
  rintro state _ ⟨events, reports, rfl⟩
  have entered : (state.enterBody function builtin).Agrees
      ((state.retold events reports).enterBody function builtin) := by
    refine ⟨events, reports, ?_⟩
    simp only [State.enterBody, State.askBody, State.retold, ExecutionBudget.enter_reporting]
  have sameRefusal : ((state.retold events reports).budget.enter function builtin).2 =
      (state.budget.enter function builtin).2 := by
    simp only [State.retold, ExecutionBudget.enter_reporting]
  cases refusal : (state.budget.enter function builtin).2 with
  | some reason =>
    rw [budgeted_of_refusal refusal, budgeted_of_refusal (sameRefusal.trans refusal)]
    refine .answer rfl ⟨events.push (.refused reason otherSettings function), reports, ?_⟩
    simp only [State.refuseBody, State.askBody, State.retold, ExecutionBudget.enter_reporting]
    rfl
  | none =>
    rw [budgeted_of_no_refusal refusal, budgeted_of_no_refusal (sameRefusal.trans refusal)]
    exact (contentAgrees _ _ entered).map (fun _ left => left.leaveBody function) fun left =>
      left.leaveBody function

/-! ## Engines that agree -/

/-- Reports go to sinks and events, and nowhere else. -/
theorem agreeing_report (engine : Engine) (reports : Bool)
    (ask : {α : Type} → Operation α → Inference α) (sink other : Diagnostics)
    (diagnostic : Diagnostic) :
    Agreeing (fun _ _ => True) (engine.report sink diagnostic)
      ((engine.variant reports ask).report other diagnostic) := by
  rintro state _ ⟨events, switch, rfl⟩
  unfold Engine.report
  split <;> split <;> exact .answer trivial ⟨_, _, rfl⟩

section Engines

variable {engine : Engine} (reports : Bool) {otherAsk : {α : Type} → Operation α → Inference α}
  (asks : ∀ {α : Type} {operation other : Operation α}, operation.SameButSink other →
    Agreeing operation.SameAnswer (engine.ask operation) (otherAsk other))
  (indifferent : engine.provider.Indifferent)

/-- Agreement is an accord of engines that differ in what they report. -/
def agreeing : Accord engine :=
  likeness_agrees.accord True otherAsk reports (fun _ _ => True)
    (fun node => asks (.refl (.inferNode node)))
    (fun set arguments => asks (.refl (.execute set arguments)))
    fun sink other diagnostic _ => agreeing_report engine reports otherAsk sink other diagnostic

include asks indifferent

theorem agreeing_reads : (agreeing reports asks).Reads :=
  likeness_agrees.reads True otherAsk reports _ fun name =>
    Agreeing.run asks (indifferent.names name)

theorem agreeing_returnType (function : FunctionId) (arguments : Arguments) :
    Agreeing Eq (engine.returnType function arguments)
      ((engine.variant reports otherAsk).returnType function arguments) := by
  have reads := agreeing_reads reports asks indifferent
  have body : Agreeing Eq (engine.bodyType function arguments)
      ((engine.variant reports otherAsk).bodyType function arguments) := by
    rw [Engine.bodyType_eq_budgeted, Engine.bodyType_eq_budgeted]
    refine .andThen ((agreeing reports asks).pairs_functionDeclaration function)
      fun declaration => ?_
    refine Agreeing.budgeted ?_ _ _ function _
    exact Accord.pairs_inferBody reads trivial (.look likeness_agrees.depth)
      (fun execution => Agreeing.run asks (indifferent.bodies execution)) function arguments
  exact .remembered likeCalls_agrees
    (Accord.pairs_declaredReturn reads trivial fun _ _ _ => body)
    ((agreeing reports asks).pairs_recursiveReturn function) _

/-- The same operation is performed alike, whatever is reported. -/
theorem agreeing_perform {operation other : Operation α} (same : operation.SameButSink other) :
    Agreeing operation.SameAnswer (engine.perform operation)
      ((engine.variant reports otherAsk).perform other) := by
  have reads := agreeing_reads reports asks indifferent
  have unpacks (arguments : Arguments) (function : Option FunctionId) (sink other : Diagnostics) :
      Agreeing (fun answer otherAnswer => answer.1 = otherAnswer.1)
        (engine.unpack arguments function sink)
        ((engine.variant reports otherAsk).unpack arguments function other) :=
    (agreeing reports asks).imp (Accord.pairs_unpack reads arguments function trivial)
      fun _ _ holds => holds.1
  have binds (function : FunctionId) (arguments : Arguments) (sink other : Diagnostics) :
      Agreeing (fun answer otherAnswer => answer.1 = otherAnswer.1)
        (engine.bind function arguments sink)
        ((engine.variant reports otherAsk).bind function arguments other) :=
    (agreeing reports asks).imp (Accord.pairs_bindCall reads function arguments trivial)
      fun _ _ holds => holds.1
  cases same with
  | unpack arguments function sink other => exact unpacks arguments function sink other
  | bind function arguments sink other => exact binds function arguments sink other
  | refl =>
    cases operation with
    | unpack arguments function sink => exact unpacks arguments function sink sink
    | bind function arguments sink => exact binds function arguments sink sink
    | _ =>
      exact Accord.pairs_perform_of_not_reports reads trivial
        (fun node => .guarded likeness_agrees (Agreeing.run asks (indifferent.nodes node)) node)
        (agreeing_returnType reports asks indifferent) _ rfl

end Engines

variable {operation : Operation α}

theorem Environment.agreeing_answer {env : Environment} (indifferent : env.provider.Indifferent)
    (reports otherReports : Bool) (fuel : Nat) (same : operation.SameButSink other) :
    Agreeing operation.SameAnswer ((env.reporting reports).answer fuel operation)
      ((env.reporting otherReports).answer fuel other) := by
  induction fuel generalizing α with
  | zero =>
    have asks {β : Type} {asked otherAsked : Operation β} (_ : asked.SameButSink otherAsked) :
        Agreeing asked.SameAnswer (((env.reporting reports).engine 0).ask asked)
          (((env.reporting otherReports).engine 0).ask otherAsked) :=
      .throw .outOfFuel
    exact agreeing_perform otherReports asks indifferent same
  | succ fuel ih =>
    have asks {β : Type} {asked otherAsked : Operation β} (alike : asked.SameButSink otherAsked) :
        Agreeing asked.SameAnswer (((env.reporting reports).engine (fuel + 1)).ask asked)
          (((env.reporting otherReports).engine (fuel + 1)).ask otherAsked) :=
      ih alike
    exact agreeing_perform otherReports asks indifferent same

/-! ## Trees that report nothing back -/

/-- What an expression may ask for hands no sink to it. -/
theorem Operation.Matches.eq_of_sameAnswer (matches_ : operation.Matches alike asked)
    (same : operation.SameAnswer answer other) :
    answer = other := by
  cases matches_ with
  | same repeatable =>
    cases operation with
    | unpack | bind => cases repeatable
    | _ => exact same
  | resolve _ => exact same

theorem Program.Together.sameButSinks {program other : Program α}
    (together : program.Matches Eq other) :
    program.SameButSinks other := by
  induction together with
  | done answer => exact .done answer
  | @ask β operation asked next otherNext matches_ _ ih =>
    have sameOperation : operation.SameButSink asked := by
      cases matches_ with
      | same _ => exact .refl operation
      | resolve same => exact same ▸ .refl _
    refine .ask sameOperation fun answer otherAnswer same => ?_
    cases matches_.eq_of_sameAnswer same
    exact ih answer

/-- A tree of expressions does the same whatever is reported. -/
theorem Tree.indifferent (tree : Tree) : tree.provider.Indifferent where
  nodes node := (tree.together_nodeProgram node).sameButSinks
  names _ := .done _
  bodies _ := (tree.together_bodyProgram (Execution.alike_self fun _ _ => rfl)).sameButSinks

/-! ## Reports and answers -/

/--
Over a tree that does not look at reports, inference is the same whether problems of calls
are reported or not and whether the sinks for them record or discard.  From requests that
agree, every operation fails alike or gives the same answer, but for the sink, and leaves
requests that agree; so does every program from the start on.
-/
theorem reports_do_not_influence_inference
    {environment : Environment}
    (indifferent : environment.provider.Indifferent)
    (reports otherReports : Bool)
    (fuel : Nat) :
    (∀ {α : Type} (operation other : Operation α) (state otherState : State),
      operation.SameButSink other → state.Agrees otherState →
      Agreement operation.SameAnswer
        ((environment.reporting reports).answer fuel operation state)
        ((environment.reporting otherReports).answer fuel other otherState)) ∧
    ∀ {α : Type} (program other : Program α) (arena : Arena), program.SameButSinks other →
      Agreement Eq
        ((environment.reporting reports).run fuel program
          ((environment.reporting reports).start arena))
        ((environment.reporting otherReports).run fuel other
          ((environment.reporting otherReports).start arena)) := by
  have answers {α : Type} {operation other : Operation α} (same : operation.SameButSink other) :=
    environment.agreeing_answer indifferent reports otherReports fuel same
  constructor
  · intro α operation other state otherState same agrees
    exact (answers same).agreement agrees
  · intro α program other arena same
    exact (Agreeing.run answers same).agreement ⟨#[], otherReports, rfl⟩

/-- A function without parameters that returns the absent value. -/
def Environment.lonely : Environment where
  declarations := { functions := #[{ name := "lonely" }] }
  provider := Tree.provider { bodies := ⟨[(⟨0⟩, .set (.listed [.none]))]⟩ }

/-- Bind an argument that there is no parameter for, and call the function with it. -/
def Program.overfull (sink : Diagnostics) : Program TypeSet :=
  .ask (.bind ⟨0⟩ (.values [.singleton ⟨2⟩]) sink) fun _ =>
    .perform (.returnType ⟨0⟩ (.values [.singleton ⟨2⟩]))

/-- One of the runs reports the argument that is left over, and both return the same. -/
theorem reports_do_not_influence_inference_of_overfull :
    ∃ state other,
      (Environment.lonely.reporting true).run 1 (.overfull {})
        ((Environment.lonely.reporting true).start .initial) =
          .ok (.singleton Arena.noneId, state) ∧
      (Environment.lonely.reporting false).run 1 (.overfull .discarding)
        ((Environment.lonely.reporting false).start .initial) =
          .ok (.singleton Arena.noneId, other) ∧
      state.events.size = 3 ∧ other.events.size = 2 ∧
      state.Agrees other := by
  have outcome : ((Environment.lonely.reporting true).run 1 (.overfull {})
      ((Environment.lonely.reporting true).start .initial)).toOption.map
        (fun result => (result.1, result.2.events.size)) = some (.singleton Arena.noneId, 3) := by
    decide +kernel
  have otherOutcome : ((Environment.lonely.reporting false).run 1 (.overfull .discarding)
      ((Environment.lonely.reporting false).start .initial)).toOption.map
        (fun result => (result.1, result.2.events.size)) = some (.singleton Arena.noneId, 2) := by
    decide +kernel
  obtain ⟨⟨result, state⟩, completed, same⟩ := Option.map_eq_some_iff.mp outcome
  obtain ⟨⟨otherResult, other⟩, otherCompleted, otherSame⟩ :=
    Option.map_eq_some_iff.mp otherOutcome
  obtain ⟨rfl, size⟩ := Prod.mk.injEq .. ▸ same
  obtain ⟨rfl, otherSize⟩ := Prod.mk.injEq .. ▸ otherSame
  have completed := Except.eq_ok_of_toOption completed
  have otherCompleted := Except.eq_ok_of_toOption otherCompleted
  have sameProgram : (Program.overfull {}).SameButSinks (.overfull .discarding) :=
    .ask (.bind _ _ _ _) fun _ _ _ => .ask (.refl _) fun answer _ same => same ▸ .done answer
  have indifferent : Environment.lonely.provider.Indifferent := Tree.indifferent _
  have agreement := (reports_do_not_influence_inference indifferent true false 1).2
    (.overfull {}) (.overfull .discarding) .initial sameProgram
  rw [completed, otherCompleted] at agreement
  cases agreement with
  | answer _ agrees => exact ⟨state, other, completed, otherCompleted, size, otherSize, agrees⟩

end TypeInference
