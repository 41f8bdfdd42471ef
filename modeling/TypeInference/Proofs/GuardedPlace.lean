import Mathlib.Data.List.Infix
import TypeInference.Engine.Run
import TypeInference.Proofs.Hint

/-!
# The guarded places

The guards and the table of returns are touched in three places only: around the
inference of a node, around the execution of a body, and around the computation of
what a call returns.  This module takes these places out of the engine, says what each
of them does to a request, and shows that what is opened there is closed again.
-/

namespace TypeInference

open Inference

/-- Neither the guards nor the returns, nor what is counted or noted of them, is touched. -/
structure State.Undisturbed (state after : State) : Prop where
  returns : after.returns = state.returns
  nodeGuard : after.nodeGuard = state.nodeGuard
  budget : after.budget = state.budget
  memoMisses : after.counters.memoMisses = state.counters.memoMisses
  refusals : after.counters.refusals = state.counters.refusals
  journal : after.journal = state.journal

theorem State.Undisturbed.refl (state : State) : state.Undisturbed state :=
  ⟨rfl, rfl, rfl, rfl, rfl, rfl⟩

/-! ## The three guarded places -/

namespace Inference

/-- Infer a node, unless it is being inferred already. -/
def guarded (node : NodeId) (content : Inference TypeSet) : Inference TypeSet := do
  count fun counters => { counters with nodeInferences := counters.nodeInferences + 1 }
  match (← get).nodeGuard.enter? node with
  | none =>
    emit (.nodeRecursion node)
    return ∅
  | some guard =>
    modify fun state => { state with nodeGuard := guard }
    let result ← content
    modify fun state => { state with nodeGuard := state.nodeGuard.leave }
    return result

/-- Turn down the execution of a body. -/
def refused (settings : Settings) (function : FunctionId) (reason : Refusal) :
    Inference TypeSet := do
  emit (.refused reason settings function)
  count fun counters => { counters with refusals := counters.refusals + 1 }
  return ∅

/-- Enter the body of a function, and leave it. -/
def entering (function : FunctionId) (content : Inference TypeSet) : Inference TypeSet := do
  mark (.bodyEntered function)
  let result ← content
  mark (.bodyLeft function)
  return result

/-- Leave the execution that was started last, with its result. -/
def leaving (result : TypeSet) : Inference TypeSet := do
  Engine.setBudget (← get).budget.leave
  return result

/-- Execute a body, unless the budget refuses it. -/
def budgeted (settings : Settings) (function : FunctionId) (builtin : Bool)
    (content : Inference TypeSet) : Inference TypeSet := do
  mark (.bodyAsked function)
  let (budget, refusal?) := (← get).budget.enter function builtin
  Engine.setBudget budget
  match refusal? with
  | some reason => refused settings function reason >>= leaving
  | none => entering function content >>= leaving

/-- Compute what a call returns, unless it is known or being computed. -/
def remembered (invocation : Invocation) (again content : Inference TypeSet) :
    Inference TypeSet := do
  match (← get).returns.get? invocation with
  | some (.finished result) =>
    count fun counters => { counters with memoHits := counters.memoHits + 1 }
    return result
  | some .running => again
  | none =>
    count fun counters => { counters with memoMisses := counters.memoMisses + 1 }
    Engine.setProgress invocation .running
    mark (.returnComputed invocation)
    let result ← content
    Engine.setProgress invocation (.finished result)
    return result

end Inference

namespace Engine

variable (engine : Engine)

theorem inferNodeOnce_eq_guarded (node : NodeId) :
    engine.inferNodeOnce node = guarded node (engine.runProgram (engine.provider.inferNode node)) :=
  rfl

/-- What happens in a body that has been entered. -/
def inferBody (function : FunctionId) (arguments : Arguments) : Inference TypeSet := do
  let declaration ← engine.functionDeclaration function
  let depth ← look fun state => state.budget.depth
  emit (.bodyEntered declaration.name depth)
  let parameters ← engine.bindQuietly function arguments
  let result ← engine.runProgram (engine.provider.inferBody ⟨function, arguments, parameters⟩)
  emit (.bodyLeft declaration.name depth)
  return result

theorem bodyType_eq_budgeted (function : FunctionId) (arguments : Arguments) :
    engine.bodyType function arguments = (do
      let declaration ← engine.functionDeclaration function
      budgeted engine.settings function declaration.builtin.isSome
        (engine.inferBody function arguments)) := by
  have entered : engine.enterBody function arguments =
      entering function (engine.inferBody function arguments) := by
    simp only [enterBody, entering, inferBody, bind_assoc, pure_bind]
    rfl
  unfold budgeted
  rw [← entered]
  rfl

/-- What a call returns by its declaration, if its body is given. -/
def returnBy (body : Inference TypeSet) (function : FunctionId) (arguments : Arguments) :
    Inference TypeSet := do
  let declaration ← engine.functionDeclaration function
  match declaration.builtin with
  | some behavior => engine.executeBuiltin behavior arguments
  | none =>
    match declaration.returns with
    | none => body
    | some node =>
      let annotated ← engine.annotatedReturn function arguments node
      if annotated.isEmpty then body else return annotated

/-- What a call returns by its declaration. -/
def declaredReturn (function : FunctionId) (arguments : Arguments) : Inference TypeSet :=
  engine.returnBy (engine.bodyType function arguments) function arguments

theorem returnType_eq_remembered (function : FunctionId) (arguments : Arguments) :
    engine.returnType function arguments =
      remembered ⟨function, arguments⟩
        (do
          let declaration ← engine.functionDeclaration function
          emit (.recursiveReturn declaration.name)
          return ∅)
        (engine.declaredReturn function arguments) :=
  rfl

end Engine

/-! ## Changes -/

namespace State

variable (state : State)

def askNode : State :=
  { state with
    counters := { state.counters with nodeInferences := state.counters.nodeInferences + 1 } }

def enterNode (node : NodeId) : State :=
  { state with nodeGuard := ⟨node :: state.nodeGuard.active⟩ }

def leaveNode : State :=
  { state with nodeGuard := state.nodeGuard.leave }

/-- Start the execution of a function. -/
def askBody (function : FunctionId) (builtin : Bool) : State :=
  { state with
    budget := (state.budget.enter function builtin).1
    journal := .bodyAsked function :: state.journal }

/-- Start the execution of a function, and enter its body. -/
def enterBody (function : FunctionId) (builtin : Bool) : State :=
  { state.askBody function builtin with
    journal := .bodyEntered function :: .bodyAsked function :: state.journal }

def leaveBody (function : FunctionId) : State :=
  { state with
    budget := state.budget.leave
    journal := .bodyLeft function :: state.journal }

/-- Start the execution of a function, refuse it, and leave it. -/
def refuseBody (settings : Settings) (function : FunctionId) (builtin : Bool) (reason : Refusal) :
    State :=
  { state.askBody function builtin with
    budget := (state.budget.enter function builtin).1.leave
    events := state.events.push (.refused reason settings function)
    counters := { state.counters with refusals := state.counters.refusals + 1 } }

def startCall (invocation : Invocation) : State :=
  { state with
    counters := { state.counters with memoMisses := state.counters.memoMisses + 1 }
    returns := state.returns.insert invocation .running
    journal := .returnComputed invocation :: .callNoted invocation .running :: state.journal }

def finishCall (invocation : Invocation) (result : TypeSet) : State :=
  { state with
    returns := state.returns.insert invocation (.finished result)
    journal := .callNoted invocation (.finished result) :: state.journal }

end State

/-! ## What the guarded places do -/

namespace Inference

theorem guarded_of_active (active : source ∈ state.nodeGuard.active) (content : Inference TypeSet) :
    guarded source content state =
      .ok (∅, { state.askNode with events := state.events.push (.nodeRecursion source) }) := by
  have refuses : state.nodeGuard.enter? source = none := if_pos active
  show (match state.nodeGuard.enter? source with
    | none => (do emit (.nodeRecursion source); return ∅ : Inference TypeSet)
    | some guard => _) state.askNode = _
  rw [refuses]
  rfl

theorem guarded_of_not_active (inactive : source ∉ state.nodeGuard.active)
    (content : Inference TypeSet) :
    guarded source content state =
      (content (state.askNode.enterNode source)).map
        fun result => (result.1, result.2.leaveNode) := by
  have enters : state.nodeGuard.enter? source = some ⟨source :: state.nodeGuard.active⟩ :=
    if_neg inactive
  show (match state.nodeGuard.enter? source with
    | none => _
    | some guard => (do
      modify fun state : State => { state with nodeGuard := guard }
      let result ← content
      modify fun state : State => { state with nodeGuard := state.nodeGuard.leave }
      return result : Inference TypeSet)) state.askNode = _
  rw [enters]
  show (content (state.askNode.enterNode source) >>= fun result =>
    Except.ok (result.1, result.2.leaveNode)) = _
  cases content (state.askNode.enterNode source) <;> rfl

theorem budgeted_of_refusal (refusal : (state.budget.enter function builtin).2 = some reason)
    (content : Inference TypeSet) :
    budgeted settings function builtin content state =
      .ok (∅, state.refuseBody settings function builtin reason) := by
  show (match (state.budget.enter function builtin).2 with
    | some reason => refused settings function reason >>= leaving
    | none => _) (state.askBody function builtin) = _
  rw [refusal]
  rfl

theorem budgeted_of_no_refusal (admitted : (state.budget.enter function builtin).2 = none)
    (content : Inference TypeSet) :
    budgeted settings function builtin content state =
      (content (state.enterBody function builtin)).map
        fun result => (result.1, result.2.leaveBody function) := by
  show (match (state.budget.enter function builtin).2 with
    | some reason => _
    | none => entering function content >>= leaving) (state.askBody function builtin) = _
  rw [admitted]
  show ((content (state.enterBody function builtin) >>= fun result =>
    Except.ok (result.1, { result.2 with journal := .bodyLeft function :: result.2.journal }))
      >>= fun result => leaving result.1 result.2) = _
  cases content (state.enterBody function builtin) <;> rfl

theorem remembered_eq (invocation : Invocation) (again content : Inference TypeSet)
    (state : State) :
    remembered invocation again content state =
      match state.returns.get? invocation with
      | some (.finished result) =>
        .ok (result, { state with
          counters := { state.counters with memoHits := state.counters.memoHits + 1 } })
      | some .running => again state
      | none =>
        (content (state.startCall invocation)).map
          fun result => (result.1, result.2.finishCall invocation result.1) := by
  show (match state.returns.get? invocation with
    | some (.finished result) => (do
      count fun counters => { counters with memoHits := counters.memoHits + 1 }
      return result : Inference TypeSet)
    | some .running => again
    | none => (do
      count fun counters => { counters with memoMisses := counters.memoMisses + 1 }
      Engine.setProgress invocation .running
      mark (.returnComputed invocation)
      let result ← content
      Engine.setProgress invocation (.finished result)
      return result : Inference TypeSet)) state = _
  cases state.returns.get? invocation with
  | none =>
    show (content (state.startCall invocation) >>= fun result =>
      Except.ok (result.1, result.2.finishCall invocation result.1)) = _
    cases content (state.startCall invocation) <;> rfl
  | some progress => cases progress <;> rfl

end Inference

/-! ## What is restored -/

namespace ExecutionBudget

/-- Charging a function leaves the stack alone. -/
theorem charge_stack (budget : ExecutionBudget) (function : FunctionId) :
    (budget.charge function).1.active = budget.active ∧
      (budget.charge function).1.depth = budget.depth := by
  unfold charge
  dsimp only
  repeat' split
  all_goals exact ⟨rfl, rfl⟩

/-- Whether it is refused or not, an execution goes onto the stack. -/
theorem enter_stack (budget : ExecutionBudget) (function : FunctionId) (builtin : Bool) :
    (budget.enter function builtin).1.active = function :: budget.active ∧
      (budget.enter function builtin).1.depth = budget.depth + 1 := by
  unfold enter
  split
  · exact ⟨rfl, rfl⟩
  · exact charge_stack (budget.activate function) function

end ExecutionBudget

/--
The guards are as they were, the same calls are being computed, and nothing has been taken
out of the journal.
-/
structure State.Restored (state after : State) : Prop where
  nodeGuard : after.nodeGuard = state.nodeGuard
  active : after.budget.active = state.budget.active
  depth : after.budget.depth = state.budget.depth
  running : ∀ invocation, after.returns.get? invocation = some .running ↔
    state.returns.get? invocation = some .running
  journal : state.journal <:+ after.journal

namespace State

theorem Restored.refl (state : State) : state.Restored state :=
  ⟨rfl, rfl, rfl, fun _ => Iff.rfl, List.suffix_rfl⟩

theorem Restored.trans {state between after : State} (first : state.Restored between)
    (second : between.Restored after) :
    state.Restored after where
  nodeGuard := second.nodeGuard.trans first.nodeGuard
  active := second.active.trans first.active
  depth := second.depth.trans first.depth
  running invocation := (second.running invocation).trans (first.running invocation)
  journal := first.journal.trans second.journal

theorem Undisturbed.restored {state after : State} (undisturbed : state.Undisturbed after) :
    state.Restored after where
  nodeGuard := undisturbed.nodeGuard
  active := by rw [undisturbed.budget]
  depth := by rw [undisturbed.budget]
  running invocation := by rw [undisturbed.returns]
  journal := by rw [undisturbed.journal]

theorem Restored.leaveNode {state after : State}
    (restored : (state.enterNode source).Restored after) :
    state.Restored after.leaveNode where
  nodeGuard := by
    show after.nodeGuard.leave = state.nodeGuard
    rw [restored.nodeGuard]
    rfl
  active := restored.active
  depth := restored.depth
  running := restored.running
  journal := restored.journal

theorem Restored.leaveBody {state after : State}
    (restored : (state.enterBody function builtin).Restored after) :
    state.Restored (after.leaveBody function) := by
  have entered := state.budget.enter_stack function builtin
  have active : after.budget.active = function :: state.budget.active :=
    restored.active.trans entered.1
  have depth : after.budget.depth = state.budget.depth + 1 := restored.depth.trans entered.2
  have noted : state.journal <:+ after.journal :=
    ((List.suffix_cons _ _).trans (List.suffix_cons _ _)).trans restored.journal
  refine ⟨restored.nodeGuard, ?_, ?_, restored.running, noted.trans (List.suffix_cons _ _)⟩
  · show after.budget.active.tail = state.budget.active
    rw [active, List.tail_cons]
  · show after.budget.depth - 1 = state.budget.depth
    rw [depth, Nat.add_sub_cancel]

theorem Restored.refuseBody (state : State) :
    state.Restored (state.refuseBody settings function builtin reason) := by
  have entered := state.budget.enter_stack function builtin
  refine ⟨rfl, ?_, ?_, fun _ => Iff.rfl, List.suffix_cons _ _⟩
  · show (state.budget.enter function builtin).1.active.tail = state.budget.active
    rw [entered.1, List.tail_cons]
  · show (state.budget.enter function builtin).1.depth - 1 = state.budget.depth
    rw [entered.2, Nat.add_sub_cancel]

theorem Restored.finishCall {state after : State} (absent : state.returns.get? invocation = none)
    (restored : (state.startCall invocation).Restored after) :
    state.Restored (after.finishCall invocation result) where
  nodeGuard := restored.nodeGuard
  active := restored.active
  depth := restored.depth
  running other := by
    show (after.returns.insert invocation (.finished result)).get? other = some .running ↔ _
    by_cases same : other = invocation
    · simp [same, absent]
    · have kept := restored.running other
      simp only [startCall, Table.get?_insert_of_ne _ same] at kept
      rw [Table.get?_insert_of_ne _ same, kept]
  journal := by
    have noted : state.journal <:+ after.journal :=
      ((List.suffix_cons _ _).trans (List.suffix_cons _ _)).trans restored.journal
    exact noted.trans (List.suffix_cons _ _)

end State

theorem Except.map_eq_ok_iff {outcome : Except Fault α} :
    outcome.map change = .ok result ↔ ∃ before, outcome = .ok before ∧ change before = result := by
  cases outcome <;> simp [Except.map]

theorem Except.eq_ok_of_toOption {outcome : Except Fault α}
    (succeeds : outcome.toOption = some result) :
    outcome = .ok result := by
  cases outcome with
  | error fault => cases succeeds
  | ok other => exact congrArg Except.ok (Option.some.inj succeeds)

namespace Inference

theorem guarded_cases (succeeds : guarded source content state = .ok (result, after)) :
    (source ∈ state.nodeGuard.active ∧ result = ∅ ∧
      after = { state.askNode with events := state.events.push (.nodeRecursion source) }) ∨
    ∃ before, content (state.askNode.enterNode source) = .ok (result, before) ∧
      after = before.leaveNode := by
  by_cases active : source ∈ state.nodeGuard.active
  · rw [guarded_of_active active] at succeeds
    cases succeeds
    exact .inl ⟨active, rfl, rfl⟩
  · rw [guarded_of_not_active active] at succeeds
    obtain ⟨_, contained, ⟨⟩⟩ := Except.map_eq_ok_iff.mp succeeds
    exact .inr ⟨_, contained, rfl⟩

theorem budgeted_cases
    (succeeds : budgeted settings function builtin content state = .ok (result, after)) :
    (∃ reason, result = ∅ ∧ after = state.refuseBody settings function builtin reason) ∨
    ∃ before, content (state.enterBody function builtin) = .ok (result, before) ∧
      after = before.leaveBody function := by
  cases refusal : (state.budget.enter function builtin).2 with
  | some reason =>
    rw [budgeted_of_refusal refusal] at succeeds
    cases succeeds
    exact .inl ⟨reason, rfl, rfl⟩
  | none =>
    rw [budgeted_of_no_refusal refusal] at succeeds
    obtain ⟨_, contained, ⟨⟩⟩ := Except.map_eq_ok_iff.mp succeeds
    exact .inr ⟨_, contained, rfl⟩

theorem remembered_cases
    (succeeds : remembered invocation again content state = .ok (result, after)) :
    (state.returns.get? invocation = none ∧ ∃ before,
      content (state.startCall invocation) = .ok (result, before) ∧
      after = before.finishCall invocation result) ∨
    (state.returns.get? invocation = some .running ∧ again state = .ok (result, after)) ∨
    state.returns.get? invocation = some (.finished result) ∧ after = { state with
      counters := { state.counters with memoHits := state.counters.memoHits + 1 } } := by
  rw [remembered_eq] at succeeds
  split at succeeds
  · cases succeeds
    exact .inr (.inr ⟨‹_›, rfl⟩)
  · exact .inr (.inl ⟨‹_›, succeeds⟩)
  · obtain ⟨_, contained, ⟨⟩⟩ := Except.map_eq_ok_iff.mp succeeds
    exact .inl ⟨‹_›, _, contained, rfl⟩

end Inference

end TypeInference
