import TypeInference.Proofs.Watch

/-!
# The execution budget holds

Executions that are refused are charged like others, so the counters of the budget do not
say which bodies have been entered.  The activity of a request says it: it is read off from
the marks of its journal alone.  Whatever the limits are, the counters bound the activity
from above and the limits bound the counters, at every moment.
-/

namespace TypeInference

open Inference

/-! ## What one charge does -/

namespace ExecutionBudget

/-- The executions that counted against a function. -/
def charges (budget : ExecutionBudget) (function : FunctionId) : Nat :=
  (budget.executions.get? function).getD 0

/-- No more has been charged than the limits allow. -/
structure Solvent (budget : ExecutionBudget) : Prop where
  total : budget.total ≤ budget.settings.totalExecutionLimit
  charges : ∀ function, budget.charges function ≤ budget.settings.functionExecutionLimit

/-- Charges are added under the same limits, as far as these allow. -/
structure Charges (budget after : ExecutionBudget) : Prop where
  settings : after.settings = budget.settings
  total : budget.total ≤ after.total
  charges : ∀ function, budget.charges function ≤ after.charges function
  solvent : budget.Solvent → after.Solvent

theorem Charges.refl (budget : ExecutionBudget) : budget.Charges budget :=
  ⟨rfl, Nat.le_refl _, fun _ => Nat.le_refl _, id⟩

theorem charges_insert (budget : ExecutionBudget) (function other : FunctionId) (number : Nat) :
    ({ budget with executions := budget.executions.insert function number } :
      ExecutionBudget).charges other =
      if other = function then number else budget.charges other := by
  unfold charges
  split
  · rename_i same
    rw [same, Table.get?_insert_self]
    rfl
  · rename_i different
    rw [Table.get?_insert_of_ne _ different]

/-- Charging a function the number of its charges, or one more if the limit allows. -/
theorem charges_of_insert {budget : ExecutionBudget}
    (open_ : budget.total < budget.settings.totalExecutionLimit)
    (more : budget.charges function ≤ number)
    (allowed : budget.Solvent → number ≤ budget.settings.functionExecutionLimit) :
    budget.Charges
      { budget with
        total := budget.total + 1
        executions := budget.executions.insert function number } where
  settings := rfl
  total := Nat.le_succ _
  charges other := by
    refine Nat.le_trans ?_ (Nat.le_of_eq (charges_insert budget function other number).symm)
    split
    · rename_i same
      rw [same]
      exact more
    · exact Nat.le_refl _
  solvent solvent := by
    refine ⟨open_, fun other => ?_⟩
    refine Nat.le_trans (Nat.le_of_eq (charges_insert budget function other number)) ?_
    split
    · exact allowed solvent
    · exact solvent.charges other

theorem charge_charges (budget : ExecutionBudget) (function : FunctionId) :
    budget.Charges (budget.charge function).1 := by
  unfold charge
  split
  · exact .refl budget
  · split
    · exact .refl budget
    · rename_i open_
      have open_ : budget.total < budget.settings.totalExecutionLimit := Nat.lt_of_not_le open_
      dsimp only
      split
      · exact charges_of_insert open_ (Nat.le_refl _) fun solvent => solvent.charges function
      · rename_i spare
        have spare : budget.charges function < budget.settings.functionExecutionLimit :=
          Nat.lt_of_not_le spare
        have charged :=
          charges_of_insert open_ (Nat.le_succ (budget.charges function)) fun _ => spare
        split <;> exact charged

/-- What is known of a function that is let in. -/
structure LetIn (budget after : ExecutionBudget) (function : FunctionId) : Prop where
  depth : budget.depth ≤ budget.settings.recursionLimit
  active : budget.active.count function ≤ budget.settings.functionRecursionLimit
  total : after.total = budget.total + 1
  charges : after.charges function = budget.charges function + 1

theorem letIn_of_charge {budget : ExecutionBudget} (admitted : (budget.charge function).2 = none) :
    budget.LetIn (budget.charge function).1 function := by
  revert admitted
  unfold charge
  split
  · exact fun admitted => by cases admitted
  · rename_i shallow
    split
    · exact fun admitted => by cases admitted
    · dsimp only
      split
      · exact fun admitted => by cases admitted
      · split
        · exact fun admitted => by cases admitted
        · rename_i few
          refine fun _ => ⟨Nat.le_of_not_lt shallow, Nat.le_of_not_lt few, rfl, ?_⟩
          exact (charges_insert budget function function _).trans (if_pos rfl)

end ExecutionBudget

/-! ## The activity of a request -/

/-- The executions that a request has started. -/
structure Activity where
  /-- How many executions were started, be they let in or refused. -/
  asked : Nat := 0
  /-- The functions whose bodies were entered, latest first. -/
  entered : List FunctionId := []
  /-- The functions whose bodies are being inferred, innermost first. -/
  active : List FunctionId := []

namespace Activity

/-- The activity after one more mark. -/
def after (activity : Activity) : Mark → Activity
  | .bodyAsked _ => { activity with asked := activity.asked + 1 }
  | .bodyEntered function =>
    { activity with
      entered := function :: activity.entered
      active := function :: activity.active }
  | .bodyLeft _ => { activity with active := activity.active.tail }
  | _ => activity

/-- The activity that the marks of a journal tell of, latest first. -/
def ofMarks : List Mark → Activity
  | [] => {}
  | mark :: past => (ofMarks past).after mark

/-- Activity that limits allow. -/
structure Within (settings : Settings) (activity : Activity) : Prop where
  /-- Bodies are entered so many times in all. -/
  entered : activity.entered.length ≤ settings.totalExecutionLimit
  /-- The body of any one function is entered so many times. -/
  enteredEach : ∀ function, activity.entered.count function ≤ settings.functionExecutionLimit
  /-- So many bodies are being inferred at once. -/
  active : activity.active.length ≤ settings.recursionLimit
  /-- So many bodies of any one function are being inferred at once. -/
  activeEach : ∀ function, activity.active.count function ≤ settings.functionRecursionLimit

end Activity

/-- A request that has kept to its limits so far. -/
structure State.KeepsBudget (settings : Settings) (state : State) : Prop where
  /-- The limits allow the activity of every moment. -/
  within : ∀ past, past <:+ state.journal → (Activity.ofMarks past).Within settings
  /-- Each execution that was started has either been entered or been counted as refused. -/
  counted : state.counters.refusals + (Activity.ofMarks state.journal).entered.length =
    (Activity.ofMarks state.journal).asked

/-! ## Accounts -/

/-- The stack and the counters of a budget tell of the activity that led to it. -/
structure Accounts (settings : Settings) (budget : ExecutionBudget) (refusals : Nat)
    (journal : List Mark) : Prop where
  sameSettings : budget.settings = settings
  stack : budget.active = (Activity.ofMarks journal).active
  depth : budget.depth = (Activity.ofMarks journal).active.length
  solvent : budget.Solvent
  entered : (Activity.ofMarks journal).entered.length ≤ budget.total
  enteredEach : ∀ function,
    (Activity.ofMarks journal).entered.count function ≤ budget.charges function
  within : ∀ past, past <:+ journal → (Activity.ofMarks past).Within settings
  counted : refusals + (Activity.ofMarks journal).entered.length = (Activity.ofMarks journal).asked

/-- If the limits allow the activity of every moment up to now, and that of now. -/
theorem Activity.within_cons {settings : Settings} {mark : Mark} {marks : List Mark}
    (within : ∀ past, past <:+ marks → (Activity.ofMarks past).Within settings)
    (latest : (Activity.ofMarks (mark :: marks)).Within settings) :
    ∀ past, past <:+ mark :: marks → (Activity.ofMarks past).Within settings := by
  intro past isPast
  rcases List.suffix_cons_iff.mp isPast with rfl | earlier
  · exact latest
  · exact within past earlier

namespace Accounts

variable {settings : Settings} {budget : ExecutionBudget} {refusals : Nat} {journal : List Mark}
  {function : FunctionId} {mark : Mark} (accounts : Accounts settings budget refusals journal)

include accounts

theorem now : (Activity.ofMarks journal).Within settings :=
  accounts.within journal List.suffix_rfl

/-- Marks that tell of no executions do not count. -/
theorem skip (idle : Activity.ofMarks (mark :: journal) = Activity.ofMarks journal) :
    Accounts settings budget refusals (mark :: journal) := by
  refine ⟨accounts.sameSettings, ?_, ?_, accounts.solvent, ?_, ?_, ?_, ?_⟩
  · rw [idle, accounts.stack]
  · rw [idle, accounts.depth]
  · rw [idle]
    exact accounts.entered
  · rw [idle]
    exact accounts.enteredEach
  · exact Activity.within_cons accounts.within (idle ▸ accounts.now)
  · rw [idle]
    exact accounts.counted

theorem enterBody (admitted : (budget.enter function false).2 = none) :
    Accounts settings (budget.enter function false).1 refusals
      (.bodyEntered function :: .bodyAsked function :: journal) := by
  have pushed := budget.enter_stack function false
  have charged := (budget.activate function).charge_charges function
  have letIn := ExecutionBudget.letIn_of_charge admitted
  have entered : (Activity.ofMarks journal).entered.length + 1 ≤
      (budget.enter function false).1.total :=
    Nat.le_trans (Nat.succ_le_succ accounts.entered) (Nat.le_of_eq letIn.total.symm)
  have enteredEach (other : FunctionId) :
      (function :: (Activity.ofMarks journal).entered).count other ≤
        (budget.enter function false).1.charges other := by
    by_cases same : other = function
    · subst same
      rw [List.count_cons_self]
      exact Nat.le_trans (Nat.succ_le_succ (accounts.enteredEach other))
        (Nat.le_of_eq letIn.charges.symm)
    · rw [List.count_cons_of_ne (Ne.symm same)]
      exact Nat.le_trans (accounts.enteredEach other) (charged.charges other)
  have solvent := charged.solvent ⟨accounts.solvent.total, accounts.solvent.charges⟩
  have sameSettings := charged.settings.trans accounts.sameSettings
  have now := accounts.now
  refine ⟨sameSettings, pushed.1.trans (congrArg (function :: ·) accounts.stack),
    pushed.2.trans (congrArg (· + 1) accounts.depth), solvent, entered, enteredEach, ?_, ?_⟩
  · refine Activity.within_cons (Activity.within_cons accounts.within
      ⟨now.entered, now.enteredEach, now.active, now.activeEach⟩)
      ⟨?_, fun other => ?_, ?_, fun other => ?_⟩
    · exact Nat.le_trans entered (sameSettings ▸ solvent.total)
    · exact Nat.le_trans (enteredEach other) (sameSettings ▸ solvent.charges other)
    · -- When a function is let in, the stack is no deeper than the limit.
      have shallow : budget.depth + 1 ≤ budget.settings.recursionLimit := letIn.depth
      rwa [accounts.depth, accounts.sameSettings] at shallow
    · show (function :: (Activity.ofMarks journal).active).count other ≤
        settings.functionRecursionLimit
      by_cases same : other = function
      · subst same
        have few : (other :: budget.active).count other ≤ budget.settings.functionRecursionLimit :=
          letIn.active
        rwa [accounts.stack, accounts.sameSettings] at few
      · rw [List.count_cons_of_ne (Ne.symm same)]
        exact now.activeEach other
  · show refusals + ((Activity.ofMarks journal).entered.length + 1) =
      (Activity.ofMarks journal).asked + 1
    rw [← accounts.counted, Nat.add_assoc]

theorem refuseBody :
    Accounts settings (budget.enter function false).1.leave (refusals + 1)
      (.bodyAsked function :: journal) := by
  have pushed := budget.enter_stack function false
  have charged := (budget.activate function).charge_charges function
  have solvent := charged.solvent ⟨accounts.solvent.total, accounts.solvent.charges⟩
  have now := accounts.now
  refine ⟨charged.settings.trans accounts.sameSettings, ?_, ?_, ⟨solvent.total, solvent.charges⟩,
    Nat.le_trans accounts.entered charged.total,
    fun other => Nat.le_trans (accounts.enteredEach other) (charged.charges other),
    Activity.within_cons accounts.within
      ⟨now.entered, now.enteredEach, now.active, now.activeEach⟩, ?_⟩
  · show (budget.enter function false).1.active.tail = (Activity.ofMarks journal).active
    rw [pushed.1, List.tail_cons, accounts.stack]
  · show (budget.enter function false).1.depth - 1 = (Activity.ofMarks journal).active.length
    rw [pushed.2, Nat.add_sub_cancel, accounts.depth]
  · show refusals + 1 + (Activity.ofMarks journal).entered.length =
      (Activity.ofMarks journal).asked + 1
    rw [← accounts.counted, Nat.add_right_comm]

theorem leaveBody : Accounts settings budget.leave refusals (.bodyLeft function :: journal) := by
  have now := accounts.now
  have fewer := List.tail_sublist (Activity.ofMarks journal).active
  refine ⟨accounts.sameSettings, ?_, ?_, ⟨accounts.solvent.total, accounts.solvent.charges⟩,
    accounts.entered, accounts.enteredEach, Activity.within_cons accounts.within
      ⟨now.entered, now.enteredEach, Nat.le_trans fewer.length_le now.active,
        fun other => Nat.le_trans (fewer.count_le other) (now.activeEach other)⟩, accounts.counted⟩
  · show budget.active.tail = (Activity.ofMarks journal).active.tail
    rw [accounts.stack]
  · show budget.depth - 1 = (Activity.ofMarks journal).active.tail.length
    rw [accounts.depth, List.length_tail]

end Accounts

theorem invariant_accounts (settings : Settings) : Invariant settings fun state =>
    Accounts settings state.budget state.counters.refusals state.journal where
  aside undisturbed accounts := by
    rw [undisturbed.budget, undisturbed.refusals, undisturbed.journal]
    exact accounts
  enterNode _ accounts := accounts
  leaveNode accounts := accounts
  enterBody admitted accounts := accounts.enterBody admitted
  leaveBody accounts := accounts.leaveBody
  refuseBody accounts := accounts.refuseBody
  startCall _ accounts := (accounts.skip rfl).skip rfl
  finishCall _ accounts := accounts.skip rfl

/--
Whatever the limits are and whatever the tree asks for, the bodies that a request enters
stay within the budget: in all and for each function, entered or being inferred, at every
moment before an operation is entered or returns.  The refusals that were counted and the
bodies that were entered are then all the executions that were started, and so they are
when a run is over.
-/
theorem execution_budgets_hold
    (environment : Environment)
    (arena : Arena)
    (fuel : Nat)
    {α : Type}
    (program : Program α) :
    environment.Maintains (State.KeepsBudget environment.settings) fuel program
        (environment.start arena) ∧
      ∀ answer after,
        environment.run fuel program (environment.start arena) = .ok (answer, after) →
        after.KeepsBudget environment.settings := by
  have start : Accounts environment.settings (environment.start arena).budget 0 [] := by
    refine ⟨rfl, rfl, rfl, ⟨Nat.zero_le _, fun _ => Nat.zero_le _⟩, Nat.zero_le _,
      fun _ => Nat.zero_le _, fun past isPast => ?_, rfl⟩
    cases List.suffix_nil.mp isPast
    refine ⟨?_, fun _ => ?_, ?_, fun _ => ?_⟩
    all_goals exact Nat.zero_le _
  refine ⟨environment.maintains (invariant_accounts _)
    (fun accounts => ⟨accounts.within, accounts.counted⟩) fuel program start,
    fun answer after completed => ?_⟩
  have accounts := (environment.keeps_run (invariant_accounts _) completed start).1
  exact ⟨accounts.within, accounts.counted⟩

end TypeInference
