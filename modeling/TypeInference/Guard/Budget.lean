import TypeInference.Identifier
import TypeInference.Settings
import TypeInference.Table

/-!
# The execution budget

Executions of functions are limited by how deeply they nest, by their total
number, by the number for each function, and by the number of activations of
one function at a time.  An execution that is refused is still on the stack until
it is left.
-/

namespace TypeInference

/-- Which limit refuses an execution. -/
inductive Refusal where
  | depth
  | total
  | function
  | functionRecursion
deriving DecidableEq

/-- The executions so far and the limits they are held to. -/
structure ExecutionBudget where
  settings : Settings := {}
  depth : Nat := 0
  /-- The functions on the stack, innermost first. -/
  active : List FunctionId := []
  /-- Executions that counted against each function. -/
  executions : Table FunctionId Nat := ∅
  total : Nat := 0
deriving DecidableEq, Inhabited

namespace ExecutionBudget

def activate (budget : ExecutionBudget) (function : FunctionId) : ExecutionBudget :=
  { budget with depth := budget.depth + 1, active := function :: budget.active }

/-- Charge an activated function, and say which limit refuses it. -/
def charge (budget : ExecutionBudget) (function : FunctionId) :
    ExecutionBudget × Option Refusal :=
  if budget.settings.recursionLimit < budget.depth then (budget, some .depth)
  else if budget.settings.totalExecutionLimit ≤ budget.total then (budget, some .total)
  else
    let counted := (budget.executions.get? function).getD 0
    let budget := { budget with total := budget.total + 1 }
    if budget.settings.functionExecutionLimit ≤ counted then
      ({ budget with executions := budget.executions.insert function counted }, some .function)
    else
      let budget := { budget with executions := budget.executions.insert function (counted + 1) }
      if budget.settings.functionRecursionLimit < budget.active.count function then
        (budget, some .functionRecursion)
      else (budget, none)

/-- Start an execution; builtin functions are never refused and never charged. -/
def enter (budget : ExecutionBudget) (function : FunctionId) (builtin : Bool) :
    ExecutionBudget × Option Refusal :=
  let activated := budget.activate function
  if builtin then (activated, none) else activated.charge function

def leave (budget : ExecutionBudget) : ExecutionBudget :=
  { budget with depth := budget.depth - 1, active := budget.active.tail }

end ExecutionBudget

end TypeInference
