import TypeInference.Engine.Operation
import TypeInference.Value.Term

/-!
# Expressions

What computed nodes and function bodies are made of: terms, and the operations of
inference on them.  An expression is evaluated anew each time, its parts from left
to right.
-/

namespace TypeInference

mutual

/-- An expression that evaluates to a set of values. -/
inductive Expression where
  | set (term : SetTerm)
  | parameter (name : String)
  | union (parts : List Expression)
  | call (callee : Expression) (arguments : CallArguments)
  | readAttribute (object : Expression) (name : String)
  | readItem (object : Expression) (index : Index)
  | elements (iterable : Expression)
  | instances (classes : Expression)
  | node (node : NodeId)
  | hint (node : NodeId)
  | slot (generics : GenericsTerm) (position : Nat)
  | packedTuple (parts : List Expression)

inductive CallArguments where
  | none
  /-- The arguments that the executed function was called with. -/
  | same
  | written (arguments : List Argument)
  | values (parts : List Expression)
  | bound (receiver : ValueTerm) (arguments : CallArguments)
  | located (node : NodeId) (arguments : CallArguments)

end

def Program.store (value : Value) : Program ValueId :=
  .perform (.intern value)

/-- The values of a parameter of the executed function, if there is one. -/
def Execution.parameterValues (execution : Option Execution) (name : String) : Program TypeSet :=
  match execution.bind (fun execution => execution.parameter? name) with
  | some parameter => .perform (.resolve parameter.value)
  | none => .done ∅

section Evaluation

variable (execution : Option Execution)

mutual

def Expression.program : Expression → Program TypeSet
  | .set term => term.intern Program.store
  | .parameter name => Execution.parameterValues execution name
  | .union parts => do return .unions (← programs parts)
  | .call callee arguments => do
    let callee ← Expression.program callee
    let arguments ← CallArguments.program arguments
    .perform (.execute callee arguments)
  | .readAttribute object name => do
    let object ← Expression.program object
    .perform (.readAttribute object name)
  | .readItem object index => do
    let object ← Expression.program object
    .perform (.readItem object index)
  | .elements iterable => do
    let iterable ← Expression.program iterable
    .perform (.elementSet iterable)
  | .instances classes => do
    let classes ← Expression.program classes
    .perform (.instances classes)
  | .node node => .perform (.inferNode node)
  | .hint node => .perform (.readHint node)
  | .slot generics position => do
    let generics ← generics.intern Program.store
    let arguments ← Program.perform (.typeArguments generics)
    return arguments.slot position
  | .packedTuple parts => do
    let items ← programs parts
    let id ← Program.store (.packedTuple items)
    return .singleton id

def programs : List Expression → Program (List TypeSet)
  | [] => .done []
  | part :: rest => do
    let first ← Expression.program part
    let others ← programs rest
    return first :: others

def CallArguments.program : CallArguments → Program Arguments
  | .none => .done .empty
  | .same => .done ((execution.map Execution.arguments).getD .empty)
  | .written arguments => .done (.written arguments Option.none)
  | .values parts => do return .values (← programs parts)
  | .bound receiver arguments => do
    let receiver ← receiver.intern Program.store
    let arguments ← CallArguments.program arguments
    return .bound receiver arguments
  | .located node arguments => do
    let arguments ← CallArguments.program arguments
    return arguments.locate node

end

end Evaluation

end TypeInference
