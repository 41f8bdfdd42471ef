import TypeInference.Engine.Builtin
import TypeInference.Engine.Unification

/-!
# Calls

What calling a value returns.  The return values of a function come from its
return annotation, and from its body if there is no annotation or if it describes
nothing.  They are computed once for each call; a call that is being computed
further up returns nothing, and the budget bounds how many bodies are entered.
-/

namespace TypeInference

namespace Engine

variable (engine : Engine)

open Inference

/-! ## Functions -/

def setBudget (budget : ExecutionBudget) : Inference Unit :=
  modify fun state => { state with budget := budget }

/-- Infer the body of a function that the budget lets in. -/
def enterBody (function : FunctionId) (arguments : Arguments) : Inference TypeSet := do
  mark (.bodyEntered function)
  let declaration ← engine.functionDeclaration function
  let depth := (← get).budget.depth
  emit (.bodyEntered declaration.name depth)
  let parameters ← engine.bindQuietly function arguments
  let result ← engine.runProgram (engine.provider.inferBody ⟨function, arguments, parameters⟩)
  emit (.bodyLeft declaration.name depth)
  mark (.bodyLeft function)
  return result

def refuseBody (function : FunctionId) (reason : Refusal) : Inference TypeSet := do
  emit (.refused reason engine.settings function)
  count fun counters => { counters with refusals := counters.refusals + 1 }
  return ∅

/-- What the body of a function returns, as far as the budget allows. -/
def bodyType (function : FunctionId) (arguments : Arguments) : Inference TypeSet := do
  let declaration ← engine.functionDeclaration function
  mark (.bodyAsked function)
  let (budget, refusal?) := (← get).budget.enter function declaration.builtin.isSome
  setBudget budget
  let result ←
    match refusal? with
    | some reason => engine.refuseBody function reason
    | none => engine.enterBody function arguments
  setBudget (← get).budget.leave
  return result

def annotatedReturn (function : FunctionId) (arguments : Arguments) (node : NodeId) :
    Inference TypeSet := do
  let hint ← engine.readHint node
  if (← engine.freeVariables hint).isEmpty then engine.instances hint
  else
    let bindings ← engine.inferVariables function arguments
    engine.instances (← engine.substitute hint bindings)

def computeReturn (function : FunctionId) (arguments : Arguments) : Inference TypeSet := do
  mark (.returnComputed ⟨function, arguments⟩)
  let declaration ← engine.functionDeclaration function
  match declaration.builtin with
  | some behavior => engine.executeBuiltin behavior arguments
  | none =>
    match declaration.returns with
    | none => engine.bodyType function arguments
    | some node =>
      let annotated ← engine.annotatedReturn function arguments node
      if annotated.isEmpty then engine.bodyType function arguments else return annotated

def setProgress (invocation : Invocation) (progress : Progress) : Inference Unit := do
  mark (.callNoted invocation progress)
  modify fun state => { state with returns := state.returns.insert invocation progress }

def returnType (function : FunctionId) (arguments : Arguments) : Inference TypeSet := do
  let invocation : Invocation := ⟨function, arguments⟩
  match (← get).returns.get? invocation with
  | some (.finished result) =>
    count fun counters => { counters with memoHits := counters.memoHits + 1 }
    return result
  | some .running =>
    let declaration ← engine.functionDeclaration function
    emit (.recursiveReturn declaration.name)
    return ∅
  | none =>
    count fun counters => { counters with memoMisses := counters.memoMisses + 1 }
    setProgress invocation .running
    let result ← engine.computeReturn function arguments
    setProgress invocation (.finished result)
    return result

/-! ## Overloads -/

def acceptsCall (arguments : Arguments) (function : FunctionId) : Inference Bool := do
  allOf engine.accepts (← engine.bindQuietly function arguments)

/-- The first function whose annotations the arguments of a call fit. -/
def selectOverload (arguments : Arguments) : List FunctionId → Inference (Option FunctionId)
  | [] => pure none
  | function :: rest => do
    if ← engine.acceptsCall arguments function then
      emit (.overloadSelected function)
      return some function
    else selectOverload arguments rest

/-- What calling an overloaded function returns; without a match, what any overload does. -/
def executeOverloaded (functions : List FunctionId) (arguments : Arguments) :
    Inference TypeSet := do
  match ← engine.selectOverload arguments functions with
  | some function => engine.returnType function arguments
  | none => unionOver (fun function => engine.returnType function arguments) functions

/-! ## Classes -/

def constructor? (id : ValueId) : Inference (Option FunctionId) := do
  match ← engine.lookUpMember id "__init__" with
  | some (_, .method group) => return group.signatures.head?
  | _ => return none

/-- The slot of a type parameter that is bound, or the type parameter itself. -/
def parameterSlot (bindings : Substitution) (variable_ : TypeVariableId) : Inference TypeSet :=
  match bindings.get? variable_ with
  | some set => pure set
  | none => internSet (.typeVariable variable_)

/-- The type arguments that the constructor call of a generic class gives it. -/
def constructedGenerics (class_ : ClassId) (declaration : ClassDeclaration)
    (arguments : Arguments) : Inference Generics := do
  match ← engine.constructor? (← intern (.classObject class_)) with
  | none => return .none
  | some constructor =>
    let receiver ← intern (.instanceOf class_ .none)
    let bindings ← engine.inferVariables constructor (.bound receiver arguments)
    if bindings.isEmpty then return .none
    return .ofSlots (← declaration.typeParameters.mapM (parameterSlot bindings))

/-- What calling a class object without type arguments returns. -/
def construct (class_ : ClassId) (arguments : Arguments) : Inference TypeSet := do
  let declaration ← engine.classDeclaration class_
  if declaration.isGeneric then
    engine.instantiate class_ (← engine.constructedGenerics class_ declaration arguments)
  else engine.instantiate class_ .none

/-! ## Callables -/

def parameterListBindings (stream : List Supplied) (id : ValueId) : Inference Substitution := do
  match ← value id with
  | .typeList expected =>
    mergeOver
      (fun pair => do engine.unify pair.2 (← engine.resolve pair.1.value))
      (stream.zip expected)
  | _ => return ∅

/-- What calling a callable returns: its second type argument, given the first. -/
def callCallable (generics : Generics) (arguments : Arguments) : Inference TypeSet := do
  let typeArguments ← engine.typeArguments generics
  if typeArguments.size = 2 then
    let (stream, _) ← engine.unpack arguments none .discarding
    let bindings ← mergeOver (engine.parameterListBindings stream) (typeArguments.slot 0).members
    engine.instances (← engine.substitute (typeArguments.slot 1) bindings)
  else
    emit (.incompleteCallable typeArguments.size)
    return ∅

/-! ## Values -/

def executeValue (arguments : Arguments) (id : ValueId) : Inference TypeSet := do
  match ← value id with
  | .function function => engine.returnType function arguments
  | .overloaded functions => engine.executeOverloaded functions arguments
  | .boundMethod callee receiver =>
    engine.execute (.singleton callee) (.bound receiver arguments)
  | .classObject class_ => engine.construct class_ arguments
  | .genericClass class_ generics => engine.instantiate class_ generics
  | .callable generics => engine.callCallable generics arguments
  | .any => return ∅
  | _ =>
    emit (.notCallable (← engine.describe id))
    return ∅

def executeSet (set : TypeSet) (arguments : Arguments) : Inference TypeSet :=
  unionOver (engine.executeValue arguments) set.members

end Engine

end TypeInference
