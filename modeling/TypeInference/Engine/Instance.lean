import TypeInference.Engine.Ancestry

/-!
# Instances of annotations

The instance-level values that a class-level set describes.  A class describes its
instances, a type variable what it falls back to, a typing form what its type
arguments describe; instance-level values describe themselves.
-/

namespace TypeInference

namespace Engine

variable (engine : Engine)

open Inference

def instantiate (class_ : ClassId) (generics : Generics) : Inference TypeSet := do
  if class_ = Builtin.tuple then internSet (.tuple generics)
  else
    let declaration ← engine.classDeclaration class_
    if declaration.isTypedDict then internSet (.typedDict class_)
    else internSet (.instanceOf class_ generics)

def formInstances (nested : TypeSet → Inference TypeSet) (form : SpecialForm)
    (generics : Generics) : Inference TypeSet := do
  match form with
  | .union =>
    let arguments ← engine.typeArguments generics
    unionOver nested arguments.slots
  | .optional =>
    let arguments ← engine.typeArguments generics
    let present ← unionOver nested arguments.slots
    return present.insert Arena.noneId
  | .type => return (← engine.typeArguments generics).slot 0
  | .classVar =>
    let arguments ← engine.typeArguments generics
    nested (arguments.slot 0)
  | .callable => internSet (.callable generics)
  | .tuple => internSet (.tuple generics)

def variableInstances (nested : TypeSet → Inference TypeSet) (variable_ : TypeVariableId) :
    Inference TypeSet := do
  let typeVariables := engine.declarations.typeVariables
  let fallback := typeVariables.fallback variable_
  if fallback.isEmpty then
    emit (.unresolvedVariable (typeVariables.name variable_))
    return ∅
  else nested fallback

/-- The instances that a value describes, given those of what it nests. -/
def valueInstances (nested : TypeSet → Inference TypeSet) (id : ValueId) :
    Inference TypeSet := do
  match ← value id with
  | .classObject class_ => engine.instantiate class_ .none
  | .genericClass class_ generics => engine.instantiate class_ generics
  | .typeVariable variable_ => engine.variableInstances nested variable_
  | .special form generics => engine.formInstances nested form generics
  | .exactly described => return .singleton described
  | .function _ | .overloaded _ | .boundMethod _ _ => engine.execute (.singleton id) .empty
  | .any =>
    emit .anyExecuted
    return ∅
  | .typeList _ | .ellipsis | .literal _ => return ∅
  | .instanceOf _ _ | .tuple _ | .callable _ | .packedTuple _ | .packedDict _ | .typedDict _
  | .none => return .singleton id

def instancesWithin : Nat → TypeSet → Inference TypeSet
  | 0, _ => do
    emit (.instancesTooDeep engine.levels)
    return ∅
  | levels + 1, set =>
    unionOver (engine.valueInstances (instancesWithin levels)) set.members

/-- The instances that a class-level set describes. -/
def instances (set : TypeSet) : Inference TypeSet :=
  engine.instancesWithin engine.levels set

/-- The class-level set of the values that a parameter of a kind holds. -/
def collected (kind : ParameterKind) (values : TypeSet) : Inference TypeSet := do
  match kind with
  | .starred => internSet (.genericClass Builtin.tuple (.ofElement values))
  | .doubleStarred =>
    let key ← internSet (.classObject Builtin.str)
    internSet (.genericClass Builtin.dict (.ofSlots [key, values]))
  | .positional | .keywordOnly => return values

def parameterType (function : FunctionId) (index : Nat) : Inference TypeSet := do
  let declaration ← engine.functionDeclaration function
  match declaration.parameters[index]? with
  | none => return ∅
  | some parameter =>
    match parameter.hint with
    | none => return ∅
    | some node =>
      let values ← engine.readHint node
      if values.isEmpty then return ∅
      else engine.instances (← collected parameter.kind values)

end Engine

end TypeInference
