import TypeInference.Engine.Hint

/-!
# Type variables in class-level sets

Which type variables a class-level set mentions, and the set that results when they
are replaced.  Both walks look into the type arguments of generic classes and
typing forms and into parameter lists, down to the depth limit.
-/

namespace TypeInference

namespace Engine

variable (engine : Engine)

open Inference

/-! ## Mentioned variables -/

def collectValue (nested : List TypeVariableId → TypeSet → Inference (List TypeVariableId))
    (found : List TypeVariableId) (id : ValueId) : Inference (List TypeVariableId) := do
  match ← value id with
  | .typeVariable variable_ => return if variable_ ∈ found then found else found ++ [variable_]
  | .genericClass _ generics | .special _ generics =>
    let arguments ← engine.typeArguments generics
    arguments.slots.foldlM nested found
  | .typeList items => items.foldlM nested found
  | _ => return found

def collectWithin : Nat → List TypeVariableId → TypeSet → Inference (List TypeVariableId)
  | 0, found, _ => pure found
  | levels + 1, found, set =>
    set.members.foldlM (engine.collectValue (collectWithin levels)) found

/-- The type variables that a class-level set mentions, first mention first. -/
def freeVariables (set : TypeSet) : Inference (List TypeVariableId) :=
  engine.collectWithin engine.levels [] set

/-! ## Replaced variables -/

/-- The slots that replacing variables changes, if it changes any. -/
def substituteSlots (nested : TypeSet → Inference TypeSet) (slots : List TypeSet) :
    Inference (Option (List TypeSet)) := do
  let replaced ← slots.mapM nested
  return if replaced = slots then none else some replaced

def substituteGenerics (nested : TypeSet → Inference TypeSet) (generics : Generics) :
    Inference (Option Generics) := do
  let arguments ← engine.typeArguments generics
  match ← substituteSlots nested arguments.slots with
  | some slots => return some (.resolved { arguments with slots := slots })
  | none => return none

/-- What replacing variables turns a value into, if it changes the value. -/
def substituteValue (substitution : Substitution) (nested : TypeSet → Inference TypeSet)
    (id : ValueId) : Inference (Option TypeSet) := do
  match ← value id with
  | .typeVariable variable_ =>
    return (substitution.get? variable_).map fun found =>
      engine.declarations.typeVariables.narrow variable_ found Arena.anyId
  | .genericClass class_ generics =>
    match ← engine.substituteGenerics nested generics with
    | some replaced => return some (← internSet (.genericClass class_ replaced))
    | none => return none
  | .special form generics =>
    match ← engine.substituteGenerics nested generics with
    | some replaced => return some (← internSet (.special form replaced))
    | none => return none
  | .typeList items =>
    match ← substituteSlots nested items with
    | some replaced => return some (← internSet (.typeList replaced))
    | none => return none
  | _ => return none

def substituteWithin (substitution : Substitution) : Nat → TypeSet → Inference TypeSet
  | 0, set => pure set
  | levels + 1, set =>
    unionOver
      (fun id => do
        let replaced ←
          engine.substituteValue substitution (substituteWithin substitution levels) id
        return replaced.getD (.singleton id))
      set.members

/-- Replace the type variables of a class-level set by their bindings. -/
def substitute (set : TypeSet) (substitution : Substitution) : Inference TypeSet :=
  if substitution.isEmpty || set.isEmpty then pure set
  else engine.substituteWithin substitution engine.levels set

/-- The bindings that a class object gives the type parameters of its class. -/
def classBindings (id : ValueId) : Inference Substitution := do
  match ← value id with
  | .genericClass class_ generics =>
    let arguments ← engine.typeArguments generics
    let declaration ← engine.classDeclaration class_
    return .ofList (List.zipWith TypeBinding.mk declaration.typeParameters arguments.slots)
  | _ => return ∅

end Engine

end TypeInference
