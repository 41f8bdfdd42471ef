import TypeInference.Declaration.Builtin
import TypeInference.Engine.Generic

/-!
# Classes of values and ancestors of classes

The class object that describes a value, and the order in which the members of a
class are looked up: the class itself, then its bases depth first, each class once.
Bases are seen with the type arguments of the class, so that the ancestors of a
parameterized class are parameterized alike.
-/

namespace TypeInference

namespace Engine

variable (engine : Engine)

open Inference

/-! ## Classes of values -/

def classesWith (classOf : ValueId → Inference (Option ValueId)) (set : TypeSet) :
    Inference TypeSet :=
  unionOver
    (fun id => do
      match ← classOf id with
      | some class_ => return .singleton class_
      | none => return ∅)
    set.members

def classOfValue (classOf : ValueId → Inference (Option ValueId)) (id : ValueId) :
    Value → Inference (Option ValueId)
  | .instanceOf class_ generics =>
    if generics.isUnparameterized then return some (← intern (.classObject class_))
    else return some (← intern (.genericClass class_ generics))
  | .tuple generics => return some (← intern (.genericClass Builtin.tuple generics))
  | .packedTuple items => do
    let slots ← items.mapM (classesWith classOf)
    return some (← intern (.genericClass Builtin.tuple (.ofSlots slots)))
  | .packedDict entries => do
    let key ← internSet (.classObject Builtin.str)
    let values ← unionOver (fun entry => classesWith classOf entry.2) entries
    return some (← intern (.genericClass Builtin.dict (.ofSlots [key, values])))
  | .typedDict class_ => return some (← intern (.classObject class_))
  | .literal _ => return some (← intern (.classObject Builtin.str))
  | .callable generics => return some (← intern (.special .callable generics))
  | .function _ | .overloaded _ | .boundMethod _ _ =>
    return some (← intern (.classObject Builtin.function))
  | .classObject _ | .genericClass _ _ => return some (← intern (.classObject Builtin.type))
  | .none | .any => return some id
  | .typeVariable _ | .special _ _ | .typeList _ | .exactly _ | .ellipsis => return none

def classOfWithin : Nat → ValueId → Inference (Option ValueId)
  | 0, _ => throw .outOfFuel
  | bound + 1, id => do
    classOfValue (classOfWithin bound) id (← value id)

/--
The class object of a value.  A value only refers to values interned before it, so
its identifier bounds how deeply the class has to be looked for.
-/
def classOf (id : ValueId) : Inference (Option ValueId) :=
  classOfWithin (id.index + 1) id

def classesOf (set : TypeSet) : Inference TypeSet :=
  classesWith classOf set

/-! ## Ancestors -/

/-- A class object that was reached, and its class. -/
structure Ancestor where
  class_ : ClassId
  /-- The class object, with the type arguments seen from where the search began. -/
  value : ValueId
deriving DecidableEq

def visitBases (visit : List Ancestor → ValueId → Inference (List Ancestor))
    (reached : List Ancestor) (class_ : ClassId) (id : ValueId) :
    Inference (List Ancestor) := do
  let bindings ← engine.classBindings id
  let declaration ← engine.classDeclaration class_
  declaration.bases.foldlM
    (fun reached base => do
      let parents ← engine.substitute base bindings
      parents.members.foldlM visit reached)
    reached

/--
Extend the ancestors reached so far by a value and its ancestors, depth first.  A
class that was reached before is not visited again, so that the number of classes
bounds how deeply visits nest.
-/
def visitWithin : Nat → List Ancestor → ValueId → Inference (List Ancestor)
  | 0, _, _ => throw .outOfFuel
  | bound + 1, reached, id => do
    match (← value id).class? with
    | none => return reached
    | some class_ =>
      if reached.any (fun ancestor => ancestor.class_ == class_) then return reached
      else
        engine.visitBases (visitWithin bound) (reached ++ [⟨class_, id⟩]) class_ id

/-- A class object and its ancestors in the order in which members are looked up. -/
def ancestors (id : ValueId) : Inference (List Ancestor) :=
  engine.visitWithin (engine.declarations.classes.size + 1) [] id

def resolutionOrder (id : ValueId) : Inference (List ValueId) :=
  return (← engine.ancestors id).map Ancestor.value

def ancestor? (id : ValueId) (class_ : ClassId) : Inference (Option ValueId) := do
  let reached ← engine.ancestors id
  return (reached.find? (fun ancestor => ancestor.class_ == class_)).map Ancestor.value

def isSubclass (id : ValueId) (class_ : ClassId) : Inference Bool :=
  return (← engine.ancestor? id class_).isSome

/-! ## Members -/

def firstMember (name : String) : List Ancestor → Inference (Option (ValueId × Member))
  | [] => pure none
  | ancestor :: rest => do
    let declaration ← engine.classDeclaration ancestor.class_
    match declaration.member? name with
    | some member => return some (ancestor.value, member)
    | none => firstMember name rest

/-- The member of a name and the ancestor that declares it. -/
def lookUpMember (id : ValueId) (name : String) : Inference (Option (ValueId × Member)) := do
  engine.firstMember name (← engine.ancestors id)

end Engine

end TypeInference
