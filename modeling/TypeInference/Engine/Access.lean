import TypeInference.Engine.Iteration

/-!
# Attributes and items

Reading an attribute of a value walks the ancestors of its class.  Reading an item
depends on the kind of the value; an index that is not known reads every item.
-/

namespace TypeInference

/-- The place in a sequence that an index counts, backwards if it is negative. -/
def resolvePosition (length : Nat) (position : Int64) : Option Nat :=
  let place := if position < 0 then .ofNat length + position else position
  if 0 ≤ place && place.toInt < length then some place.toInt.toNat else none

namespace Engine

variable (engine : Engine)

open Inference

/-! ## Attributes -/

/-- A method looked up on a value: bound to it, unless it is a class. -/
def methodValue (group : MethodGroup) (isClass : Bool) (id : ValueId) : Inference TypeSet := do
  let callee ←
    match group with
    | .single function => intern (.function function)
    | .overloaded functions => intern (.overloaded functions)
  if isClass then return .singleton callee
  else internSet (.boundMethod callee id)

/-- The instances in a field, seen with the type arguments of its owner. -/
def fieldValue (owner : ValueId) (node : NodeId) : Inference TypeSet := do
  let hint ← engine.readHint node
  let bindings ← engine.classBindings owner
  engine.instances (← engine.substitute hint bindings)

/-- An attribute of one value that a class or its ancestors declare. -/
def memberValue (name : String) (id : ValueId) (isClass : Bool) (class_ : ValueId) :
    Inference TypeSet := do
  match ← engine.lookUpMember class_ name with
  | none => return ∅
  | some (_, .method group) => methodValue group isClass id
  | some (owner, .field node) => engine.fieldValue owner node

def attributeOf (name : String) (id : ValueId) : Inference TypeSet := do
  let isClass := (← value id).isClass
  let class? ← if isClass then pure (some id) else classOf id
  match class? with
  | none => return ∅
  | some class_ => engine.memberValue name id isClass class_

def readAttribute (set : TypeSet) (name : String) : Inference TypeSet :=
  unionOver (engine.attributeOf name) set.members

/-! ## Items -/

def tupleItem (generics : Generics) (index : Index) : Inference TypeSet := do
  let arguments ← engine.typeArguments generics
  if arguments.homogeneous then engine.instances (arguments.slot 0)
  else
    match index with
    | .position position =>
      match resolvePosition arguments.size position with
      | some place => engine.instances (arguments.slot place)
      | none => return ∅
    | .key _ | .unknown => engine.instances (.unions arguments.slots)

def packedTupleItem (items : List TypeSet) : Index → TypeSet
  | .position position =>
    match resolvePosition items.length position with
    | some place => items.getD place ∅
    | none => ∅
  | .key _ | .unknown => .unions items

def packedDictItem (entries : List (String × TypeSet)) : Index → TypeSet
  | .key key =>
    match entries.find? (fun entry => entry.1 == key) with
    | some entry => entry.2
    | none => ∅
  | .position _ | .unknown => .unions (entries.map (fun entry => entry.2))

def typedDictItem (class_ : ClassId) (index : Index) : Inference TypeSet := do
  match index with
  | .key key => engine.typedDictField class_ key
  | .position _ | .unknown =>
    unionOver (engine.typedDictField class_) (← engine.typedDictKeys class_)

/-- The ancestor that says what the items of a container are, and the slot that does. -/
def containerAncestor (class_ : ValueId) : Inference (Option (ValueId × Nat)) := do
  match ← engine.ancestor? class_ Builtin.mapping with
  | some mapping => return some (mapping, 1)
  | none =>
    match ← engine.ancestor? class_ Builtin.iterable with
    | some iterable => return some (iterable, 0)
    | none => return none

/-- An item of an instance: the value of a mapping, else the element of an iterable. -/
def instanceItem (id : ValueId) : Inference TypeSet := do
  match ← classOf id with
  | none => return ∅
  | some class_ =>
    match ← engine.containerAncestor class_ with
    | none => return ∅
    | some (container, slot) =>
      let element ←
        match ← value container with
        | .genericClass _ generics => pure ((← engine.typeArguments generics).slot slot)
        | _ => pure ∅
      engine.instances element

def itemOf (index : Index) (id : ValueId) : Inference TypeSet := do
  match ← value id with
  | .tuple generics => engine.tupleItem generics index
  | .packedTuple items => return packedTupleItem items index
  | .packedDict entries => return packedDictItem entries index
  | .typedDict class_ => engine.typedDictItem class_ index
  | .literal _ => internSet (.instanceOf Builtin.str .none)
  | .instanceOf _ _ => engine.instanceItem id
  | .any => return ∅
  | _ =>
    emit (.notSubscriptable (← engine.describe id))
    return ∅

def readItem (set : TypeSet) (index : Index) : Inference TypeSet :=
  unionOver (engine.itemOf index) set.members

end Engine

end TypeInference
