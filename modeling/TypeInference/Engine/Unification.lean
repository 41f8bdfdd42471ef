import TypeInference.Engine.Binding

/-!
# Unification

An annotation is matched with the values that were seen in its place, and every
type variable that the walk reaches is bound to the classes of the values at its
position.  Unification has one direction and never fails: what does not line up
contributes nothing.
-/

namespace TypeInference

namespace Engine

variable (engine : Engine)

open Inference

/-- How an annotation that is nested in another one is unified. -/
abbrev Unifier := TypeSet → TypeSet → Inference Substitution

/-! ## Type variables -/

/-- What a value binds a type variable to: functions and classes to themselves. -/
def bindingOf (id : ValueId) : Inference TypeSet := do
  let seen ← value id
  if seen.isFunction || seen.isClass then internSet (.exactly id)
  else
    match ← classOf id with
    | some class_ => return .singleton class_
    | none => return ∅

def unifyVariable (variable_ : TypeVariableId) (actual : TypeSet) : Inference Substitution :=
  return .singleton variable_ (← unionOver bindingOf actual.members)

/-! ## Type arguments -/

/-- Unify one slot of an annotation with the instances of another slot. -/
def unifySlot (nested : Unifier) (slots : TypeSet × TypeSet) : Inference Substitution := do
  nested slots.1 (← engine.instances slots.2)

/-- Unify the type arguments of an annotation with those of a class, slot by slot. -/
def unifyPairwise (nested : Unifier) (generics : Generics) (argumentClass : ValueId) :
    Inference Substitution := do
  match ← value argumentClass with
  | .genericClass _ found =>
    let foundArguments ← engine.typeArguments found
    let arguments ← engine.typeArguments generics
    mergeOver (engine.unifySlot nested) (arguments.slots.zip foundArguments.slots)
  | _ => return ∅

def isTuple (id : ValueId) : Inference Bool := do
  match ← value id with
  | .tuple _ | .packedTuple _ => return true
  | .instanceOf class_ _ => return class_ = Builtin.tuple
  | _ => return false

def tuplesIn (set : TypeSet) : Inference TypeSet :=
  unionOver (fun id => return if ← isTuple id then .singleton id else ∅) set.members

def unifyTuple (nested : Unifier) (generics : Generics) (actual : TypeSet) :
    Inference Substitution := do
  let tuples ← tuplesIn actual
  if tuples.isEmpty then return ∅
  let arguments ← engine.typeArguments generics
  if arguments.homogeneous then nested (arguments.slot 0) (← engine.elementSet tuples)
  else
    mergeOver
      (fun id => do
        match ← classOf id with
        | some argumentClass => engine.unifyPairwise nested generics argumentClass
        | none => return ∅)
      tuples.members

/-! ## Generic classes -/

/-- Unify a generic class with one value, through the ancestor of that class. -/
def unifyInstance (nested : Unifier) (class_ : ClassId) (generics : Generics) (id : ValueId) :
    Inference Substitution := do
  if (← value id).isAnnotationLevel then return ∅
  match ← classOf id with
  | none => return ∅
  | some argumentClass =>
    match ← engine.ancestor? argumentClass class_ with
    | none => return ∅
    | some ancestor => engine.unifyPairwise nested generics ancestor

def unifyClass (nested : Unifier) (class_ : ClassId) (generics : Generics) (actual : TypeSet) :
    Inference Substitution := do
  let arguments ← engine.typeArguments generics
  if arguments.isEmpty then return ∅
  if class_ = Builtin.iterable then nested (arguments.slot 0) (← engine.elementSet actual)
  else if class_ = Builtin.tuple then engine.unifyTuple nested generics actual
  else mergeOver (engine.unifyInstance nested class_ generics) actual.members

/-! ## Typing forms -/

def unifyForm (nested : Unifier) (form : SpecialForm) (generics : Generics) (actual : TypeSet) :
    Inference Substitution := do
  let arguments ← engine.typeArguments generics
  if arguments.isEmpty then return ∅
  match form with
  | .optional => nested (arguments.slot 0) (actual.erase Arena.noneId)
  | .union => mergeOver (fun slot => nested slot actual) arguments.slots
  | .classVar => nested (arguments.slot 0) actual
  | .type => nested (arguments.slot 0) (← engine.instances actual)
  | .callable =>
    if arguments.size = 2 then nested (arguments.slot 1) (← engine.execute actual .empty)
    else return ∅
  | .tuple => engine.unifyTuple nested generics actual

/-! ## Annotations -/

def unifyValue (nested : Unifier) (actual : TypeSet) (id : ValueId) : Inference Substitution := do
  count fun counters => { counters with unifications := counters.unifications + 1 }
  match ← value id with
  | .typeVariable variable_ => unifyVariable variable_ actual
  | .genericClass class_ generics => engine.unifyClass nested class_ generics actual
  | .special form generics => engine.unifyForm nested form generics actual
  | _ => return ∅

def unifyWithin : Nat → Unifier
  | 0, _, actual => do
    if actual.isEmpty then return ∅
    emit (.unificationTooDeep engine.levels)
    return ∅
  | levels + 1, hint, actual =>
    if actual.isEmpty then pure ∅
    else mergeOver (engine.unifyValue (unifyWithin levels) actual) hint.members

/-- The bindings that match an annotation with actual values. -/
def unify (hint actual : TypeSet) : Inference Substitution :=
  engine.unifyWithin engine.levels hint actual

/-! ## Calls -/

/-- The values that are stored in one dictionary. -/
def storedValues (id : ValueId) : Inference TypeSet := do
  match ← value id with
  | .packedDict entries => return .unions (entries.map (fun entry => entry.2))
  | .instanceOf class_ generics =>
    if class_ = Builtin.dict then engine.instances ((← engine.typeArguments generics).slot 1)
    else return ∅
  | _ => return ∅

/-- The values that the annotation of a parameter of a kind describes. -/
def annotatedValues (kind : ParameterKind) (values : TypeSet) : Inference TypeSet :=
  match kind with
  | .starred => engine.elementSet values
  | .doubleStarred => unionOver engine.storedValues values.members
  | .positional | .keywordOnly => pure values

/-- The bindings that the type arguments of a receiver give the owner of a method. -/
def receiverBindings (receiver : ValueId) (owner : ClassId) : Inference Substitution := do
  match ← classOf receiver with
  | none => return ∅
  | some class_ =>
    match ← engine.ancestor? class_ owner with
    | none => return ∅
    | some ancestor => engine.classBindings ancestor

def parameterBindings (declaration : FunctionDeclaration) (parameter : BoundParameter) :
    Inference Substitution := do
  match (declaration.parameters[parameter.index]?).bind Parameter.hint with
  | none => return ∅
  | some node =>
    let hint ← engine.readHint node
    if (← engine.freeVariables hint).isEmpty then return ∅
    let values ← engine.resolve parameter.value
    engine.unify hint (← engine.annotatedValues parameter.kind values)

/--
The bindings of the type variables of a function for one call: those that the
receiver of a method gives, then those of every annotated parameter.
-/
def inferVariables (function : FunctionId) (arguments : Arguments) :
    Inference Substitution := do
  let declaration ← engine.functionDeclaration function
  let seed ←
    match arguments.receiver?, declaration.owner with
    | some receiver, some owner => engine.receiverBindings receiver owner
    | _, _ => pure ∅
  let parameters ← engine.bindQuietly function arguments
  let found ← mergeOver (engine.parameterBindings declaration) parameters
  let bindings := seed.merge found
  emit (.variablesInferred declaration.name bindings)
  return bindings

end Engine

end TypeInference
