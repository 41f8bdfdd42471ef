import TypeInference.Engine.Iteration

/-!
# From arguments to parameters

The arguments of a call are unpacked into a stream of values: starred arguments
are expanded position by position, double-starred arguments into their keys, and
keyword arguments move behind everything else.  The stream is then bound to the
parameters of the function, and a bound value can be compared with the annotation
of its parameter.
-/

namespace TypeInference

namespace Engine

variable (engine : Engine)

open Inference

/-! ## Unpacking -/

/-- Report a value that cannot be unpacked, if the called function is known. -/
def reportUnpackable (function : Option FunctionId) (kind : DiagnosticKind) (node : NodeId)
    (message : FunctionDeclaration → String → String) (id : ValueId) (sink : Diagnostics) :
    Inference Diagnostics := do
  match function with
  | none => return sink
  | some function =>
    let declaration ← engine.functionDeclaration function
    let text ← engine.describe id
    engine.report sink ⟨kind, some node, message declaration text⟩

def starredRow (function : Option FunctionId) (node : NodeId) (id : ValueId)
    (sink : Diagnostics) : Inference (List Deferred × Diagnostics) := do
  match ← engine.elements id with
  | some items => return (items, sink)
  | none =>
    let message (declaration : FunctionDeclaration) (text : String) :=
      "TypeError: " ++ declaration.name ++ "() argument after * must be a sequence, not " ++ text
    return ([], ← engine.reportUnpackable function .starNotIterable node message id sink)

def isMapping (class_ : ClassId) : Inference Bool := do
  engine.isSubclass (← intern (.classObject class_)) Builtin.mapping

/-- The entries of a value whose keys are not known; only a mapping may be unpacked. -/
def opaqueEntries (function : Option FunctionId) (node : NodeId) (id : ValueId)
    (sink : Diagnostics) : Inference Diagnostics :=
  let message (declaration : FunctionDeclaration) (text : String) :=
    "TypeError: " ++ declaration.name ++ " argument after ** must be a mapping, not " ++ text
  engine.reportUnpackable function .doubleStarNotMapping node message id sink

def doubleStarredRow (function : Option FunctionId) (node : NodeId) (id : ValueId)
    (sink : Diagnostics) : Inference (List Supplied × Diagnostics) := do
  match ← value id with
  | .packedDict entries =>
    let supplied ← entries.mapM fun entry => do
      return ⟨some entry.1, ← deferKnown entry.2⟩
    return (supplied, sink)
  | .typedDict class_ =>
    let supplied ← (← engine.typedDictKeys class_).mapM fun key => do
      return ⟨some key, ← deferKnown (← engine.typedDictField class_ key)⟩
    return (supplied, sink)
  | .instanceOf class_ _ =>
    if ← engine.isMapping class_ then
      let declaration ← engine.classDeclaration class_
      emit (.opaqueMapping declaration.name)
      return ([], sink)
    else return ([], ← engine.opaqueEntries function node id sink)
  | .any => return ([], sink)
  | _ => return ([], ← engine.opaqueEntries function node id sink)

def Supplied.ofPositional (value : Deferred) : Supplied :=
  ⟨none, value⟩

/-- What an argument supplies in its place; keyword arguments supply nothing there. -/
def expandArgument (function : Option FunctionId) (argument : Argument) (sink : Diagnostics) :
    Inference (List Supplied × Diagnostics) := do
  match argument with
  | .positional node => return ([Supplied.ofPositional (← deferNode node)], sink)
  | .keyword _ _ => return ([], sink)
  | .starred node =>
    let values ← engine.inferNode node
    let (rows, sink) ← throughSink (engine.starredRow function node) values.members sink
    return ((← mergeRows rows).map Supplied.ofPositional, sink)
  | .doubleStarred node =>
    let values ← engine.inferNode node
    let (rows, sink) ← throughSink (engine.doubleStarredRow function node) values.members sink
    return (rows.flatten, sink)

def unpackWritten (arguments : List Argument) (function : Option FunctionId)
    (sink : Diagnostics) : Inference (List Supplied × Diagnostics) := do
  let others := arguments.filter (fun argument => argument.keyword?.isNone)
  let (expanded, sink) ← throughSink (engine.expandArgument function) others sink
  let named ← (arguments.filterMap Argument.keyword?).mapM fun entry => do
    return (⟨some entry.1, ← deferNode entry.2⟩ : Supplied)
  return (expanded.flatten ++ named, sink)

def unpack (arguments : Arguments) (function : Option FunctionId) (sink : Diagnostics) :
    Inference (List Supplied × Diagnostics) := do
  match arguments with
  | .values sets =>
    let supplied ← sets.mapM fun set => do
      return Supplied.ofPositional (← deferKnown set)
    return (supplied, sink)
  | .bound receiver rest =>
    let first ← deferKnown (.singleton receiver)
    let (others, sink) ← unpack rest function sink
    return (Supplied.ofPositional first :: others, sink)
  | .written arguments _ => engine.unpackWritten arguments function sink

/-! ## Binding -/

def reportAll (diagnostics : List Diagnostic) (sink : Diagnostics) : Inference Diagnostics :=
  diagnostics.foldlM engine.report sink

/-- Make the cells that a binder used. -/
def claimCells (count : Nat) : Inference Unit :=
  modify fun state => { state with cells := state.cells ++ Array.replicate count none }

def bind (function : FunctionId) (arguments : Arguments) (sink : Diagnostics) :
    Inference (List BoundParameter × Diagnostics) := do
  let declaration ← engine.functionDeclaration function
  let (stream, sink) ← engine.unpack arguments (some function) sink
  let firstCell := (← get).cells.size
  let binder := Binder.bindStream function declaration arguments.callSite? stream firstCell
  claimCells (binder.nextCell - firstCell)
  let sink ← engine.reportAll binder.issues sink
  return (binder.result, sink)

/-- The bindings of a call whose problems do not matter. -/
def bindQuietly (function : FunctionId) (arguments : Arguments) :
    Inference (List BoundParameter) :=
  return (← engine.bind function arguments .discarding).1

/-! ## Comparing arguments with annotations -/

/-- Whether an annotation admits arguments of a class, given how nested annotations do. -/
def admitsValue (nested : ValueId → Inference Bool) (hint argumentClass : ValueId) :
    Inference Bool := do
  let argument ← value argumentClass
  if argument = .any then return true
  match ← value hint with
  | .classObject class_ | .genericClass class_ _ => engine.isSubclass argumentClass class_
  | .special .union generics =>
    let arguments ← engine.typeArguments generics
    anyOf nested (arguments.slots.flatMap TypeSet.members)
  | .special .optional generics =>
    if argument = .none then return true
    let arguments ← engine.typeArguments generics
    anyOf nested (arguments.slots.flatMap TypeSet.members)
  | .special .classVar generics =>
    let arguments ← engine.typeArguments generics
    anyOf nested (arguments.slot 0).members
  | .special .tuple _ => engine.isSubclass argumentClass Builtin.tuple
  | .special .type _ => engine.isSubclass argumentClass Builtin.type
  | .special .callable _ =>
    match argument with
    | .special .callable _ => return true
    | _ => engine.isSubclass argumentClass Builtin.function
  | .none => return argument = .none
  | .typeVariable _ | .any => return true
  | _ => return false

def admitsWithin (argumentClass : ValueId) : Nat → ValueId → Inference Bool
  | 0, hint => do
    emit (.comparisonTooDeep engine.levels (← engine.describe hint))
    return false
  | levels + 1, hint => engine.admitsValue (admitsWithin argumentClass levels) hint argumentClass

def admits (hint argumentClass : ValueId) : Inference Bool :=
  engine.admitsWithin argumentClass engine.levels hint

/-- Whether some class of an argument is admitted by some annotation. -/
def anyAdmitted (hints argumentClasses : TypeSet) : Inference Bool :=
  anyOf
    (fun argumentClass => anyOf (fun hint => engine.admits hint argumentClass) hints.members)
    argumentClasses.members

/--
Whether the value of a parameter fits its annotation.  Defaults, collecting
parameters and parameters without an annotation always fit.
-/
def accepts (parameter : BoundParameter) : Inference Bool := do
  if parameter.isDefault || parameter.kind.collects then return true
  let declaration ← engine.functionDeclaration parameter.function
  match (declaration.parameters[parameter.index]?).bind Parameter.hint with
  | none => return true
  | some node =>
    let hints ← engine.readHint node
    if hints.isEmpty then return true
    let values ← engine.resolve parameter.value
    let accepted ← engine.anyAdmitted hints (← classesOf values)
    emit (.argumentCompared parameter.name accepted)
    return accepted

end Engine

end TypeInference
