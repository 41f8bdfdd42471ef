import TypeInference.Engine.Instance

/-!
# Deferred values and iteration

A deferred value is resolved once, and its cell remembers the answer.  Iterating
over a value yields one deferred value for each position; iterating over a set
merges what its members yield at the same position.
-/

namespace TypeInference

namespace Engine

variable (engine : Engine)

open Inference

/-! ## Making deferred values -/

def deferNode (node : NodeId) : Inference Deferred :=
  return .node (← freshCell) node

def deferKnown (set : TypeSet) : Inference Deferred :=
  return .known (← freshCell) set

/-- The merge of candidates for one place; a single candidate is left as it is. -/
def deferMerged (parts : List Deferred) : Inference Deferred := do
  match parts with
  | [only] => return only
  | _ => return .merged (← freshCell) parts

/-- What stands in the rows at each position, as far as the longest row reaches. -/
def columns {α : Type} (rows : List (List α)) : List (List α) :=
  let longest := (rows.map List.length).foldl max 0
  (List.range longest).map fun position => rows.filterMap (fun row => row[position]?)

/-- Merge rows position by position. -/
def mergeRows (rows : List (List Deferred)) : Inference (List Deferred) :=
  (columns rows).mapM deferMerged

/-! ## Resolving deferred values -/

/-- Answer from a cell, or compute the answer and leave it in the cell. -/
def remember (cell : CellId) (compute : Inference TypeSet) : Inference TypeSet := do
  match ← cellAnswer? cell with
  | some answer => return answer
  | none =>
    let answer ← compute
    fillCell cell answer
    return answer

mutual

def resolve : Deferred → Inference TypeSet
  | .node cell node => remember cell (engine.inferNode node)
  | .known cell set => remember cell (pure set)
  | .unknown cell => remember cell (pure ∅)
  | .merged cell parts => remember cell do
    return .unions (← resolveAll parts)
  | .packedTuple cell items => remember cell do
    internSet (.packedTuple (← resolveAll items))
  | .packedDict cell entries => remember cell do
    internSet (.packedDict (← resolveEntries entries))

def resolveAll : List Deferred → Inference (List TypeSet)
  | [] => pure []
  | part :: rest => do
    let first ← resolve part
    let others ← resolveAll rest
    return first :: others

def resolveEntries : List (String × Deferred) → Inference (List (String × TypeSet))
  | [] => pure []
  | (key, part) :: rest => do
    let first ← resolve part
    let others ← resolveEntries rest
    return (key, first) :: others

end

/-! ## Fields of dictionary classes -/

/-- The names in a list, each at its first place. -/
def firstOccurrences (names : List String) : List String :=
  names.foldl (fun kept name => if name ∈ kept then kept else kept ++ [name]) []

/-- The fields of a dictionary class, its own before inherited ones. -/
def typedDictKeys (class_ : ClassId) : Inference (List String) := do
  let id ← intern (.classObject class_)
  let reached ← engine.ancestors id
  let declarations ← reached.mapM (fun ancestor => engine.classDeclaration ancestor.class_)
  return firstOccurrences (declarations.flatMap (fun declaration => declaration.fields.keys))

def firstField (key : String) : List Ancestor → Inference (Option NodeId)
  | [] => pure none
  | ancestor :: rest => do
    let declaration ← engine.classDeclaration ancestor.class_
    match declaration.fields.get? key with
    | some node => return some node
    | none => firstField key rest

def typedDictField (class_ : ClassId) (key : String) : Inference TypeSet := do
  let id ← intern (.classObject class_)
  match ← engine.firstField key (← engine.ancestors id) with
  | some node => engine.instances (← engine.readHint node)
  | none =>
    let declaration ← engine.classDeclaration class_
    emit (.unknownKey declaration.name key)
    return ∅

/-! ## Iteration -/

def tupleElements (generics : Generics) : Inference (List Deferred) := do
  let arguments ← engine.typeArguments generics
  if arguments.homogeneous then
    let element ← engine.instances (arguments.slot 0)
    return [← deferKnown element]
  else
    arguments.slots.mapM fun slot => do
      deferKnown (← engine.instances slot)

def keyElements (keys : List String) : Inference (List Deferred) :=
  keys.mapM fun key => do
    deferKnown (← internSet (.literal key))

/-- What iterating over an instance of a class yields, if the class is iterable. -/
def instanceElements (id : ValueId) : Inference (Option (List Deferred)) := do
  match ← classOf id with
  | none => return none
  | some class_ =>
    match ← engine.ancestor? class_ Builtin.iterable with
    | none => return none
    | some iterable =>
      let element ←
        match ← value iterable with
        | .genericClass _ generics => pure ((← engine.typeArguments generics).slot 0)
        | _ => pure ∅
      return some [← deferKnown (← engine.instances element)]

/-- What iterating over a value yields, position by position, if it can be iterated over. -/
def elements (id : ValueId) : Inference (Option (List Deferred)) := do
  match ← value id with
  | .tuple generics => return some (← engine.tupleElements generics)
  | .packedTuple items => return some (← items.mapM deferKnown)
  | .packedDict entries => return some (← keyElements (entries.map (fun entry => entry.1)))
  | .typedDict class_ => return some (← keyElements (← engine.typedDictKeys class_))
  | .literal _ =>
    let element ← internSet (.instanceOf Builtin.str .none)
    return some [← deferKnown element]
  | .typeList items => return some (← items.mapM deferKnown)
  | .any => return some []
  | .instanceOf _ _ => engine.instanceElements id
  | _ => return none

def iterate (set : TypeSet) : Inference (List Deferred) := do
  mergeRows (← filterMapOver engine.elements set.members)

/-- Everything that iterating over the values of a set yields. -/
def elementSet (set : TypeSet) : Inference TypeSet := do
  unionOver engine.resolve (← engine.iterate set)

end Engine

end TypeInference
