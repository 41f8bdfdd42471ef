import TypeInference.Call.Binder
import TypeInference.Engine.State

/-!
# Operations and programs

The operations are what a request can be asked for.  A program asks for operations
one after another and goes on with their answers; it is all that the owner of a
syntax tree contributes to inference, and it cannot touch the state of a request
by any other way than by operations.
-/

namespace TypeInference

inductive Index where
  | position (position : Int64)
  | key (text : String)
  | unknown
deriving DecidableEq

/-- What a request can be asked for, by the type of the answer. -/
inductive Operation : Type → Type where
  | intern (value : Value) : Operation ValueId
  | value (id : ValueId) : Operation Value
  | inferNode (node : NodeId) : Operation TypeSet
  | readHint (node : NodeId) : Operation TypeSet
  | parameterType (function : FunctionId) (index : Nat) : Operation TypeSet
  | typeArguments (generics : Generics) : Operation TypeArguments
  | classOf (id : ValueId) : Operation (Option ValueId)
  | classesOf (set : TypeSet) : Operation TypeSet
  | resolutionOrder (id : ValueId) : Operation (List ValueId)
  | ancestor (id : ValueId) (class_ : ClassId) : Operation (Option ValueId)
  | instances (set : TypeSet) : Operation TypeSet
  | execute (set : TypeSet) (arguments : Arguments) : Operation TypeSet
  | returnType (function : FunctionId) (arguments : Arguments) : Operation TypeSet
  | elements (id : ValueId) : Operation (Option (List Deferred))
  | iterate (set : TypeSet) : Operation (List Deferred)
  | elementSet (set : TypeSet) : Operation TypeSet
  | readAttribute (set : TypeSet) (name : String) : Operation TypeSet
  | readItem (set : TypeSet) (index : Index) : Operation TypeSet
  | typedDictKeys (class_ : ClassId) : Operation (List String)
  | typedDictField (class_ : ClassId) (key : String) : Operation TypeSet
  | unify (hint actual : TypeSet) : Operation Substitution
  | freeVariables (set : TypeSet) : Operation (List TypeVariableId)
  | inferVariables (function : FunctionId) (arguments : Arguments) : Operation Substitution
  | substitute (set : TypeSet) (substitution : Substitution) : Operation TypeSet
  | classBindings (id : ValueId) : Operation Substitution
  | unpack (arguments : Arguments) (function : Option FunctionId) (sink : Diagnostics) :
      Operation (List Supplied × Diagnostics)
  | bind (function : FunctionId) (arguments : Arguments) (sink : Diagnostics) :
      Operation (List BoundParameter × Diagnostics)
  | accepts (parameter : BoundParameter) : Operation Bool
  | matchSignature (arguments : Arguments) (signature : String) :
      Operation (Except Clinic.Issue (List TypeSet))
  | resolve (deferred : Deferred) : Operation TypeSet

/-- A sequence of operations, each of which may depend on the answers before it. -/
inductive Program (α : Type) : Type 1 where
  | done (answer : α)
  | ask {β : Type} (operation : Operation β) (next : β → Program α)

namespace Program

def andThen {α β : Type} (program : Program α) (next : α → Program β) : Program β :=
  match program with
  | done answer => next answer
  | ask operation rest => ask operation (fun answer => (rest answer).andThen next)

instance : Monad Program where
  pure := done
  bind := andThen

def perform {α : Type} (operation : Operation α) : Program α :=
  ask operation done

/-- Run a program, given how its operations are answered. -/
def run {α : Type} (answer : {β : Type} → Operation β → Inference β) :
    Program α → Inference α
  | done result => pure result
  | ask operation next => do
    let reply ← answer operation
    (next reply).run answer

end Program

/-- One call of a function whose body is to be inferred. -/
structure Execution where
  function : FunctionId
  arguments : Arguments
  parameters : List BoundParameter

def Execution.parameter? (execution : Execution) (name : String) : Option BoundParameter :=
  execution.parameters.find? (fun parameter => parameter.name == name)

/-- Access to the syntax tree. -/
structure Provider where
  inferNode : NodeId → Program TypeSet
  /-- The elements of a subscript index. -/
  subscript? : NodeId → Option (List NodeId) := fun _ => none
  /-- The expression node that a string annotation denotes. -/
  forwardReference? : String → Option NodeId := fun _ => none
  /-- The values of a name at the root of the tree. -/
  resolveName : String → Program TypeSet := fun _ => .done ∅
  inferBody : Execution → Program TypeSet := fun _ => .done ∅

end TypeInference
