import TypeInference.Value

/-!
# Terms

A term is a value written out, with the values it refers to inside it.  Interning
a term interns its parts from left to right and the value itself last.
-/

namespace TypeInference

mutual

/-- A value written out. -/
inductive ValueTerm where
  | classObject (class_ : ClassId)
  | genericClass (class_ : ClassId) (generics : GenericsTerm)
  | instanceOf (class_ : ClassId) (generics : GenericsTerm)
  | typeVariable (variable_ : TypeVariableId)
  | special (form : SpecialForm) (generics : GenericsTerm)
  | callable (generics : GenericsTerm)
  | tuple (generics : GenericsTerm)
  | typeList (items : List SetTerm)
  | function (function : FunctionId)
  | overloaded (functions : List FunctionId)
  | boundMethod (callee receiver : ValueTerm)
  | packedTuple (items : List SetTerm)
  | packedDict (entries : List (String × SetTerm))
  | typedDict (class_ : ClassId)
  | literal (text : String)
  | exactly (described : ValueTerm)
  | any
  | none
  | ellipsis

/-- A set of values written out, or one that is known already. -/
inductive SetTerm where
  | known (set : TypeSet)
  | listed (members : List ValueTerm)

inductive GenericsTerm where
  | none
  | slots (slots : List SetTerm) (homogeneous : Bool)
  | lazy (node : NodeId)

end

section Interning

universe v

variable {m : Type → Type v} [Monad m] (store : Value → m ValueId)

mutual

/-- Intern a value and everything it refers to. -/
def ValueTerm.intern : ValueTerm → m ValueId
  | .classObject class_ => store (.classObject class_)
  | .genericClass class_ generics => do
    store (.genericClass class_ (← GenericsTerm.intern generics))
  | .instanceOf class_ generics => do
    store (.instanceOf class_ (← GenericsTerm.intern generics))
  | .typeVariable variable_ => store (.typeVariable variable_)
  | .special form generics => do store (.special form (← GenericsTerm.intern generics))
  | .callable generics => do store (.callable (← GenericsTerm.intern generics))
  | .tuple generics => do store (.tuple (← GenericsTerm.intern generics))
  | .typeList items => do store (.typeList (← internSets items))
  | .function function => store (.function function)
  | .overloaded functions => store (.overloaded functions)
  | .boundMethod callee receiver => do
    let callee ← ValueTerm.intern callee
    let receiver ← ValueTerm.intern receiver
    store (.boundMethod callee receiver)
  | .packedTuple items => do store (.packedTuple (← internSets items))
  | .packedDict entries => do store (.packedDict (← internEntries entries))
  | .typedDict class_ => store (.typedDict class_)
  | .literal text => store (.literal text)
  | .exactly described => do store (.exactly (← ValueTerm.intern described))
  | .any => store .any
  | .none => store .none
  | .ellipsis => store .ellipsis

def SetTerm.intern : SetTerm → m TypeSet
  | .known set => pure set
  | .listed members => do return .ofList (← internMembers members)

def GenericsTerm.intern : GenericsTerm → m Generics
  | .none => pure .none
  | .slots slots homogeneous => do return .resolved ⟨← internSets slots, homogeneous⟩
  | .lazy node => pure (.lazy node)

def internMembers : List ValueTerm → m (List ValueId)
  | [] => pure []
  | member :: rest => do
    let first ← ValueTerm.intern member
    let others ← internMembers rest
    return first :: others

def internSets : List SetTerm → m (List TypeSet)
  | [] => pure []
  | set :: rest => do
    let first ← SetTerm.intern set
    let others ← internSets rest
    return first :: others

def internEntries : List (String × SetTerm) → m (List (String × TypeSet))
  | [] => pure []
  | (key, set) :: rest => do
    let first ← SetTerm.intern set
    let others ← internEntries rest
    return (key, first) :: others

end

end Interning

end TypeInference
