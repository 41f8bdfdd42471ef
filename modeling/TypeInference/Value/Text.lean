import TypeInference.Declaration
import TypeInference.Value.Arena

/-!
# Readable text of values

The text of a value in messages and events.  A class object and its instances
read alike.  A value only refers to values interned before it, so its identifier
bounds how deeply its text nests.
-/

namespace TypeInference

namespace Arena

/-- The text of a set, given the text of its members. -/
def setText (memberText : ValueId → String) (set : TypeSet) : String :=
  match set.members with
  | [] => "<nothing>"
  | [id] => memberText id
  | members => "\x7b" ++ " | ".intercalate (members.map memberText) ++ "\x7d"

def setsText (memberText : ValueId → String) (sets : List TypeSet) : String :=
  ", ".intercalate (sets.map (setText memberText))

/-- A name followed by its type arguments in brackets, if it has any. -/
def applied (memberText : ValueId → String) (name : String) : Generics → String
  | .lazy node => name ++ "[<" ++ node.text ++ ">]"
  | .resolved arguments =>
    if arguments.homogeneous then
      name ++ "[" ++ setText memberText (arguments.slot 0) ++ ", ...]"
    else if arguments.isEmpty then name
    else name ++ "[" ++ setsText memberText arguments.slots ++ "]"

def className (declarations : Declarations) (class_ : ClassId) : String :=
  match declarations.class? class_ with
  | some declaration => declaration.name
  | none => ""

def functionName (declarations : Declarations) (function : FunctionId) : String :=
  match declarations.function? function with
  | some declaration => declaration.name
  | none => ""

/-- The text of a value, given the text of the values it refers to. -/
def valueText (declarations : Declarations) (memberText : ValueId → String) : Value → String
  | .classObject class_ => className declarations class_
  | .genericClass class_ generics => applied memberText (className declarations class_) generics
  | .instanceOf class_ generics => applied memberText (className declarations class_) generics
  | .typeVariable variable_ => declarations.typeVariables.name variable_
  | .special form generics => applied memberText form.name generics
  | .callable generics => applied memberText "Callable" generics
  | .tuple generics => applied memberText "tuple" generics
  | .typeList items => "[" ++ setsText memberText items ++ "]"
  | .function function => "function " ++ functionName declarations function
  | .overloaded [] => "overloaded function"
  | .overloaded (first :: _) => "overloaded function " ++ functionName declarations first
  | .boundMethod callee _ => "bound " ++ memberText callee
  | .packedTuple items => "(" ++ setsText memberText items ++ ")"
  | .packedDict entries =>
    let entryText (entry : String × TypeSet) :=
      "'" ++ entry.1 ++ "': " ++ setText memberText entry.2
    "\x7b" ++ ", ".intercalate (entries.map entryText) ++ "\x7d"
  | .typedDict class_ => className declarations class_
  | .literal text => "'" ++ text ++ "'"
  | .exactly value => memberText value
  | .any => "Any"
  | .none => "None"
  | .ellipsis => "..."

def describeWithin (arena : Arena) (declarations : Declarations) : Nat → ValueId → String
  | 0, _ => ""
  | bound + 1, id =>
    match arena.get? id with
    | some value => valueText declarations (arena.describeWithin declarations bound) value
    | none => ""

def describe (arena : Arena) (declarations : Declarations) (id : ValueId) : String :=
  arena.describeWithin declarations (id.index + 1) id

def describeSet (arena : Arena) (declarations : Declarations) (set : TypeSet) : String :=
  setText (arena.describe declarations) set

end Arena

end TypeInference
