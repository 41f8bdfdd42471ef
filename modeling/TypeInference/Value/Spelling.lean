import TypeInference.Value.Arena

/-!
# Exact text of values

The spelling of a value tells it apart from every other value, given names for the
declarations it refers to.  Class objects, their instances and the annotations that
describe them are all spelled differently.
-/

namespace TypeInference

structure Names where
  class_ : ClassId → String
  function : FunctionId → String
  variable_ : TypeVariableId → String

namespace Names

variable (names : Names) (spell : ValueId → String)

def set (set : TypeSet) : String :=
  "\x7b" ++ " | ".intercalate (set.members.map spell) ++ "\x7d"

def sets (sets : List TypeSet) : String :=
  "; ".intercalate (sets.map (set spell))

/-- The spelling of type arguments; nothing at all if there are none. -/
def generics : Generics → String
  | .lazy node => "<" ++ node.text ++ ">"
  | .resolved arguments =>
    if arguments.homogeneous then "[" ++ sets spell arguments.slots ++ "; ...]"
    else if arguments.isEmpty then ""
    else "[" ++ sets spell arguments.slots ++ "]"

/-- The spelling of a value, given that of the values it refers to. -/
def value : Value → String
  | .classObject class_ => "class " ++ names.class_ class_
  | .genericClass class_ arguments => "gclass " ++ names.class_ class_ ++ generics spell arguments
  | .instanceOf class_ arguments => "inst " ++ names.class_ class_ ++ generics spell arguments
  | .typeVariable variable_ => "tv " ++ names.variable_ variable_
  | .special form arguments => "special " ++ form.name ++ generics spell arguments
  | .callable arguments => "callable" ++ generics spell arguments
  | .tuple arguments => "tuple" ++ generics spell arguments
  | .typeList items => "typelist(" ++ sets spell items ++ ")"
  | .function function => "func " ++ names.function function
  | .overloaded functions =>
    "overloaded(" ++ ", ".intercalate (functions.map names.function) ++ ")"
  | .boundMethod callee receiver => "bound(" ++ spell callee ++ ", " ++ spell receiver ++ ")"
  | .packedTuple items => "ptuple(" ++ sets spell items ++ ")"
  | .packedDict entries =>
    let entryText (entry : String × TypeSet) := entry.1 ++ "=" ++ set spell entry.2
    "pdict(" ++ "; ".intercalate (entries.map entryText) ++ ")"
  | .typedDict class_ => "tdict " ++ names.class_ class_
  | .literal text => "str \"" ++ text ++ "\""
  | .exactly described => "pass(" ++ spell described ++ ")"
  | .any => "any"
  | .none => "none"
  | .ellipsis => "ellipsis"

end Names

namespace Arena

/-- The spelling of a value whose references nest below a bound. -/
def spellWithin (arena : Arena) (names : Names) : Nat → ValueId → String
  | 0, _ => ""
  | bound + 1, id =>
    match arena.get? id with
    | some value => names.value (arena.spellWithin names bound) value
    | none => ""

def spell (arena : Arena) (names : Names) (id : ValueId) : String :=
  arena.spellWithin names (id.index + 1) id

def spellSet (arena : Arena) (names : Names) (set : TypeSet) : String :=
  Names.set (arena.spell names) set

def spellGenerics (arena : Arena) (names : Names) (generics : Generics) : String :=
  Names.generics (arena.spell names) generics

end Arena

end TypeInference
