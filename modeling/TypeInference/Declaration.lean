import TypeInference.TypeVariable

/-!
# Declarations

Functions, classes and type variables known to one analysis.  A class keeps its
fields and methods in the order in which their names were first declared.  A
method name stands for one function or for a set of overload signatures.
-/

namespace TypeInference

/-- How a parameter receives arguments. -/
inductive ParameterKind where
  /-- By position or by keyword. -/
  | positional
  | keywordOnly
  /-- Every positional argument that is left, written with one star. -/
  | starred
  /-- Every keyword argument that is left, written with two stars. -/
  | doubleStarred
deriving DecidableEq

namespace ParameterKind

def collects : ParameterKind → Bool
  | starred | doubleStarred => true
  | positional | keywordOnly => false

def all : List ParameterKind :=
  [positional, keywordOnly, starred, doubleStarred]

def mark : ParameterKind → String
  | positional => "pos"
  | keywordOnly => "kwonly"
  | starred => "*"
  | doubleStarred => "**"

def ofMark? (mark : String) : Option ParameterKind :=
  all.find? (fun kind => kind.mark == mark)

end ParameterKind

structure Parameter where
  name : String
  kind : ParameterKind := .positional
  /-- The node of its annotation. -/
  hint : Option NodeId := none
  default : Option NodeId := none
deriving DecidableEq

def Parameter.isRequired (parameter : Parameter) : Bool :=
  !parameter.kind.collects && parameter.default.isNone

/-- Functions whose behaviour is given by inference itself. -/
inductive BuiltinBehavior where
  /-- Yields instances of the first argument. -/
  | cast
  /-- Yields the first argument unchanged. -/
  | overload
deriving DecidableEq

namespace BuiltinBehavior

/-- The clinic signature that calls are matched with. -/
def signature : BuiltinBehavior → String
  | cast => "type, object, /"
  | overload => "func, /"

def name : BuiltinBehavior → String
  | cast => "Cast"
  | overload => "Overload"

end BuiltinBehavior

structure FunctionDeclaration where
  name : String
  parameters : List Parameter := []
  /-- The node of its return annotation. -/
  returns : Option NodeId := none
  owner : Option ClassId := none
  /-- Its behaviour, if it has no body of its own. -/
  builtin : Option BuiltinBehavior := none
deriving DecidableEq

/-- The first parameter of a name together with its position. -/
def FunctionDeclaration.parameter? (function : FunctionDeclaration) (name : String) :
    Option (Parameter × Nat) :=
  function.parameters.zipIdx.find? (fun entry => entry.1.name == name)

def FunctionDeclaration.parameterIndex? (function : FunctionDeclaration) (name : String) :
    Option Nat :=
  (function.parameter? name).map (fun entry => entry.2)

/-- What a method name stands for. -/
inductive MethodGroup where
  | single (function : FunctionId)
  | overloaded (functions : List FunctionId)
deriving DecidableEq

namespace MethodGroup

def signatures : MethodGroup → List FunctionId
  | single function => [function]
  | overloaded functions => functions

/-- Add an overload signature to what a name stood for. -/
def extend (function : FunctionId) : Option MethodGroup → MethodGroup
  | none => overloaded [function]
  | some (single existing) => overloaded [existing, function]
  | some (overloaded functions) => overloaded (functions ++ [function])

end MethodGroup

structure ClassDeclaration where
  name : String
  /-- Whether its instances are dictionaries with the declared fields. -/
  isTypedDict : Bool := false
  typeParameters : List TypeVariableId := []
  /-- Its bases, which may mention its own type parameters. -/
  bases : List TypeSet := []
  methods : Table String MethodGroup := ∅
  /-- Annotation nodes of its fields by name. -/
  fields : Table String NodeId := ∅

def ClassDeclaration.isGeneric (class_ : ClassDeclaration) : Bool :=
  !class_.typeParameters.isEmpty

inductive Member where
  | method (group : MethodGroup)
  | field (hint : NodeId)
deriving DecidableEq

/-- The member of a name; methods hide fields. -/
def ClassDeclaration.member? (class_ : ClassDeclaration) (name : String) : Option Member :=
  match class_.methods.get? name with
  | some group => some (.method group)
  | none => (class_.fields.get? name).map .field

/-- Everything declared for one analysis. -/
structure Declarations where
  classes : Array ClassDeclaration := #[]
  functions : Array FunctionDeclaration := #[]
  typeVariables : TypeVariables := {}
deriving Inhabited

namespace Declarations

def class? (declarations : Declarations) (id : ClassId) : Option ClassDeclaration :=
  declarations.classes[id.index]?

def function? (declarations : Declarations) (id : FunctionId) : Option FunctionDeclaration :=
  declarations.functions[id.index]?

/-- The first class of a name. -/
def classByName? (declarations : Declarations) (name : String) : Option ClassId :=
  (declarations.classes.toList.findIdx? (fun class_ => class_.name == name)).map ClassId.mk

def addClass (declarations : Declarations) (class_ : ClassDeclaration) :
    ClassId × Declarations :=
  (⟨declarations.classes.size⟩,
    { declarations with classes := declarations.classes.push class_ })

def addFunction (declarations : Declarations) (function : FunctionDeclaration) :
    FunctionId × Declarations :=
  (⟨declarations.functions.size⟩,
    { declarations with functions := declarations.functions.push function })

def modifyClass (declarations : Declarations) (id : ClassId)
    (change : ClassDeclaration → ClassDeclaration) : Declarations :=
  { declarations with classes := declarations.classes.modify id.index change }

/-- Declare a method, which replaces what its name stood for. -/
def addMethod (declarations : Declarations) (owner : ClassId) (function : FunctionDeclaration) :
    FunctionId × Declarations :=
  let (id, declared) := declarations.addFunction { function with owner := some owner }
  (id, declared.modifyClass owner fun class_ =>
    { class_ with methods := class_.methods.insert function.name (.single id) })

/-- Declare an overload signature, which extends what its name stood for. -/
def addOverload (declarations : Declarations) (owner : ClassId) (function : FunctionDeclaration) :
    FunctionId × Declarations :=
  let (id, declared) := declarations.addFunction { function with owner := some owner }
  (id, declared.modifyClass owner fun class_ =>
    { class_ with
      methods := class_.methods.insert function.name
        (MethodGroup.extend id (class_.methods.get? function.name)) })

def addBase (declarations : Declarations) (id : ClassId) (base : TypeSet) : Declarations :=
  declarations.modifyClass id fun class_ => { class_ with bases := class_.bases ++ [base] }

/-- Declare a field, or move its annotation to another node. -/
def addField (declarations : Declarations) (id : ClassId) (name : String) (hint : NodeId) :
    Declarations :=
  declarations.modifyClass id fun class_ =>
    { class_ with fields := class_.fields.insert name hint }

def addTypeVariable (declarations : Declarations) (name : String) :
    TypeVariableId × Declarations :=
  let (id, typeVariables) := declarations.typeVariables.declare name
  (id, { declarations with typeVariables := typeVariables })

def setBound (declarations : Declarations) (variable_ : TypeVariableId) (bound : TypeSet) :
    Declarations :=
  { declarations with typeVariables := declarations.typeVariables.setBound variable_ bound }

def setConstraints (declarations : Declarations) (variable_ : TypeVariableId)
    (constraints : TypeSet) : Declarations :=
  { declarations with
    typeVariables := declarations.typeVariables.setConstraints variable_ constraints }

end Declarations

end TypeInference
