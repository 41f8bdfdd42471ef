import TypeInference.TypeSet

/-!
# Values

Values come at two levels.  Class-level values are what an annotation evaluates
to; instance-level values are what running code evaluates to.  A value refers to
other values by identifier only, so that equality of values is decidable without
following references.
-/

namespace TypeInference

/-- The typing forms that take a subscript and are not classes. -/
inductive SpecialForm where
  | union
  | optional
  | type
  | classVar
  | callable
  | tuple
deriving DecidableEq

namespace SpecialForm

def all : List SpecialForm :=
  [union, optional, type, classVar, callable, tuple]

def name : SpecialForm → String
  | union => "Union"
  | optional => "Optional"
  | type => "Type"
  | classVar => "ClassVar"
  | callable => "Callable"
  | tuple => "Tuple"

def ofName? (name : String) : Option SpecialForm :=
  all.find? (fun form => form.name == name)

end SpecialForm

/--
Type arguments split into one set for each type parameter.  Homogeneous
arguments describe a tuple of any length whose items are all described by the
first slot.
-/
structure TypeArguments where
  slots : List TypeSet
  /-- Whether the arguments end in an ellipsis. -/
  homogeneous : Bool := false
deriving DecidableEq, Inhabited

namespace TypeArguments

/-- Arguments of a tuple of any length with items of one kind. -/
def ofElement (element : TypeSet) : TypeArguments :=
  ⟨[element], true⟩

/-- The set of a type parameter; nothing is known beyond the last slot. -/
def slot (arguments : TypeArguments) (index : Nat) : TypeSet :=
  arguments.slots.getD index ∅

def size (arguments : TypeArguments) : Nat :=
  arguments.slots.length

def isEmpty (arguments : TypeArguments) : Bool :=
  arguments.slots.isEmpty

end TypeArguments

/--
Type arguments as a value carries them: already split, or still one subscript
expression of the tree.
-/
inductive Generics where
  | resolved (arguments : TypeArguments)
  | lazy (node : NodeId)
deriving DecidableEq

namespace Generics

def none : Generics :=
  resolved ⟨[], false⟩

def ofSlots (slots : List TypeSet) : Generics :=
  resolved ⟨slots, false⟩

def ofElement (element : TypeSet) : Generics :=
  resolved (TypeArguments.ofElement element)

/-- Whether the arguments still have to be read from the tree. -/
def isLazy : Generics → Bool
  | resolved _ => false
  | lazy _ => true

def isUnparameterized : Generics → Bool
  | resolved arguments => arguments.isEmpty && !arguments.homogeneous
  | lazy _ => false

instance : Inhabited Generics := ⟨none⟩

end Generics

/-- Everything that inference reasons about. -/
inductive Value where
  | classObject (class_ : ClassId)
  | genericClass (class_ : ClassId) (generics : Generics)
  | instanceOf (class_ : ClassId) (generics : Generics)
  | typeVariable (variable_ : TypeVariableId)
  /-- A subscripted typing form in an annotation. -/
  | special (form : SpecialForm) (generics : Generics)
  /-- Something callable; slot 0 holds its parameter list and slot 1 what it returns. -/
  | callable (generics : Generics)
  /-- A tuple whose slots are the class-level kinds of its items. -/
  | tuple (generics : Generics)
  /-- The bracketed parameter list of a callable annotation. -/
  | typeList (items : List TypeSet)
  | function (function : FunctionId)
  | overloaded (functions : List FunctionId)
  /-- A function or overload set together with the value it was looked up on. -/
  | boundMethod (callee receiver : ValueId)
  /-- A sequence whose items are known exactly. -/
  | packedTuple (items : List TypeSet)
  /-- A mapping whose string keys are known exactly. -/
  | packedDict (entries : List (String × TypeSet))
  /-- An instance of a dictionary class with declared fields. -/
  | typedDict (class_ : ClassId)
  | literal (text : String)
  /-- An annotation that describes exactly one value. -/
  | exactly (value : ValueId)
  | any
  | none
  | ellipsis
deriving DecidableEq

namespace Value

/-- Values that only make sense inside annotations. -/
def isAnnotationLevel : Value → Bool
  | classObject _ | genericClass _ _ | typeVariable _ | special _ _ | typeList _ | exactly _ => true
  | _ => false

def isFunction : Value → Bool
  | function _ | overloaded _ | boundMethod _ _ => true
  | _ => false

def isClass : Value → Bool
  | classObject _ | genericClass _ _ => true
  | _ => false

def class? : Value → Option ClassId
  | classObject class_ | genericClass class_ _ => some class_
  | _ => Option.none

def generics? : Value → Option Generics
  | genericClass _ generics | instanceOf _ generics | special _ generics
  | callable generics | tuple generics => some generics
  | _ => Option.none

end Value

end TypeInference
