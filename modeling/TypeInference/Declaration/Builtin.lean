import TypeInference.Declaration
import TypeInference.Value.Arena

/-!
# Builtin declarations

Every analysis starts from the same classes and functions, and from an arena that
holds the bases of those classes.  The identifiers of the builtin declarations are
therefore constants.
-/

namespace TypeInference

/-- An arena together with the declarations its values refer to. -/
structure World where
  arena : Arena := Arena.initial
  declarations : Declarations := {}
deriving Inhabited

namespace Builtin

/-! ## Identifiers of builtin classes and functions -/

def object : ClassId := ⟨0⟩

def type : ClassId := ⟨1⟩

def function : ClassId := ⟨2⟩

def noneType : ClassId := ⟨3⟩

def int : ClassId := ⟨4⟩

def float : ClassId := ⟨5⟩

def bool : ClassId := ⟨6⟩

def iterable : ClassId := ⟨7⟩

def str : ClassId := ⟨8⟩

def bytes : ClassId := ⟨9⟩

def mapping : ClassId := ⟨10⟩

def tuple : ClassId := ⟨11⟩

def list : ClassId := ⟨12⟩

def set : ClassId := ⟨13⟩

def dict : ClassId := ⟨14⟩

def cast : FunctionId := ⟨0⟩

def overload : FunctionId := ⟨1⟩

/-! ## Installation -/

/-- A step of building a world. -/
abbrev Build := StateM World

def intern (value : Value) : Build ValueId := fun world =>
  let (id, arena) := world.arena.intern value
  (id, { world with arena := arena })

def internSet (value : Value) : Build TypeSet :=
  return .singleton (← intern value)

def addClass (class_ : ClassDeclaration) : Build ClassId := fun world =>
  let (id, declarations) := world.declarations.addClass class_
  (id, { world with declarations := declarations })

def addFunction (function : FunctionDeclaration) : Build FunctionId := fun world =>
  let (id, declarations) := world.declarations.addFunction function
  (id, { world with declarations := declarations })

def addTypeVariable (name : String) : Build TypeVariableId := fun world =>
  let (id, declarations) := world.declarations.addTypeVariable name
  (id, { world with declarations := declarations })

def addBase (class_ : ClassId) (base : TypeSet) : Build Unit := fun world =>
  ((), { world with declarations := world.declarations.addBase class_ base })

/-- The class-level set of iterables over an element. -/
def iterableOf (element : TypeSet) : Build TypeSet :=
  internSet (.genericClass iterable (.ofSlots [element]))

/-- Declare a container class of one type parameter that can be iterated over. -/
def addSequence (name : String) : Build Unit := do
  let parameter ← addTypeVariable "_T"
  let element ← internSet (.typeVariable parameter)
  let base ← iterableOf element
  let _ ← addClass { name := name, typeParameters := [parameter], bases := [base] }

/-- Declare the classes that have no type parameters and no items. -/
def addPlainClasses : Build TypeSet := do
  let _ ← addClass { name := "object" }
  let objectSet ← internSet (.classObject object)
  for name in ["type", "function", "NoneType", "int", "float"] do
    let _ ← addClass { name := name, bases := [objectSet] }
  let intSet ← internSet (.classObject int)
  let _ ← addClass { name := "bool", bases := [intSet] }
  return objectSet

def addIterableClasses (objectSet : TypeSet) : Build Unit := do
  let item ← addTypeVariable "_T_co"
  let _ ← addClass { name := "Iterable", typeParameters := [item], bases := [objectSet] }
  let _ ← addClass { name := "str" }
  let strSet ← internSet (.classObject str)
  addBase str (← iterableOf strSet)
  let intSet ← internSet (.classObject int)
  let _ ← addClass { name := "bytes", bases := [← iterableOf intSet] }
  let key ← addTypeVariable "_KT"
  let value ← addTypeVariable "_VT_co"
  let keySet ← internSet (.typeVariable key)
  let keys ← iterableOf keySet
  let _ ← addClass { name := "Mapping", typeParameters := [key, value], bases := [keys] }

def addContainerClasses : Build Unit := do
  addSequence "tuple"
  addSequence "list"
  addSequence "set"
  let key ← addTypeVariable "_KT"
  let value ← addTypeVariable "_VT"
  let keySet ← internSet (.typeVariable key)
  let valueSet ← internSet (.typeVariable value)
  let base ← internSet (.genericClass mapping (.ofSlots [keySet, valueSet]))
  let _ ← addClass { name := "dict", typeParameters := [key, value], bases := [base] }

def addFunctions : Build Unit := do
  let _ ← addFunction
    { name := "cast", parameters := [{ name := "typ" }, { name := "val" }], builtin := some .cast }
  let _ ← addFunction
    { name := "overload", parameters := [{ name := "func" }], builtin := some .overload }

def install : Build Unit := do
  let objectSet ← addPlainClasses
  addIterableClasses objectSet
  addContainerClasses
  addFunctions

end Builtin

def World.initial : World :=
  (Builtin.install {}).2

end TypeInference
