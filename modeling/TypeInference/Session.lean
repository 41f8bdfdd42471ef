import TypeInference.Declaration.Builtin
import TypeInference.Tree
import TypeInference.Value.Spelling

/-!
# Sessions

A session is a world and a tree together with names for everything in them, by
which declarations are made and referred to.  The builtin classes and functions
have their own names, and their type parameters are numbered.
-/

namespace TypeInference

/-- Names and what they stand for, the newest first. -/
structure Directory (ι : Type) where
  entries : List (String × ι) := []
deriving Inhabited

namespace Directory

variable {ι : Type}

/-- What a name stands for; a later name hides an earlier one. -/
def find? (directory : Directory ι) (name : String) : Option ι :=
  directory.entries.lookup name

/-- The newest name of something. -/
def name [BEq ι] (directory : Directory ι) (id : ι) : String :=
  ((directory.entries.find? (fun entry => entry.2 == id)).map Prod.fst).getD "?"

def add (directory : Directory ι) (name : String) (id : ι) : Directory ι :=
  ⟨(name, id) :: directory.entries⟩

end Directory

/-- A world and a tree with names. -/
structure Session where
  world : World := World.initial
  tree : Tree := {}
  classes : Directory ClassId := {}
  functions : Directory FunctionId := {}
  typeVars : Directory TypeVariableId := {}
  nodes : Directory NodeId := {}
  sets : Directory TypeSet := {}
  substitutions : Directory Substitution := {}

namespace Session

def nameBuiltins (session : Session) : Session :=
  let classes := session.world.declarations.classes.toList.mapIdx fun index class_ =>
    (class_.name, ClassId.mk index)
  let typeVars := session.world.declarations.classes.toList.flatMap fun class_ =>
    class_.typeParameters.mapIdx fun index variable_ =>
      (class_.name ++ "." ++ toString index, variable_)
  let functions := session.world.declarations.functions.toList.mapIdx fun index function =>
    (function.name, FunctionId.mk index)
  { session with classes := ⟨classes⟩, typeVars := ⟨typeVars⟩, functions := ⟨functions⟩ }

/-- The session every analysis starts from. -/
def initial : Session :=
  nameBuiltins {}

variable (session : Session)

def declarations : Declarations :=
  session.world.declarations

def names : Names :=
  ⟨session.classes.name, session.functions.name, session.typeVars.name⟩

def withDeclarations (declarations : Declarations) : Session :=
  { session with world := { session.world with declarations := declarations } }

def withArena (arena : Arena) : Session :=
  { session with world := { session.world with arena := arena } }

def intern (term : SetTerm) : TypeSet × Session :=
  let (set, world) := (term.intern Builtin.intern).run session.world
  (set, { session with world := world })

def nameVariable (name : String) (declared : TypeVariableId × Declarations) : Session :=
  { session.withDeclarations declared.2 with typeVars := session.typeVars.add name declared.1 }

def nameClass (name : String) (declared : ClassId × Declarations) : Session :=
  { session.withDeclarations declared.2 with classes := session.classes.add name declared.1 }

def nameFunction (name : String) (declared : FunctionId × Declarations) : Session :=
  { session.withDeclarations declared.2 with functions := session.functions.add name declared.1 }

def nameNode (name : String) (added : NodeId × Tree) : Session :=
  { session with tree := added.2, nodes := session.nodes.add name added.1 }

def nameSet (name : String) (set : TypeSet) : Session :=
  { session with sets := session.sets.add name set }

def nameSubstitution (name : String) (substitution : Substitution) : Session :=
  { session with substitutions := session.substitutions.add name substitution }

end Session

end TypeInference
