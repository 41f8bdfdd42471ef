import TypeInference.Table
import TypeInference.TypeSet

/-!
# Type variables

Every declaration of a type variable is a variable of its own.  A declaration may
give a bound, which the variable must be a subtype of, or constraints, which are
the only types it may stand for.  Both are class-level sets.
-/

namespace TypeInference

structure TypeVariables where
  names : Array String := #[]
  /-- Declared bounds, none of them empty. -/
  bounds : Table TypeVariableId TypeSet := ∅
  /-- Declared constraints, none of them empty. -/
  constraints : Table TypeVariableId TypeSet := ∅
deriving Inhabited

namespace TypeVariables

def size (typeVariables : TypeVariables) : Nat :=
  typeVariables.names.size

def declare (typeVariables : TypeVariables) (name : String) : TypeVariableId × TypeVariables :=
  (⟨typeVariables.names.size⟩, { typeVariables with names := typeVariables.names.push name })

/-- The spelling of a variable; an undeclared one is written as a question mark. -/
def name (typeVariables : TypeVariables) (variable_ : TypeVariableId) : String :=
  typeVariables.names.getD variable_.index "?"

/-- Give a variable a bound; an empty bound says nothing. -/
def setBound (typeVariables : TypeVariables) (variable_ : TypeVariableId) (bound : TypeSet) :
    TypeVariables :=
  if bound.isEmpty then typeVariables
  else { typeVariables with bounds := typeVariables.bounds.insert variable_ bound }

/-- Give a variable constraints; no constraints say nothing. -/
def setConstraints (typeVariables : TypeVariables) (variable_ : TypeVariableId)
    (constraints : TypeSet) : TypeVariables :=
  if constraints.isEmpty then typeVariables
  else { typeVariables with constraints := typeVariables.constraints.insert variable_ constraints }

def bound? (typeVariables : TypeVariables) (variable_ : TypeVariableId) : Option TypeSet :=
  typeVariables.bounds.get? variable_

def constraints? (typeVariables : TypeVariables) (variable_ : TypeVariableId) : Option TypeSet :=
  typeVariables.constraints.get? variable_

/-- What an unresolved variable stands for: its bound, else its constraints, else nothing. -/
def fallback (typeVariables : TypeVariables) (variable_ : TypeVariableId) : TypeSet :=
  match typeVariables.bound? variable_ with
  | some bound => bound
  | none => (typeVariables.constraints? variable_).getD ∅

/-- Replace the unconstrained value in a binding by the declared constraints. -/
def narrow (typeVariables : TypeVariables) (variable_ : TypeVariableId) (found : TypeSet)
    (any : ValueId) : TypeSet :=
  match typeVariables.constraints? variable_ with
  | some constraints => if found.contains any then found.erase any ∪ constraints else found
  | none => found

def declarationText (typeVariables : TypeVariables) (variable_ : TypeVariableId) : String :=
  let boundText :=
    match typeVariables.bound? variable_ with
    | some bound => " bound=" ++ toString bound.size ++ " value(s)"
    | none => ""
  let constraintsText :=
    match typeVariables.constraints? variable_ with
    | some constraints => " constraints=" ++ toString constraints.size ++ " value(s)"
    | none => ""
  boundText ++ constraintsText

def listing (typeVariables : TypeVariables) : String :=
  let heading := "TypeVarRegistry: " ++ toString typeVariables.size ++ " variables\n"
  let lines := typeVariables.names.toList.mapIdx fun index name =>
    "  " ++ name ++ typeVariables.declarationText ⟨index⟩ ++ "\n"
  heading ++ String.join lines

end TypeVariables

end TypeInference
