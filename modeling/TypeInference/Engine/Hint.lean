import TypeInference.Engine.Basic
import TypeInference.Text.Blank

/-!
# Annotations

What an annotation node evaluates to, with string annotations followed to what
they denote, and the type arguments that a subscript node stands for.  Both are
remembered for the rest of the request.
-/

namespace TypeInference

/--
The type arguments of a subscript.  An ellipsis behind one element marks a tuple
of any length.
-/
def TypeArguments.ofSubscript (slots : List TypeSet) : TypeArguments :=
  match slots with
  | [element, marker] =>
    if marker.single? = some Arena.ellipsisId then .ofElement element else ⟨slots, false⟩
  | _ => ⟨slots, false⟩

namespace Engine

variable (engine : Engine)

open Inference

def literal? (set : TypeSet) : Inference (Option String) := do
  match set.single? with
  | none => return none
  | some id =>
    match ← value id with
    | .literal text => return some text
    | _ => return none

/--
Follow a string annotation to the expression or the name it denotes.  A string
that is no expression is tried as a name, without the blanks around it.
-/
def followReference (node : NodeId) (source : String) : Inference TypeSet := do
  match engine.provider.forwardReference? source with
  | some target => engine.inferNode target
  | none =>
    let resolved ← engine.runProgram (engine.provider.resolveName (Text.trim source))
    if resolved.isEmpty then emit (.unresolvedReference node source)
    return resolved

def readHint (node : NodeId) : Inference TypeSet := do
  match (← get).hints.get? node with
  | some known => return known
  | none =>
    let values ← engine.inferNode node
    let result ←
      match ← literal? values with
      | some source => engine.followReference node source
      | none => pure values
    modify fun state => { state with hints := state.hints.insert node result }
    return result

def typeArguments : Generics → Inference TypeArguments
  | .resolved arguments => pure arguments
  | .lazy node => do
    match (← get).subscripts.get? node with
    | some known => return known
    | none =>
      let elements := (engine.provider.subscript? node).getD [node]
      let slots ← elements.mapM engine.readHint
      let arguments := TypeArguments.ofSubscript slots
      emit (.subscriptResolved node arguments.size)
      modify fun state => { state with subscripts := state.subscripts.insert node arguments }
      return arguments

end Engine

end TypeInference
