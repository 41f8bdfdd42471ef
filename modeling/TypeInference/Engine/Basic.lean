import TypeInference.Engine.Operation
import TypeInference.Value.Text

/-!
# Engines

An engine is an environment together with a way to answer operations.  The
definitions of the operations call each other directly where that is well founded,
and ask the engine where it is not: for the inference of a node, behind which
stands the tree, and for the execution of a call.  Fuel is spent only there.
-/

namespace TypeInference

/-- What stays fixed during one request. -/
structure Environment where
  declarations : Declarations
  provider : Provider
  settings : Settings := {}

/-- An environment in which operations can be asked for. -/
structure Engine extends Environment where
  ask : {α : Type} → Operation α → Inference α

namespace Engine

variable (engine : Engine)

open Inference

def inferNode (node : NodeId) : Inference TypeSet :=
  engine.ask (.inferNode node)

def execute (set : TypeSet) (arguments : Arguments) : Inference TypeSet :=
  engine.ask (.execute set arguments)

def runProgram {α : Type} (program : Program α) : Inference α :=
  program.run engine.ask

def classDeclaration (class_ : ClassId) : Inference ClassDeclaration :=
  match engine.declarations.class? class_ with
  | some declaration => pure declaration
  | none => throw (.unknownClass class_)

def functionDeclaration (function : FunctionId) : Inference FunctionDeclaration :=
  match engine.declarations.function? function with
  | some declaration => pure declaration
  | none => throw (.unknownFunction function)

def describe (id : ValueId) : Inference String := fun state =>
  .ok (state.arena.describe engine.declarations id, state)

/-- Number of levels that a structural recursion may descend. -/
def levels : Nat :=
  engine.settings.unificationDepthLimit + 1

/-- Record a problem of a call, if problems are reported and the sink records. -/
def report (sink : Diagnostics) (diagnostic : Diagnostic) : Inference Diagnostics := do
  if engine.settings.reportsDiagnostics && !sink.discards then
    emit (.diagnosed diagnostic)
    return sink.push diagnostic
  else return sink

/-! ## Nodes -/

/-- Infer a node through the tree, unless it is being inferred already. -/
def inferNodeOnce (node : NodeId) : Inference TypeSet := do
  count fun counters => { counters with nodeInferences := counters.nodeInferences + 1 }
  match (← get).nodeGuard.enter? node with
  | none =>
    emit (.nodeRecursion node)
    return ∅
  | some guard =>
    modify fun state => { state with nodeGuard := guard }
    let result ← engine.runProgram (engine.provider.inferNode node)
    modify fun state => { state with nodeGuard := state.nodeGuard.leave }
    return result

end Engine

end TypeInference
