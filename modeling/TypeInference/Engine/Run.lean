import TypeInference.Engine.Access
import TypeInference.Engine.Execution

/-!
# Running inference

The engine of an environment answers every operation.  Its knots are tied by fuel:
an engine asks the engine of the next lower fuel, and one without fuel gives up.
The guards of a request bound how deeply questions nest, so that a request that
has enough fuel never notices it.
-/

namespace TypeInference

def Engine.perform (engine : Engine) {α : Type} : Operation α → Inference α
  | .intern value => Inference.intern value
  | .value id => Inference.value id
  | .inferNode node => engine.inferNodeOnce node
  | .readHint node => engine.readHint node
  | .parameterType function index => engine.parameterType function index
  | .typeArguments generics => engine.typeArguments generics
  | .classOf id => Engine.classOf id
  | .classesOf set => Engine.classesOf set
  | .resolutionOrder id => engine.resolutionOrder id
  | .ancestor id class_ => engine.ancestor? id class_
  | .instances set => engine.instances set
  | .execute set arguments => engine.executeSet set arguments
  | .returnType function arguments => engine.returnType function arguments
  | .elements id => engine.elements id
  | .iterate set => engine.iterate set
  | .elementSet set => engine.elementSet set
  | .readAttribute set name => engine.readAttribute set name
  | .readItem set index => engine.readItem set index
  | .typedDictKeys class_ => engine.typedDictKeys class_
  | .typedDictField class_ key => engine.typedDictField class_ key
  | .unify hint actual => engine.unify hint actual
  | .freeVariables set => engine.freeVariables set
  | .inferVariables function arguments => engine.inferVariables function arguments
  | .substitute set substitution => engine.substitute set substitution
  | .classBindings id => engine.classBindings id
  | .unpack arguments function sink => engine.unpack arguments function sink
  | .bind function arguments sink => engine.bind function arguments sink
  | .accepts parameter => engine.accepts parameter
  | .matchSignature arguments signature => engine.matchSignature arguments signature
  | .resolve deferred => engine.resolve deferred

namespace Environment

/-- The engine of an environment with some fuel. -/
def engine (environment : Environment) : Nat → Engine
  | 0 => { environment with ask := fun _ => throw .outOfFuel }
  | fuel + 1 => { environment with ask := fun operation => (environment.engine fuel).perform operation }

def answer (environment : Environment) (fuel : Nat) {α : Type} (operation : Operation α) :
    Inference α :=
  (environment.engine fuel).perform operation

def run (environment : Environment) (fuel : Nat) {α : Type} (program : Program α) :
    Inference α :=
  program.run (environment.answer fuel)

/-- The state in which a request starts. -/
def start (environment : Environment) (arena : Arena) : State :=
  { arena := arena, budget := { settings := environment.settings } }

end Environment

/-- The event that closes a request. -/
def State.farewell (state : State) : Event :=
  .finished state.counters

end TypeInference
