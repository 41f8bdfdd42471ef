import TypeInference.Engine.Binding

/-!
# Builtin calls

A clinic signature is matched with the arguments of a call, one set of values for
each of its parameters.  Builtin functions that the engine knows the behaviour of
are called by their signatures.
-/

namespace TypeInference

namespace Engine

variable (engine : Engine)

open Inference

/-- The values of one parameter of a signature, and what is left of the stream. -/
def matchParameter (signature : String) (expected index : Nat) (parameter : Clinic.Parameter)
    (stream : List Supplied) : Inference (Except Clinic.Issue (TypeSet × List Supplied)) := do
  let isPositional (supplied : Supplied) := supplied.keyword.isNone
  match parameter.stars with
  | 0 =>
    match stream with
    | [] =>
      if parameter.optional then return .ok (∅, [])
      else return .error (.missingArgument parameter.name expected index)
    | supplied :: rest =>
      if !isPositional supplied then return .error (.keywordArgument parameter.name)
      let values ← engine.resolve supplied.value
      if values.isEmpty && !parameter.optional then
        return .error (.unresolvable parameter.name)
      else return .ok (values, rest)
  | 1 =>
    let items := (stream.takeWhile isPositional).map (fun supplied => supplied.value)
    let packed ← engine.resolve (.packedTuple (← freshCell) items)
    return .ok (packed, stream.dropWhile isPositional)
  | _ => return .error (.unsupported signature)

def matchParameters (signature : String) (expected : Nat) :
    Nat → List Clinic.Parameter → List Supplied → Inference (Except Clinic.Issue (List TypeSet))
  | _, [], _ => pure (.ok [])
  | index, parameter :: parameters, stream => do
    match ← engine.matchParameter signature expected index parameter stream with
    | .error issue => return .error issue
    | .ok (values, rest) =>
      let others ← matchParameters signature expected (index + 1) parameters rest
      return others.map (values :: ·)

/-- The values that arguments give the parameters of a clinic signature. -/
def matchSignature (arguments : Arguments) (signature : String) :
    Inference (Except Clinic.Issue (List TypeSet)) := do
  match Clinic.parse signature with
  | .error issue => return .error issue
  | .ok parameters =>
    let (stream, _) ← engine.unpack arguments none .discarding
    engine.matchParameters signature parameters.length 0 parameters stream

def executeBuiltin (behavior : BuiltinBehavior) (arguments : Arguments) :
    Inference TypeSet := do
  match ← engine.matchSignature arguments behavior.signature with
  | .error issue =>
    emit (.signatureMismatch behavior issue)
    return ∅
  | .ok values =>
    let first := values.headD ∅
    match behavior with
    | .cast => engine.instances first
    | .overload => return first

end Engine

end TypeInference
