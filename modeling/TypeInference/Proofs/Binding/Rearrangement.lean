import TypeInference.Engine.Run
import TypeInference.Proofs.Binding

/-!
# Where keywords are written

Arguments are met one after another: a keyword is set aside, and any other argument is
expanded in its place, which may infer, intern and report.  What is set aside is supplied
behind everything else.  So two calls with the same keywords and the same other arguments,
each in the same order, are unpacked and bound alike, wherever the keywords stand.
-/

namespace TypeInference

open Inference

/-- Arguments that differ in where the keywords stand among the others. -/
inductive Arguments.Rearranges : Arguments → Arguments → Prop
  | written {first second : List Argument}
      (named : first.filterMap Argument.keyword? = second.filterMap Argument.keyword?)
      (others : first.filter (fun argument => argument.keyword?.isNone) =
        second.filter fun argument => argument.keyword?.isNone)
      (callSite : Option NodeId) :
      Rearranges (.written first callSite) (.written second callSite)
  | bound {first second : Arguments} (receiver : ValueId) (rearranges : Rearranges first second) :
      Rearranges (.bound receiver first) (.bound receiver second)

namespace Engine

variable {engine : Engine} {function : Option FunctionId}

/-- Unpack arguments one after another, given what is expanded and set aside before. -/
def unpackInTurn (engine : Engine) (function : Option FunctionId) :
    List Argument → List Supplied → List (String × NodeId) → Diagnostics →
      Inference (List Supplied × Diagnostics)
  | [], expanded, aside, sink => do
    let named ← aside.mapM fun entry => do
      return (⟨some entry.1, ← deferNode entry.2⟩ : Supplied)
    return (expanded ++ named, sink)
  | argument :: rest, expanded, aside, sink => do
    match argument.keyword? with
    | some entry => engine.unpackInTurn function rest expanded (aside ++ [entry]) sink
    | none =>
      let (supplied, sink) ← engine.expandArgument function argument sink
      engine.unpackInTurn function rest (expanded ++ supplied) aside sink

/-- What is set aside waits until all that is left is expanded. -/
theorem unpackInTurn_eq (arguments : List Argument) (expanded : List Supplied)
    (aside : List (String × NodeId)) (sink : Diagnostics) :
    engine.unpackInTurn function arguments expanded aside sink = do
      let others := arguments.filter fun argument => argument.keyword?.isNone
      let (further, sink) ← throughSink (engine.expandArgument function) others sink
      let named ← (aside ++ arguments.filterMap Argument.keyword?).mapM fun entry => do
        return (⟨some entry.1, ← deferNode entry.2⟩ : Supplied)
      return (expanded ++ further.flatten ++ named, sink) := by
  induction arguments generalizing expanded aside sink with
  | nil => simp [unpackInTurn, throughSink]
  | cons argument rest ih =>
    cases isNamed : argument.keyword? with
    | some entry => simp [unpackInTurn, isNamed, ih]
    | none => simp [unpackInTurn, throughSink, isNamed, ih]

theorem unpackWritten_eq (arguments : List Argument) (sink : Diagnostics) :
    engine.unpackWritten arguments function sink =
      engine.unpackInTurn function arguments [] [] sink := by
  simp [unpackInTurn_eq, unpackWritten]

theorem unpack_of_rearranges {first second : Arguments} (rearranges : first.Rearranges second)
    (sink : Diagnostics) :
    engine.unpack first function sink = engine.unpack second function sink := by
  induction rearranges with
  | written named others callSite => simp only [unpack, unpackWritten, named, others]
  | bound receiver _ ih => simp only [unpack, ih]

end Engine

theorem Arguments.Rearranges.callSite? {first second : Arguments}
    (rearranges : first.Rearranges second) :
    first.callSite? = second.callSite? := by
  induction rearranges with
  | written => rfl
  | bound _ _ ih => exact ih

/--
Written arguments are unpacked one after another, and calls that differ in where the keywords
stand are unpacked and bound alike: from every state they return the same stream, the same
bound parameters and the same problems in the same order and leave the same state behind, or
else they fail alike.
-/
theorem bind_of_rearranges
    {first second : Arguments}
    (rearranges : first.Rearranges second)
    (engine : Engine)
    (function : FunctionId)
    (called : Option FunctionId)
    (sink : Diagnostics)
    (state : State) :
    (∀ arguments callSite, engine.unpack (.written arguments callSite) called sink state =
      engine.unpackInTurn called arguments [] [] sink state) ∧
    engine.unpack first called sink state = engine.unpack second called sink state ∧
    engine.bind function first sink state = engine.bind function second sink state := by
  refine ⟨fun arguments _ => congrFun (Engine.unpackWritten_eq arguments sink) state,
    congrFun (Engine.unpack_of_rearranges rearranges sink) state, ?_⟩
  unfold Engine.bind
  rw [Engine.unpack_of_rearranges rearranges, rearranges.callSite?]

/-- A keyword in front of items and of a value that cannot be unpacked, and behind them. -/
theorem bind_of_rearranges_of_interleaved :
    let first : Arguments :=
      .bound ⟨0⟩ (.written [.keyword "flag" ⟨1⟩, .starred ⟨2⟩, .positional ⟨3⟩] (some ⟨4⟩))
    let second : Arguments :=
      .bound ⟨0⟩ (.written [.starred ⟨2⟩, .positional ⟨3⟩, .keyword "flag" ⟨1⟩] (some ⟨4⟩))
    let environment : Environment :=
      { declarations := Engine.ofEveryKind.declarations
        provider := { inferNode := fun _ => .done (.ofList [⟨0⟩, ⟨1⟩]) } }
    let state : State := { arena := Arena.empty.append [.packedTuple [∅, .singleton ⟨0⟩], .none] }
    first ≠ second ∧ first.Rearranges second ∧
      ∃ bound reported after,
        (environment.engine 2).bind ⟨0⟩ first {} state = .ok ((bound, reported), after) ∧
        (environment.engine 2).bind ⟨0⟩ second {} state = .ok ((bound, reported), after) := by
  intro first second environment state
  have rearranges : first.Rearranges second := .bound _ (.written (by decide) (by decide) _)
  have same := (bind_of_rearranges rearranges (environment.engine 2) ⟨0⟩ none {} state).2.2
  have returns : ((environment.engine 2).bind ⟨0⟩ first {} state).toBool = true := by
    decide +kernel
  cases binds : (environment.engine 2).bind ⟨0⟩ first {} state with
  | error fault => rw [binds] at returns; cases returns
  | ok answer => exact ⟨by decide, rearranges, _, _, _, rfl, same.symm.trans binds⟩

end TypeInference
