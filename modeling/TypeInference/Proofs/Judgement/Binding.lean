import TypeInference.Proofs.Judgement.Access
import TypeInference.Proofs.Scope.Binder

/-!
# Binding arguments keeps a request well formed

Unpacking the arguments of a call and binding them to parameters only passes on what
the call supplies.  Starred arguments may need a call to be unpacked, arguments that
are values do not; comparing a value with an annotation never needs one.
-/

namespace TypeInference

variable {function : Option FunctionId} {arguments : Arguments} {id hint argumentClass : ValueId}

/-- Arguments that stand at a call site, under any number of receivers. -/
def Arguments.IsWritten : Arguments → Prop
  | .written _ _ => True
  | .values _ => False
  | .bound _ arguments => arguments.IsWritten

namespace Judgement

variable {env : Environment} {judgement : Judgement env} {bound : Nat}

open Inference

/-! ## Reports -/

/-- A report changes nothing but its sink and the events. -/
theorem yields_report (sink : Diagnostics) (diagnostic : Diagnostic) :
    judgement.Stages bound (·.report sink diagnostic) := by
  simp only [Stages, Engine.report, Environment.stage_toEnvironment]
  refine keeps_ite (fun _ => ?_) fun _ => yields_pure trivial
  exact yields_emit_pure _ trivial

/-- Nor do any number of reports. -/
theorem yields_reportAll (diagnostics : List Diagnostic) (sink : Diagnostics) :
    judgement.Stages bound (·.reportAll diagnostics sink) := by
  refine keeps_foldlM (fun larger within => within.grow larger) trivial ?_
  intro diagnostic _ later sink _ _
  exact yields_report sink diagnostic

/-- The report of an argument that cannot be unpacked names a function within the scope. -/
theorem yields_reportUnpackable (within : env.Scopes bound function)
    (kind : DiagnosticKind) (node : NodeId) (message : FunctionDeclaration → String → String)
    (id : ValueId) (sink : Diagnostics) :
    judgement.Stages bound (·.reportUnpackable function kind node message id sink) := by
  cases function with
  | none => exact yields_pure trivial
  | some function =>
    refine Yields.bind (yields_functionDeclaration (within function rfl))
      fun _ declaration _ _ => ?_
    exact Yields.bind (yields_describe id) fun _ _ _ _ => yields_report sink _

/-! ## Unpacking -/

section Unpacking

variable (reads : judgement.Reads) (calls : judgement.Calls)

include reads

theorem yields_isMapping (within : env.Scopes bound class_) :
    judgement.Stages bound (·.isMapping class_) := by
  have classYields : judgement.Yields bound fun _ => intern (.classObject class_) :=
    yields_intern within rfl
  exact Yields.bind classYields fun _ _ _ idWithin => yields_isSubclass reads idWithin _

include calls

section

variable (functionWithin : env.Scopes bound function) (node : NodeId)
  (within : env.Scopes bound id) (sink : Diagnostics)

include functionWithin node within sink

/-- What is unpacked from a value after a star is within the scope of the value. -/
theorem yields_starredRow : judgement.Stages bound (·.starredRow function node id sink) := by
  refine Yields.bind (yields_elements reads calls within) fun _ found larger foundWithin => ?_
  cases found with
  | some items => exact yields_pure ⟨foundWithin items rfl, trivial⟩
  | none =>
    exact (yields_reportUnpackable (functionWithin.grow larger) _ _ _ _ _).map fun _ =>
      ⟨within_nil, trivial⟩

/-- So are the entries that are unpacked after two stars. -/
theorem yields_doubleStarredRow :
    judgement.Stages bound (·.doubleStarredRow function node id sink) := by
  have refuses : ∀ later, bound ≤ later → judgement.Yields later fun fuel => (do
      return ([], ← (env.stage fuel).opaqueEntries function node id sink) :
      Inference (List Supplied × Diagnostics)) := by
    intro later larger
    exact (yields_reportUnpackable (functionWithin.grow larger) _ _ _ _ _).map fun _ =>
      ⟨within_nil, trivial⟩
  have finishes : ∀ {later : Nat} {row : Nat → Inference (List Supplied)},
      judgement.Yields later row →
      judgement.Yields later fun fuel => (do return (← row fuel, sink) :
        Inference (List Supplied × Diagnostics)) :=
    fun rowYields => rowYields.map fun rowWithin => ⟨rowWithin, trivial⟩
  refine Yields.bind (yields_value within) fun later stored larger storedWithin => ?_
  cases stored with
  | packedDict entries =>
    refine finishes (yields_mapM fun entry member => ?_)
    exact (yields_deferKnown (storedWithin entry member).2).map fun within => within
  | typedDict class_ =>
    refine Yields.bind (yields_typedDictKeys reads storedWithin) fun moment keys _ _ => ?_
    have classWithin : env.Scopes moment class_ := storedWithin
    refine finishes (yields_mapM fun key _ => ?_)
    refine Yields.bind (yields_typedDictField reads calls classWithin key)
      fun _ _ _ fieldWithin => ?_
    exact (yields_deferKnown fieldWithin).map fun within => within
  | instanceOf class_ generics =>
    refine Yields.bind (yields_isMapping reads storedWithin.1)
      fun moment isMapping momentLarger _ => ?_
    refine keeps_ite (fun _ => ?_) fun _ => refuses moment (Nat.le_trans larger momentLarger)
    have classWithin : env.Scopes moment class_ := storedWithin.1
    refine Yields.bind (yields_classDeclaration classWithin) fun _ declaration _ _ => ?_
    exact yields_emit_pure _ ⟨within_nil, trivial⟩
  | any => exact yields_pure ⟨within_nil, trivial⟩
  | _ => exact refuses later larger

end

/-- Only arguments with stars are inferred before they are bound; the others are deferred. -/
theorem yields_expandArgument (functionWithin : env.Scopes bound function)
    (argument : Argument) (sink : Diagnostics) :
    judgement.Stages bound (·.expandArgument function argument sink) := by
  cases argument with
  | positional node =>
    exact (yields_deferNode node).map fun deferredWithin =>
      ⟨within_cons.mpr ⟨deferredWithin, within_nil⟩, trivial⟩
  | keyword name node => exact yields_pure ⟨within_nil, trivial⟩
  | starred node =>
    refine Yields.bind (reads.node bound node) fun later values larger valuesWithin => ?_
    have rowsYield : judgement.Yields later fun fuel =>
        throughSink ((env.stage fuel).starredRow function node) values.members sink :=
      yields_throughSink (fun id member sink =>
        yields_starredRow reads calls (functionWithin.grow larger) node (valuesWithin id member)
          sink) sink
    refine Yields.bind rowsYield fun _ rows _ rowsWithin => ?_
    refine Yields.bind (yields_mergeRows rowsWithin.1) fun _ merged _ mergedWithin => ?_
    exact yields_pure ⟨within_map _ fun item member => mergedWithin item member, trivial⟩
  | doubleStarred node =>
    refine Yields.bind (reads.node bound node) fun later values larger valuesWithin => ?_
    have rowsYield : judgement.Yields later fun fuel =>
        throughSink ((env.stage fuel).doubleStarredRow function node) values.members sink :=
      yields_throughSink (fun id member sink =>
        yields_doubleStarredRow reads calls (functionWithin.grow larger) node
          (valuesWithin id member) sink) sink
    exact rowsYield.map fun rowsWithin => ⟨within_flatten rowsWithin.1, trivial⟩

/-- Arguments supply what they expand to, and keyword arguments come last. -/
theorem yields_unpackWritten (arguments : List Argument)
    (functionWithin : env.Scopes bound function) (sink : Diagnostics) :
    judgement.Stages bound (·.unpackWritten arguments function sink) := by
  have expandedYields : judgement.Yields bound fun fuel =>
      throughSink ((env.stage fuel).expandArgument function)
        (arguments.filter fun argument => argument.keyword?.isNone) sink :=
    yields_throughSink
      (fun argument _ sink => yields_expandArgument reads calls functionWithin argument sink) sink
  refine Yields.bind expandedYields fun later expanded _ expandedWithin => ?_
  have namedYields : judgement.Yields later fun _ =>
      (arguments.filterMap Argument.keyword?).mapM fun entry => (do
        return (⟨some entry.1, ← Engine.deferNode entry.2⟩ : Supplied) : Inference Supplied) :=
    yields_mapM fun entry _ => (yields_deferNode entry.2).map id
  refine Yields.bind namedYields fun _ named larger namedWithin => ?_
  refine yields_pure ⟨within_append.mpr ⟨?_, namedWithin⟩, trivial⟩
  exact within_flatten (expandedWithin.1.grow larger)

omit calls in
/-- Calls are needed for arguments that stand at a call site only. -/
theorem yields_unpack (calls : arguments.IsWritten → judgement.Calls)
    (within : env.Scopes bound arguments)
    (functionWithin : env.Scopes bound function) (sink : Diagnostics) :
    judgement.Stages bound (·.unpack arguments function sink) := by
  induction arguments generalizing bound with
  | written arguments callSite =>
    exact yields_unpackWritten reads (calls trivial) arguments functionWithin sink
  | values sets =>
    have suppliedYields : judgement.Yields bound fun _ =>
        sets.mapM fun set => (do
          return Engine.Supplied.ofPositional (← Engine.deferKnown set) : Inference Supplied) :=
      yields_mapM fun set member => (yields_deferKnown (within set member)).map id
    exact suppliedYields.map fun suppliedWithin => ⟨suppliedWithin, trivial⟩
  | bound receiver arguments ih =>
    refine Yields.bind (yields_deferKnown (within_singleton within.1))
      fun _ first larger firstWithin => ?_
    have restYields := ih calls (within.2.grow larger) (functionWithin.grow larger)
    refine Yields.bind restYields fun _ others largest othersWithin => ?_
    exact yields_pure ⟨within_cons.mpr ⟨firstWithin.grow largest, othersWithin.1⟩, trivial⟩

/-! ## Binding -/

omit reads calls in
/-- New cells are empty, and keep a request well formed. -/
theorem yields_claimCells (count : Nat) : judgement.Yields bound fun _ => Engine.claimCells count :=
  yields_modify fun _ admitted _ =>
    ⟨⟨admitted.wellFormed.appendCells count, admitted.invariant⟩, rfl⟩

variable {function : FunctionId}

omit calls in
/-- What parameters are bound to is within the scope of what the call supplies. -/
theorem yields_bind (functionWithin : env.Scopes bound function)
    (calls : arguments.IsWritten → judgement.Calls)
    (within : env.Scopes bound arguments) (sink : Diagnostics) :
    judgement.Stages bound (·.bind function arguments sink) := by
  refine Yields.bind (yields_functionDeclaration functionWithin)
    fun first declaration firstLarger _ => ?_
  have functionWithin := functionWithin.grow firstLarger
  refine Yields.bind
    (yields_unpack reads calls (within.grow firstLarger) (within_some functionWithin) sink)
    fun second unpacked secondLarger unpackedWithin => ?_
  refine Keeps.bind keeps_get fun third state thirdLarger _ => ?_
  refine Yields.bind (yields_claimCells _) fun fourth _ fourthLarger _ => ?_
  refine Yields.bind (yields_reportAll _ _) fun fifth _ fifthLarger _ => ?_
  have larger : second ≤ fifth := Nat.le_trans thirdLarger (Nat.le_trans fourthLarger fifthLarger)
  refine yields_pure ⟨?_, trivial⟩
  exact Binder.within_bindStream (functionWithin.grow (Nat.le_trans secondLarger larger))
    declaration _ (unpackedWithin.1.grow larger) _

omit calls in
theorem yields_bindQuietly (functionWithin : env.Scopes bound function)
    (calls : arguments.IsWritten → judgement.Calls) (within : env.Scopes bound arguments) :
    judgement.Stages bound (·.bindQuietly function arguments) :=
  (yields_bind reads functionWithin calls within .discarding).map fun boundWithin => boundWithin.1

end Unpacking

/-! ## Comparing arguments with annotations -/

section Comparing

variable (reads : judgement.Reads)

include reads

/-- Comparing annotations needs subclasses and type arguments, but no calls. -/
theorem yields_admitsValue (nestedYields : judgement.YieldsFor bound nested)
    (hintWithin : env.Scopes bound hint) (argumentWithin : env.Scopes bound argumentClass) :
    judgement.Yields bound fun fuel =>
      (env.stage fuel).admitsValue (nested fuel) hint argumentClass := by
  refine Yields.bind (yields_value argumentWithin) fun _ argument firstLarger _ => ?_
  refine keeps_ite (fun _ => yields_pure trivial) fun _ => ?_
  refine Yields.bind (yields_value (hintWithin.grow firstLarger))
    fun later stored secondLarger storedWithin => ?_
  have larger := Nat.le_trans firstLarger secondLarger
  have subclassYields := fun class_ => yields_isSubclass reads (argumentWithin.grow larger) class_
  have anyYields : ∀ final, later ≤ final → ∀ ids : List ValueId,
      env.Scopes final ids →
      judgement.Yields final fun fuel => anyOf (nested fuel) ids :=
    fun final largest ids idsWithin => yields_anyOf fun id member =>
      nestedYields final id (Nat.le_trans larger largest) (idsWithin id member)
  have slotsYield : ∀ generics, env.Scopes later generics →
      judgement.Yields later fun fuel => (do
        let arguments ← (env.stage fuel).typeArguments generics
        anyOf (nested fuel) (arguments.slots.flatMap TypeSet.members) : Inference Bool) := by
    intro generics genericsWithin
    refine Yields.bind (yields_typeArguments reads genericsWithin)
      fun final arguments largest argumentsWithin => anyYields final largest _ ?_
    intro id member
    obtain ⟨slot, slotMember, idMember⟩ := List.mem_flatMap.mp member
    exact argumentsWithin slot slotMember id idMember
  cases stored with
  | classObject class_ | genericClass class_ => exact subclassYields class_
  | special form generics =>
    cases form with
    | union => exact slotsYield generics storedWithin
    | optional =>
      exact keeps_ite (fun _ => yields_pure trivial) fun _ => slotsYield generics storedWithin
    | classVar =>
      exact Yields.bind (yields_typeArguments reads storedWithin)
        fun final arguments largest argumentsWithin =>
          anyYields final largest _ (within_slot argumentsWithin 0)
    | tuple => exact subclassYields Builtin.tuple
    | type => exact subclassYields Builtin.type
    | callable =>
      cases argument with
      | special form generics =>
        cases form with
        | callable => exact yields_pure trivial
        | _ => exact subclassYields Builtin.function
      | _ => exact subclassYields Builtin.function
  | _ => exact yields_pure trivial

/-- So it is down to any level. -/
theorem yields_admitsWithin (levels : Nat) (argumentWithin : env.Scopes bound argumentClass)
    (hintWithin : env.Scopes bound hint) :
    judgement.Stages bound (·.admitsWithin argumentClass levels hint) := by
  induction levels generalizing bound hint with
  | zero =>
    simp only [Stages, Engine.admitsWithin, Engine.levels, Environment.stage_toEnvironment]
    exact Yields.bind (yields_describe hint) fun _ _ _ _ => yields_emit_pure _ trivial
  | succ levels ih =>
    exact yields_admitsValue reads
      (fun _ _ larger within => ih (argumentWithin.grow larger) within)
      hintWithin argumentWithin

/-- Whether a class is admitted is decided within the scope. -/
theorem yields_anyAdmitted (hintsWithin : env.Scopes bound hints)
    (argumentsWithin : env.Scopes bound argumentClasses) :
    judgement.Stages bound (·.anyAdmitted hints argumentClasses) :=
  yields_anyOf fun argumentClass argumentMember => yields_anyOf fun hint hintMember =>
    yields_admitsWithin reads (env.settings.unificationDepthLimit + 1)
      (argumentsWithin argumentClass argumentMember) (hintsWithin hint hintMember)

/-- An argument is resolved before it is compared with the annotation of its parameter. -/
theorem yields_accepts (within : env.Scopes bound parameter) :
    judgement.Stages bound (·.accepts parameter) := by
  refine keeps_ite (fun _ => yields_pure trivial) fun _ => ?_
  refine Yields.bind (yields_functionDeclaration within.1) fun _ declaration firstLarger _ => ?_
  cases (declaration.parameters[parameter.index]?).bind Parameter.hint with
  | none => exact yields_pure trivial
  | some node =>
    refine Yields.bind (yields_readHint reads node) fun second hints secondLarger hintsWithin => ?_
    refine keeps_ite (fun _ => yields_pure trivial) fun _ => ?_
    have valueWithin := within.2.grow (Nat.le_trans firstLarger secondLarger)
    refine Yields.bind (yields_resolve reads parameter.value second valueWithin)
      fun _ values thirdLarger valuesWithin => ?_
    refine Yields.bind (yields_classesOf valuesWithin)
      fun _ classes fourthLarger classesWithin => ?_
    have hintsWithin := hintsWithin.grow (Nat.le_trans thirdLarger fourthLarger)
    refine Yields.bind (yields_anyAdmitted reads hintsWithin classesWithin) fun _ accepted _ _ => ?_
    exact yields_emit_pure _ trivial

end Comparing

end Judgement

end TypeInference
