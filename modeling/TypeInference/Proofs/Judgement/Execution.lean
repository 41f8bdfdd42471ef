import TypeInference.Proofs.Judgement.Unification

/-!
# Calls keep a request well formed

What a call returns is within the scope.  A call of a value leads to the functions,
the constructor or the signature behind it; only a bound method leads to another
call of a value, which was interned before the method.
-/

namespace TypeInference

variable {arguments : Arguments} {function : FunctionId} {stream : List Supplied} {id : ValueId}
  {functions : List FunctionId} {class_ : ClassId}

namespace Judgement

variable {env : Environment} {judgement : Judgement env} {bound : Nat}

open Inference

/-- The bodies of functions are inferred within the scope. -/
def Bodies (judgement : Judgement env) : Prop :=
  judgement.YieldsFor 0 fun fuel execution =>
    (env.stage fuel).runProgram (env.provider.inferBody execution)

/-- Noting how far calls are known keeps what is kept besides well-formedness. -/
def Notes (judgement : Judgement env) : Prop :=
  ∀ {arena : Arena} {returns : Table Invocation Progress},
    judgement.Invariant arena returns → ∀ invocation progress,
      judgement.Invariant arena (returns.insert invocation progress)

section Functions

variable (reads : judgement.Reads) (calls : judgement.Calls)

include reads

/-! ## Builtin functions -/

/-- A parameter takes the first argument, or all before a keyword if it is starred. -/
theorem yields_matchParameter (signature : String) (expected index : Nat)
    (parameter : Clinic.Parameter) (within : env.Scopes bound stream) :
    judgement.Stages bound (·.matchParameter signature expected index parameter stream) := by
  unfold Engine.matchParameter
  match parameter.stars with
  | 0 =>
    cases stream with
    | nil =>
      refine keeps_ite (fun _ => ?_) fun _ => yields_pure within_error
      exact yields_pure (within_ok ⟨within_empty, within_nil⟩)
    | cons supplied rest =>
      replace within := within_cons.mp within
      refine keeps_ite (fun _ => yields_pure within_error) fun _ => ?_
      refine Yields.bind (yields_resolve reads supplied.value bound within.1)
        fun _ values larger valuesWithin => ?_
      refine keeps_ite (fun _ => yields_pure within_error) fun _ => ?_
      exact yields_pure (within_ok ⟨valuesWithin, within.2.grow larger⟩)
  | 1 =>
    refine Yields.bind yields_freshCell fun later cell larger _ => ?_
    have itemsWithin : env.Scopes later
        ((stream.takeWhile fun supplied => supplied.keyword.isNone).map
          fun supplied => supplied.value) :=
      within_map _ fun supplied member =>
        (within_sublist within (List.takeWhile_sublist _) supplied member).grow larger
    refine Yields.bind (yields_resolve reads _ later (within_packedTuple itemsWithin cell))
      fun _ packed largest packedWithin => ?_
    refine yields_pure (within_ok ⟨packedWithin, ?_⟩)
    exact (within_sublist within (List.dropWhile_sublist _)).grow (Nat.le_trans larger largest)
  | _ + 2 => exact yields_pure within_error

/-- Every parameter takes its share of what those before it have left. -/
theorem yields_matchParameters (signature : String) (expected index : Nat)
    (parameters : List Clinic.Parameter) (within : env.Scopes bound stream) :
    judgement.Stages bound (·.matchParameters signature expected index parameters stream) := by
  induction parameters generalizing bound index stream with
  | nil => exact yields_pure (within_ok within_nil)
  | cons parameter parameters ih =>
    refine Yields.bind (yields_matchParameter reads signature expected index parameter within)
      fun _ matched _ matchedWithin => ?_
    cases matched with
    | error issue => exact yields_pure within_error
    | ok found =>
      have foundWithin := matchedWithin found rfl
      refine Yields.bind (ih (index + 1) foundWithin.2) fun _ others larger othersWithin => ?_
      cases others with
      | error issue => exact yields_pure within_error
      | ok others =>
        exact yields_pure (within_ok
          (within_cons.mpr ⟨foundWithin.1.grow larger, othersWithin others rfl⟩))

include calls

/-- What a signature takes from the arguments is within their scope. -/
theorem yields_matchSignature (within : env.Scopes bound arguments)
    (signature : String) : judgement.Stages bound (·.matchSignature arguments signature) := by
  unfold Engine.matchSignature
  cases Clinic.parse signature with
  | error issue => exact yields_pure within_error
  | ok parameters =>
    refine Yields.bind (yields_unpack reads (fun _ => calls) within within_none .discarding)
      fun _ unpacked _ unpackedWithin => ?_
    exact yields_matchParameters reads signature _ 0 parameters unpackedWithin.1

/-- A builtin function returns what its first parameter has taken, or its instances. -/
theorem yields_executeBuiltin (behavior : BuiltinBehavior) (within : env.Scopes bound arguments) :
    judgement.Stages bound (·.executeBuiltin behavior arguments) := by
  refine Yields.bind (yields_matchSignature reads calls within behavior.signature)
    fun later matched _ matchedWithin => ?_
  cases matched with
  | error issue => exact yields_emit_pure _ within_empty
  | ok values =>
    have firstWithin : env.Scopes later (values.headD ∅) := by
      have valuesWithin := matchedWithin values rfl
      cases values with
      | nil => exact within_empty
      | cons first rest => exact (within_cons.mp valuesWithin).1
    cases behavior with
    | cast => exact yields_instances reads calls firstWithin
    | overload => exact yields_pure firstWithin

/-! ## Functions -/

variable (matched : judgement.Matches) (bodies : judgement.Bodies)

include bodies

/-- Arguments are bound before the body of a function is inferred. -/
theorem yields_enterBody (functionWithin : env.Scopes bound function)
    (within : env.Scopes bound arguments) :
    judgement.Stages bound (·.enterBody function arguments) := by
  refine keeps_marked _ (Yields.bind (yields_functionDeclaration functionWithin)
    fun _ declaration firstLarger _ => ?_)
  refine Keeps.bind keeps_get fun _ state secondLarger _ => ?_
  refine Yields.bind (yields_emit _) fun _ _ thirdLarger _ => ?_
  have larger := Nat.le_trans firstLarger (Nat.le_trans secondLarger thirdLarger)
  refine Yields.bind
    (yields_bindQuietly reads (functionWithin.grow larger) (fun _ => calls) (within.grow larger))
    fun later parameters fourthLarger parametersWithin => ?_
  have largest := Nat.le_trans larger fourthLarger
  refine Yields.bind
    (bodies later ⟨function, arguments, parameters⟩ (Nat.zero_le _)
      ⟨functionWithin.grow largest, within.grow largest, parametersWithin⟩)
    fun _ result _ resultWithin => ?_
  exact Yields.bind (yields_emit _) fun _ _ larger _ =>
    keeps_marked _ (yields_pure (resultWithin.grow larger))

omit reads calls bodies in
/-- A body that is refused returns nothing. -/
theorem yields_refuseBody (function : FunctionId) (reason : Refusal) :
    judgement.Stages bound (·.refuseBody function reason) := by
  simp only [Stages, Engine.refuseBody, Environment.stage_toEnvironment]
  exact Yields.bind (yields_emit _) fun _ _ _ _ =>
    Yields.bind (yields_count _) fun _ _ _ _ => yields_empty

omit reads calls bodies in
theorem yields_setBudget (budget : ExecutionBudget) :
    judgement.Yields bound fun _ => Engine.setBudget budget :=
  yields_modify_aside fun _ => ⟨rfl, rfl, rfl, rfl, rfl⟩

section Return

variable (functionWithin : env.Scopes bound function) (within : env.Scopes bound arguments)

include functionWithin within

/-- A body is entered or refused, and the budget is left in either case. -/
theorem yields_bodyType :
    judgement.Stages bound (·.bodyType function arguments) := by
  refine Yields.bind (yields_functionDeclaration functionWithin)
    fun _ declaration firstLarger _ => ?_
  refine keeps_marked _ (Keeps.bind keeps_get fun _ state secondLarger _ => ?_)
  generalize state.budget.enter function declaration.builtin.isSome = entered
  obtain ⟨budget, refusal⟩ := entered
  refine Yields.bind (yields_setBudget budget) fun later _ thirdLarger _ => ?_
  have larger := Nat.le_trans firstLarger (Nat.le_trans secondLarger thirdLarger)
  have finishes : ∀ moment result, later ≤ moment → env.Scopes moment result →
      judgement.Yields moment fun _ => (do
        Engine.setBudget (← get).budget.leave
        return result : Inference TypeSet) := by
    intro moment result _ resultWithin
    refine Keeps.bind keeps_get fun _ _ firstLarger _ => ?_
    exact Yields.bind (yields_setBudget _) fun _ _ secondLarger _ =>
      yields_pure (resultWithin.grow (Nat.le_trans firstLarger secondLarger))
  cases refusal with
  | some reason => exact Yields.bind (yields_refuseBody function reason) finishes
  | none =>
    exact Yields.bind
      (yields_enterBody reads calls bodies (functionWithin.grow larger) (within.grow larger))
      finishes

omit bodies in
include matched in
/-- The variables of a return annotation are replaced by what the call binds them to. -/
theorem yields_annotatedReturn (node : NodeId) :
    judgement.Stages bound (·.annotatedReturn function arguments node) := by
  refine Yields.bind (yields_readHint reads node) fun _ hint firstLarger hintWithin => ?_
  refine Yields.bind (yields_freeVariables reads hintWithin) fun _ _ secondLarger _ => ?_
  have larger := Nat.le_trans firstLarger secondLarger
  refine keeps_ite (fun _ => yields_instances reads calls (hintWithin.grow secondLarger))
    fun _ => ?_
  refine Yields.bind
    (yields_inferVariables reads calls matched (functionWithin.grow larger) (within.grow larger))
    fun _ bindings thirdLarger bindingsWithin => ?_
  exact Yields.bind
    (yields_substitute reads (hintWithin.grow (Nat.le_trans secondLarger thirdLarger))
      bindingsWithin)
    fun _ _ _ setWithin => yields_instances reads calls setWithin

include matched in
/-- A function returns what its annotation says, and else what its body does. -/
theorem yields_computeReturn :
    judgement.Stages bound (·.computeReturn function arguments) := by
  refine keeps_marked _ (Yields.bind (yields_functionDeclaration functionWithin)
    fun _ declaration firstLarger _ => ?_)
  have functionWithin := functionWithin.grow firstLarger
  have within := within.grow firstLarger
  cases declaration.builtin with
  | some behavior => exact yields_executeBuiltin reads calls behavior within
  | none =>
    cases declaration.returns with
    | none => exact yields_bodyType reads calls bodies functionWithin within
    | some node =>
      refine Yields.bind (yields_annotatedReturn reads calls matched functionWithin within node)
        fun _ annotated larger annotatedWithin => ?_
      refine keeps_ite (fun _ => ?_) fun _ => yields_pure annotatedWithin
      exact yields_bodyType reads calls bodies (functionWithin.grow larger) (within.grow larger)

end Return

omit reads calls bodies in
/-- Noting a call keeps a request well formed if its result is within the scope. -/
theorem yields_setProgress (notes : judgement.Notes) (invocation : Invocation)
    (within : ∀ result, progress = .finished result → env.Scopes bound result) :
    judgement.Yields bound fun _ => Engine.setProgress invocation progress := by
  refine keeps_marked _ (yields_modify fun state admitted larger => ⟨⟨?_, ?_⟩, rfl⟩)
  · exact admitted.wellFormed.setProgress
      (fun result finished => (within result finished).grow larger) invocation _
  · exact notes admitted.invariant invocation progress

omit reads calls bodies in
/-- What a function returns, given how a call starts that nothing is known about. -/
theorem yields_returnType_of_start (functionWithin : env.Scopes bound function)
    (starts : ∀ state : State, judgement.Admits state → bound ≤ state.arena.size →
      state.returns.get? ⟨function, arguments⟩ = none →
      judgement.KeepsAt state
        (fun fuel => do
          count fun counters => { counters with memoMisses := counters.memoMisses + 1 }
          Engine.setProgress ⟨function, arguments⟩ .running
          let result ← (env.stage fuel).computeReturn function arguments
          Engine.setProgress ⟨function, arguments⟩ (.finished result)
          return result)
        env.Scopes) :
    judgement.Stages bound (·.returnType function arguments) := by
  intro state admitted larger
  refine keepsAt_get ?_
  match known : state.returns.get? ⟨function, arguments⟩ with
  | none => exact starts state admitted larger known
  | some (.finished result) =>
    have resultWithin := admitted.wellFormed.returns _ result known
    have counted : judgement.Yields state.arena.size fun _ => (do
        count fun counters => { counters with memoHits := counters.memoHits + 1 }
        return result : Inference TypeSet) :=
      Yields.bind (yields_count _) fun _ _ larger _ => yields_pure (resultWithin.grow larger)
    exact counted state admitted (Nat.le_refl _)
  | some .running =>
    have emitted : judgement.Yields bound fun fuel => (do
        let declaration ← (env.stage fuel).functionDeclaration function
        emit (.recursiveReturn declaration.name)
        return ∅ : Inference TypeSet) :=
      Yields.bind (yields_functionDeclaration functionWithin) fun _ _ _ _ =>
        yields_emit_pure _ within_empty
    exact emitted state admitted larger

include matched in
/-- What a function returns is within the scope, be it remembered or computed. -/
theorem yields_returnType (notes : judgement.Notes) (functionWithin : env.Scopes bound function)
    (within : env.Scopes bound arguments) :
    judgement.Stages bound (·.returnType function arguments) := by
  have starts : judgement.Yields bound fun fuel => (do
      count fun counters => { counters with memoMisses := counters.memoMisses + 1 }
      Engine.setProgress ⟨function, arguments⟩ .running
      let result ← (env.stage fuel).computeReturn function arguments
      Engine.setProgress ⟨function, arguments⟩ (.finished result)
      return result : Inference TypeSet) := by
    refine Yields.bind (yields_count _) fun _ _ firstLarger _ => ?_
    refine Yields.bind (yields_setProgress notes _ fun _ finished => nomatch finished)
      fun _ _ secondLarger _ => ?_
    have larger := Nat.le_trans firstLarger secondLarger
    refine Yields.bind
      (yields_computeReturn reads calls matched bodies (functionWithin.grow larger)
        (within.grow larger))
      fun later result _ resultWithin => ?_
    have finished : ∀ other, Progress.finished result = .finished other → env.Scopes later other :=
      fun _ same => Progress.finished.inj same ▸ resultWithin
    exact Yields.bind (yields_setProgress notes _ finished) fun _ _ larger _ =>
      yields_pure (resultWithin.grow larger)
  exact yields_returnType_of_start functionWithin fun state admitted larger _ =>
    starts state admitted larger

end Functions

section Values

variable (reads : judgement.Reads) (calls : judgement.Calls) (matched : judgement.Matches)

include reads

/-! ## Overloads -/

/-- The function that is selected is one of the overloads. -/
theorem keeps_selectOverload (calls : arguments.IsWritten → judgement.Calls)
    (within : env.Scopes bound arguments) (functionsWithin : env.Scopes bound functions) :
    judgement.Keeps bound (fun fuel => (env.stage fuel).selectOverload arguments functions)
      fun _ selected => ∀ function, selected = some function → function ∈ functions := by
  induction functions generalizing bound with
  | nil => exact keeps_pure fun _ _ _ found => nomatch found
  | cons function rest ih =>
    replace functionsWithin := within_cons.mp functionsWithin
    have acceptedYields : judgement.Stages bound (·.acceptsCall arguments function) :=
      Yields.bind (yields_bindQuietly reads functionsWithin.1 calls within)
        fun _ _ _ parametersWithin => yields_allOf fun parameter member =>
          yields_accepts reads (parametersWithin parameter member)
    refine Keeps.bind acceptedYields fun _ accepted larger _ => ?_
    refine keeps_ite (fun _ => ?_) fun _ => ?_
    · refine Keeps.bind (yields_emit _) fun _ _ _ _ => keeps_pure fun _ _ selected same => ?_
      cases same
      exact List.mem_cons_self
    · refine (ih (within.grow larger) (functionsWithin.2.grow larger)).imp ?_
      exact fun _ _ _ found selected same => List.mem_cons_of_mem _ (found selected same)

/-- An overloaded function returns what its overloads return. -/
theorem yields_executeOverloaded (calls : arguments.IsWritten → judgement.Calls)
    (returnsYield : ∀ later, bound ≤ later → ∀ function ∈ functions,
      judgement.Stages later (·.returnType function arguments))
    (within : env.Scopes bound arguments) (functionsWithin : env.Scopes bound functions) :
    judgement.Stages bound (·.executeOverloaded functions arguments) := by
  refine Keeps.bind (keeps_selectOverload reads calls within functionsWithin)
    fun later selected larger found => ?_
  cases selected with
  | some function => exact returnsYield later larger function (found function rfl)
  | none =>
    exact yields_unionOver fun function member => returnsYield later larger function member

/-! ## Classes -/

/-- The constructor of a class is the first signature of its initializer. -/
theorem yields_constructor? (within : env.Scopes bound id) :
    judgement.Stages bound (·.constructor? id) := by
  refine Yields.bind (yields_lookUpMember reads within _) fun _ found _ foundWithin => ?_
  match found, foundWithin with
  | none, _ => exact yields_pure within_none
  | some (owner, .field node), _ => exact yields_pure within_none
  | some (owner, .method group), foundWithin =>
    have groupWithin := (foundWithin (owner, .method group) rfl).2
    refine yields_pure fun function first => ?_
    exact groupWithin function (List.mem_of_mem_head? first)

omit reads in
theorem yields_parameterSlot (within : env.Scopes bound bindings) (variable_ : TypeVariableId) :
    judgement.Yields bound fun _ => Engine.parameterSlot bindings variable_ := by
  unfold Engine.parameterSlot
  cases found : bindings.get? variable_ with
  | some set => exact yields_pure (within_substitution_get? within found)
  | none => exact yields_internSet trivial rfl

include calls matched

/-- A constructor infers type arguments from a receiver that has none yet. -/
theorem yields_constructedGenerics (classWithin : env.Scopes bound class_)
    (declaration : ClassDeclaration) (within : env.Scopes bound arguments) :
    judgement.Stages bound (·.constructedGenerics class_ declaration arguments) := by
  have classYields : judgement.Yields bound fun _ => intern (.classObject class_) :=
    yields_intern classWithin rfl
  refine Yields.bind classYields fun _ id firstLarger idWithin => ?_
  refine Yields.bind (yields_constructor? reads idWithin)
    fun second constructor secondLarger constructorWithin => ?_
  cases constructor with
  | none => exact yields_pure within_nil
  | some constructor =>
    have receiverYields : judgement.Yields second fun _ => intern (.instanceOf class_ .none) :=
      yields_intern ⟨classWithin, within_nil⟩ rfl
    refine Yields.bind receiverYields fun _ receiver thirdLarger receiverWithin => ?_
    have larger := Nat.le_trans firstLarger (Nat.le_trans secondLarger thirdLarger)
    refine Yields.bind
      (yields_inferVariables reads calls matched
        ((constructorWithin constructor rfl).grow thirdLarger)
        ⟨receiverWithin, within.grow larger⟩)
      fun later bindings _ bindingsWithin => ?_
    refine keeps_ite (fun _ => yields_pure within_nil) fun _ => ?_
    have slotsYield : judgement.Yields later fun _ =>
        declaration.typeParameters.mapM (Engine.parameterSlot bindings) :=
      yields_mapM fun variable_ _ => yields_parameterSlot bindingsWithin variable_
    exact slotsYield.map fun within => within

/-- Calling a class makes an instance of it. -/
theorem yields_construct (classWithin : env.Scopes bound class_)
    (within : env.Scopes bound arguments) :
    judgement.Stages bound (·.construct class_ arguments) := by
  refine Yields.bind (yields_classDeclaration classWithin) fun _ declaration larger _ => ?_
  have classWithin := classWithin.grow larger
  refine keeps_ite (fun _ => ?_) fun _ => yields_instantiate classWithin within_nil
  refine Yields.bind
    (yields_constructedGenerics reads calls matched classWithin declaration (within.grow larger))
    fun _ _ largest genericsWithin => ?_
  exact yields_instantiate (classWithin.grow largest) genericsWithin

/-! ## Callables -/

/-- The parameters of a callable are unified with the arguments in their places. -/
theorem yields_parameterListBindings (within : env.Scopes bound stream)
    (idWithin : env.Scopes bound id) :
    judgement.Stages bound (·.parameterListBindings stream id) := by
  refine Yields.bind (yields_value idWithin) fun later stored larger storedWithin => ?_
  cases stored with
  | typeList expected =>
    refine yields_mergeOver fun pair member => ?_
    have members := List.of_mem_zip member
    refine Yields.bind
      (yields_resolve reads pair.1.value later ((within pair.1 members.1).grow larger))
      fun _ _ largest actualWithin => ?_
    exact yields_unify reads calls matched ((storedWithin pair.2 members.2).grow largest)
      actualWithin
  | _ => exact yields_noBindings

/-- A callable returns what its signature says, with the bindings of the call. -/
theorem yields_callCallable (genericsWithin : env.Scopes bound generics)
    (within : env.Scopes bound arguments) :
    judgement.Stages bound (·.callCallable generics arguments) := by
  refine Yields.bind (yields_typeArguments reads genericsWithin)
    fun _ typeArguments firstLarger typeArgumentsWithin => ?_
  refine keeps_ite (fun _ => ?_) fun _ => ?_
  · refine Yields.bind
      (yields_unpack reads (fun _ => calls) (within.grow firstLarger) within_none .discarding)
      fun later unpacked secondLarger unpackedWithin => ?_
    have bindingsYield : judgement.Yields later fun fuel =>
        mergeOver ((env.stage fuel).parameterListBindings unpacked.1)
          (typeArguments.slot 0).members :=
      yields_mergeOver fun id member =>
        yields_parameterListBindings reads calls matched unpackedWithin.1
          ((within_slot typeArgumentsWithin 0 id member).grow secondLarger)
    refine Yields.bind bindingsYield fun _ bindings thirdLarger bindingsWithin => ?_
    have resultWithin := (within_slot typeArgumentsWithin 1).grow
      (Nat.le_trans secondLarger thirdLarger)
    exact Yields.bind (yields_substitute reads resultWithin bindingsWithin)
      fun _ _ _ setWithin => yields_instances reads calls setWithin
  · exact yields_emit_pure _ within_empty

/-! ## Values -/

/-- A value is called within the scope, given how its functions and older methods are. -/
theorem yields_executeValue (returnsYield : judgement.YieldsFor bound fun fuel function =>
      (env.stage fuel).returnType function arguments)
    (methodsYield : ∀ later callee receiver, bound ≤ later → callee.index < id.index →
      env.Scopes later receiver →
      judgement.Stages later (·.execute (.singleton callee) (.bound receiver arguments)))
    (within : env.Scopes bound arguments) (idWithin : env.Scopes bound id) :
    judgement.Stages bound (·.executeValue arguments id) := by
  refine Keeps.bind (keeps_value idWithin) fun later stored larger meets => ?_
  have storedWithin := meets.grow (idWithin.grow larger)
  have within := within.grow larger
  cases stored with
  | function function => exact returnsYield later function larger storedWithin
  | overloaded functions =>
    refine yields_executeOverloaded reads (fun _ => calls) ?_ within storedWithin
    intro final largest function member
    exact returnsYield final function (Nat.le_trans larger largest)
      ((storedWithin function member).grow largest)
  | boundMethod callee receiver =>
    exact methodsYield later callee receiver larger meets.within.1 storedWithin.2
  | classObject class_ => exact yields_construct reads calls matched storedWithin within
  | genericClass class_ generics => exact yields_instantiate storedWithin.1 storedWithin.2
  | callable generics => exact yields_callCallable reads calls matched storedWithin within
  | any => exact yields_empty
  | _ =>
    exact Yields.bind (yields_describe id) fun _ _ _ _ => yields_emit_pure _ within_empty

end Values

end Judgement

end TypeInference
