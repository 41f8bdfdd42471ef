import TypeInference.Proofs.Judgement.Binding

/-!
# Unification keeps a request well formed

Matching an annotation with values binds type variables to class-level sets within
the scope.  Only a callable annotation calls the values it is matched with.
-/

namespace TypeInference

variable {nested : Nat → Engine.Unifier} {actual hint : TypeSet} {generics : Generics}
  {id receiver : ValueId} {arguments : Arguments}

namespace Judgement

variable {env : Environment} {judgement : Judgement env} {bound : Nat}

open Inference

/-- Nested annotations are unified within the scope. -/
def Unifies (judgement : Judgement env) (bound : Nat) (nested : Nat → Engine.Unifier) : Prop :=
  ∀ later hint actual, bound ≤ later → Within env.declarations later hint →
    Within env.declarations later actual →
    judgement.Yields later fun fuel => nested fuel hint actual

theorem Unifies.grow (unifies : judgement.Unifies bound nested) (larger : bound ≤ later) :
    judgement.Unifies later nested :=
  fun final hint actual largest => unifies final hint actual (Nat.le_trans larger largest)

/-- An annotation is unified with what a step yields. -/
theorem Unifies.after (unifies : judgement.Unifies bound nested) (larger : bound ≤ later)
    (within : env.Scopes later hint) {seen : Nat → Inference TypeSet}
    (seenYields : judgement.Yields later seen) :
    judgement.Yields later fun fuel => seen fuel >>= nested fuel hint :=
  Yields.bind seenYields fun final actual largest actualWithin =>
    unifies final hint actual (Nat.le_trans larger largest) (within.grow largest) actualWithin

/-! ## Type variables -/

/-- What a value binds a variable to is within the scope of the value. -/
theorem yields_bindingOf (within : env.Scopes bound id) :
    judgement.Yields bound fun _ => Engine.bindingOf id := by
  refine Yields.bind (yields_value within) fun later seen larger _ => ?_
  have idWithin := within.grow larger
  refine keeps_ite (fun _ => ?_) fun _ => ?_
  · have exactlyWithin : env.Scopes later (Value.exactly id) := idWithin
    exact yields_internSet exactlyWithin rfl
  · refine Yields.bind (yields_classOf idWithin) fun _ found _ foundWithin => ?_
    cases found with
    | some class_ => exact yields_pure (within_singleton (foundWithin class_ rfl))
    | none => exact yields_empty

/-- A variable is bound to what all values that were seen give. -/
theorem yields_unifyVariable (variable_ : TypeVariableId) (within : env.Scopes bound actual) :
    judgement.Yields bound fun _ => Engine.unifyVariable variable_ actual := by
  have boundYields : judgement.Yields bound fun _ => unionOver Engine.bindingOf actual.members :=
    yields_unionOver fun id member => yields_bindingOf (within id member)
  exact boundYields.map fun setWithin => within_singletonSubstitution setWithin variable_

/-- The tuples among values are some of these values. -/
theorem yields_tuplesIn {set : TypeSet} (within : env.Scopes bound set) :
    judgement.Yields bound fun _ => Engine.tuplesIn set := by
  have tests : ∀ id, env.Scopes bound id → judgement.Yields bound fun _ => Engine.isTuple id := by
    intro id idWithin
    refine Yields.bind (yields_value idWithin) fun _ stored _ _ => ?_
    cases stored with
    | _ => exact yields_pure trivial
  refine yields_unionOver fun id member => ?_
  refine Yields.bind (tests id (within id member)) fun _ isTuple larger _ => yields_pure ?_
  split
  · exact within_singleton ((within id member).grow larger)
  · exact within_empty

section Calling

variable (reads : judgement.Reads) (calls : judgement.Calls)

include reads calls

/-! ## Type arguments -/

section

variable (unifies : judgement.Unifies bound nested) (within : env.Scopes bound generics)

include unifies within

/-- Slots are unified with the instances of the slots that a class is given. -/
theorem yields_unifyPairwise (classWithin : env.Scopes bound argumentClass) :
    judgement.Yields bound fun fuel =>
      (env.stage fuel).unifyPairwise (nested fuel) generics argumentClass := by
  refine Yields.bind (yields_value classWithin) fun _ stored firstLarger storedWithin => ?_
  cases stored with
  | genericClass class_ found =>
    refine Yields.bind (yields_typeArguments reads storedWithin.2)
      fun _ foundArguments secondLarger foundWithin => ?_
    have larger := Nat.le_trans firstLarger secondLarger
    refine Yields.bind (yields_typeArguments reads (within.grow larger))
      fun later arguments thirdLarger argumentsWithin => ?_
    refine yields_mergeOver fun slots member => ?_
    have members := List.of_mem_zip member
    have foundSlot := (foundWithin.grow thirdLarger) slots.2 members.2
    exact unifies.after (Nat.le_trans larger thirdLarger) (argumentsWithin slots.1 members.1)
      (yields_instances reads calls foundSlot)
  | _ => exact yields_noBindings

/-- A homogeneous tuple is unified with all elements, any other slot by slot. -/
theorem yields_unifyTuple (actualWithin : env.Scopes bound actual) :
    judgement.Yields bound fun fuel =>
      (env.stage fuel).unifyTuple (nested fuel) generics actual := by
  refine Yields.bind (yields_tuplesIn actualWithin) fun _ tuples firstLarger tuplesWithin => ?_
  refine keeps_ite (fun _ => yields_noBindings) fun _ => ?_
  refine Yields.bind (yields_typeArguments reads (within.grow firstLarger))
    fun later arguments secondLarger argumentsWithin => ?_
  have larger := Nat.le_trans firstLarger secondLarger
  refine keeps_ite (fun _ => ?_) fun _ => ?_
  · exact unifies.after larger (within_slot argumentsWithin 0)
      (yields_elementSet reads calls (tuplesWithin.grow secondLarger))
  · refine yields_mergeOver fun id member => ?_
    refine Yields.bind (yields_classOf ((tuplesWithin id member).grow secondLarger))
      fun final found largest foundWithin => ?_
    cases found with
    | some argumentClass =>
      have finalLarger := Nat.le_trans larger largest
      exact yields_unifyPairwise reads calls (unifies.grow finalLarger)
        (within.grow finalLarger) (foundWithin argumentClass rfl)
    | none => exact yields_noBindings

end

/-! ## Generic classes and typing forms -/

section

variable (unifies : judgement.Unifies bound nested) (class_ : ClassId)
  (within : env.Scopes bound generics)

include unifies class_ within

/-- A value is unified through an ancestor of its class, if there is one. -/
theorem yields_unifyInstance (idWithin : env.Scopes bound id) :
    judgement.Yields bound fun fuel =>
      (env.stage fuel).unifyInstance (nested fuel) class_ generics id := by
  refine Yields.bind (yields_value idWithin) fun _ stored firstLarger _ => ?_
  refine keeps_ite (fun _ => yields_noBindings) fun _ => ?_
  refine Yields.bind (yields_classOf (idWithin.grow firstLarger))
    fun _ found secondLarger foundWithin => ?_
  cases found with
  | none => exact yields_noBindings
  | some argumentClass =>
    refine Yields.bind (yields_ancestor? reads (foundWithin argumentClass rfl) class_)
      fun _ ancestor thirdLarger ancestorWithin => ?_
    cases ancestor with
    | none => exact yields_noBindings
    | some ancestor =>
      have larger := Nat.le_trans firstLarger (Nat.le_trans secondLarger thirdLarger)
      exact yields_unifyPairwise reads calls (unifies.grow larger) (within.grow larger)
        (ancestorWithin ancestor rfl)

/-- Iterables and tuples have rules of their own; other classes are unified through ancestors. -/
theorem yields_unifyClass (actualWithin : env.Scopes bound actual) :
    judgement.Yields bound fun fuel =>
      (env.stage fuel).unifyClass (nested fuel) class_ generics actual := by
  refine Yields.bind (yields_typeArguments reads within)
    fun later arguments larger argumentsWithin => ?_
  refine keeps_ite (fun _ => yields_noBindings) fun _ => ?_
  refine keeps_ite (fun _ => ?_) fun _ => ?_
  · exact unifies.after larger (within_slot argumentsWithin 0)
      (yields_elementSet reads calls (actualWithin.grow larger))
  · refine keeps_ite (fun _ => ?_) fun _ => ?_
    · exact yields_unifyTuple reads calls (unifies.grow larger) (within.grow larger)
        (actualWithin.grow larger)
    · exact yields_mergeOver fun id member =>
        yields_unifyInstance reads calls (unifies.grow larger) class_ (within.grow larger)
          ((actualWithin id member).grow larger)

end

variable (matched : judgement.Matches)

include matched

/-- A callable is unified with what calling the values returns. -/
theorem yields_unifyForm (unifies : judgement.Unifies bound nested) (form : SpecialForm)
    (within : env.Scopes bound generics)
    (matching : (Value.special form generics).isCallable = true → judgement.Matching)
    (actualWithin : env.Scopes bound actual) :
    judgement.Yields bound fun fuel =>
      (env.stage fuel).unifyForm (nested fuel) form generics actual := by
  refine Yields.bind (yields_typeArguments reads within)
    fun later arguments larger argumentsWithin => ?_
  refine keeps_ite (fun _ => yields_noBindings) fun _ => ?_
  have seenWithin := actualWithin.grow larger
  have slotWithin := fun index => within_slot argumentsWithin index
  cases form with
  | optional =>
    exact unifies later _ _ larger (slotWithin 0) (within_erase seenWithin _)
  | union =>
    exact yields_mergeOver fun slot member =>
      unifies later slot actual larger (argumentsWithin slot member) seenWithin
  | classVar => exact unifies later _ _ larger (slotWithin 0) seenWithin
  | type => exact unifies.after larger (slotWithin 0) (yields_instances reads calls seenWithin)
  | callable =>
    refine keeps_ite (fun _ => ?_) fun _ => yields_noBindings
    exact unifies.after larger (slotWithin 1) (matched (matching rfl) later actual seenWithin)
  | tuple =>
    exact yields_unifyTuple reads calls (unifies.grow larger) (within.grow larger) seenWithin

/-! ## Annotations -/

/-- One annotation is unified within the scope if the nested ones are. -/
theorem yields_unifyValue (unifies : judgement.Unifies bound nested)
    (actualWithin : env.Scopes bound actual) (within : env.Scopes bound id) :
    judgement.Yields bound fun fuel => (env.stage fuel).unifyValue (nested fuel) actual id := by
  refine Yields.bind (yields_count _) fun _ _ firstLarger _ => ?_
  refine Keeps.bind (keeps_value (within.grow firstLarger))
    fun later stored secondLarger meets => ?_
  have larger := Nat.le_trans firstLarger secondLarger
  have storedWithin := meets.grow (within.grow larger)
  cases stored with
  | typeVariable variable_ => exact yields_unifyVariable variable_ (actualWithin.grow larger)
  | genericClass class_ generics =>
    exact yields_unifyClass reads calls (unifies.grow larger) class_ storedWithin.2
      (actualWithin.grow larger)
  | special form generics =>
    exact yields_unifyForm reads calls matched (unifies.grow larger) form storedWithin
      meets.matching (actualWithin.grow larger)
  | _ => exact yields_noBindings

/-- Unification goes down to any level within the scope. -/
theorem yields_unifyWithin (levels : Nat) (hintWithin : env.Scopes bound hint)
    (actualWithin : env.Scopes bound actual) :
    judgement.Stages bound (·.unifyWithin levels hint actual) := by
  induction levels generalizing bound hint actual with
  | zero =>
    simp only [Stages, Engine.unifyWithin, Engine.levels, Environment.stage_toEnvironment]
    refine keeps_ite (fun _ => yields_noBindings) fun _ => ?_
    exact yields_emit_pure _ within_emptySubstitution
  | succ levels ih =>
    refine keeps_ite (fun _ => yields_noBindings) fun _ => ?_
    refine yields_mergeOver fun id member => ?_
    exact yields_unifyValue reads calls matched
      (fun _ _ _ _ hintWithin actualWithin => ih hintWithin actualWithin)
      actualWithin (hintWithin id member)

theorem yields_unify (hintWithin : env.Scopes bound hint) (actualWithin : env.Scopes bound actual) :
    judgement.Yields bound fun fuel => (env.stage fuel).unify hint actual :=
  yields_unifyWithin reads calls matched (env.settings.unificationDepthLimit + 1) hintWithin
    actualWithin

/-! ## Calls -/

omit reads calls matched in
theorem within_receiver? (within : env.Scopes bound arguments)
    (found : arguments.receiver? = some receiver) :
    env.Scopes bound receiver := by
  cases arguments with
  | bound own rest =>
    cases found
    exact within.1
  | written _ _ | values _ => cases found

omit matched in
/-- The annotation of a collecting parameter describes what is collected. -/
theorem yields_annotatedValues (kind : ParameterKind) (within : env.Scopes bound values) :
    judgement.Stages bound (·.annotatedValues kind values) := by
  have storedYields : ∀ id, env.Scopes bound id → judgement.Stages bound (·.storedValues id) := by
    intro id idWithin
    refine Yields.bind (yields_value idWithin) fun _ stored _ storedWithin => ?_
    cases stored with
    | packedDict entries =>
      exact yields_pure (within_unions
        (within_map _ fun entry member => (storedWithin entry member).2))
    | instanceOf class_ generics =>
      refine keeps_ite (fun _ => ?_) fun _ => yields_empty
      exact Yields.bind (yields_typeArguments reads storedWithin.2)
        fun _ _ _ argumentsWithin => yields_instances reads calls (within_slot argumentsWithin 1)
    | _ => exact yields_empty
  cases kind with
  | starred => exact yields_elementSet reads calls within
  | doubleStarred => exact yields_unionOver fun id member => storedYields id (within id member)
  | positional | keywordOnly => exact yields_pure within

omit calls matched in
/-- A receiver gives the type parameters of the class that owns its method. -/
theorem yields_receiverBindings (within : env.Scopes bound receiver)
    (owner : ClassId) : judgement.Stages bound (·.receiverBindings receiver owner) := by
  refine Yields.bind (yields_classOf within) fun _ found _ foundWithin => ?_
  cases found with
  | none => exact yields_noBindings
  | some class_ =>
    refine Yields.bind (yields_ancestor? reads (foundWithin class_ rfl) owner)
      fun _ ancestor _ ancestorWithin => ?_
    cases ancestor with
    | none => exact yields_noBindings
    | some ancestor => exact yields_classBindings reads (ancestorWithin ancestor rfl)

/-- An argument is resolved only if the annotation of its parameter has variables. -/
theorem yields_parameterBindings (declaration : FunctionDeclaration)
    (within : env.Scopes bound parameter) :
    judgement.Stages bound (·.parameterBindings declaration parameter) := by
  unfold Engine.parameterBindings
  cases (declaration.parameters[parameter.index]?).bind Parameter.hint with
  | none => exact yields_noBindings
  | some node =>
    refine Yields.bind (yields_readHint reads node) fun _ hint firstLarger hintWithin => ?_
    refine Yields.bind (yields_freeVariables reads hintWithin) fun second _ secondLarger _ => ?_
    refine keeps_ite (fun _ => yields_noBindings) fun _ => ?_
    have valueWithin := within.2.grow (Nat.le_trans firstLarger secondLarger)
    refine Yields.bind (yields_resolve reads parameter.value second valueWithin)
      fun _ values thirdLarger valuesWithin => ?_
    refine Yields.bind (yields_annotatedValues reads calls parameter.kind valuesWithin)
      fun _ _ fourthLarger actualWithin => ?_
    have larger := Nat.le_trans secondLarger (Nat.le_trans thirdLarger fourthLarger)
    exact yields_unify reads calls matched (hintWithin.grow larger) actualWithin

/-- The variables of a function are bound by its receiver and by its arguments. -/
theorem yields_inferVariables (functionWithin : env.Scopes bound function)
    (within : env.Scopes bound arguments) :
    judgement.Stages bound (·.inferVariables function arguments) := by
  refine Yields.bind (yields_functionDeclaration functionWithin)
    fun later declaration larger _ => ?_
  have finishes : ∀ moment (seed : Substitution), later ≤ moment →
      env.Scopes moment seed →
      judgement.Yields moment fun fuel => (do
        let parameters ← (env.stage fuel).bindQuietly function arguments
        let found ←
          mergeOver ((env.stage fuel).parameterBindings declaration) parameters
        emit (.variablesInferred declaration.name (seed.merge found))
        return seed.merge found : Inference Substitution) := by
    intro moment seed momentLarger seedWithin
    have momentLargest := Nat.le_trans larger momentLarger
    refine Yields.bind
      (yields_bindQuietly reads (functionWithin.grow momentLargest) (fun _ => calls)
        (within.grow momentLargest))
      fun afterBinding parameters firstLarger parametersWithin => ?_
    have foundYields : judgement.Yields afterBinding fun fuel =>
        mergeOver ((env.stage fuel).parameterBindings declaration) parameters :=
      yields_mergeOver fun parameter member =>
        yields_parameterBindings reads calls matched declaration (parametersWithin parameter member)
    refine Yields.bind foundYields fun _ found secondLarger foundWithin => ?_
    have mergedWithin := within_merge
      (seedWithin.grow (Nat.le_trans firstLarger secondLarger)) foundWithin
    exact Yields.bind (yields_emit _) fun _ _ largest _ => yields_pure (mergedWithin.grow largest)
  cases found : arguments.receiver? with
  | none => exact Yields.bind (yields_noBindings) finishes
  | some receiver =>
    cases declaration.owner with
    | none => exact Yields.bind (yields_noBindings) finishes
    | some owner =>
      have receiverWithin := (within_receiver? within found).grow larger
      exact Yields.bind (yields_receiverBindings reads receiverWithin owner) finishes

end Calling

end Judgement

end TypeInference
