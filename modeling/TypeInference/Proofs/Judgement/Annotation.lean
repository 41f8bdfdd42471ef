import TypeInference.Proofs.Judgement

/-!
# Annotations keep a request well formed

Reading annotations, looking into type arguments, walking to ancestors and finding
instances all stay within the scope, given that the questions put to the engine do:
for the inference of a node, a name or a body, and for a call without arguments.
-/

namespace TypeInference

variable {set : TypeSet} {slots : List TypeSet} {id : ValueId}
  {nested : Nat → TypeSet → Inference TypeSet} {substitution : Substitution} {generics : Generics}

@[simp] theorem Environment.stage_toEnvironment (env : Environment) (fuel : Nat) :
    (env.stage fuel).toEnvironment = env := rfl

namespace Judgement

variable {env : Environment} {judgement : Judgement env}

/-- The nodes and names of the tree are inferred within the scope. -/
structure Reads (judgement : Judgement env) : Prop where
  node : ∀ bound node,
    judgement.Yields bound fun fuel => (env.stage fuel).inferNode node
  name : ∀ bound name,
    judgement.Yields bound fun fuel =>
      (env.stage fuel).runProgram (env.provider.resolveName name)

/-- Functions that are called without arguments answer within the scope. -/
def Calls (judgement : Judgement env) : Prop :=
  ∀ bound id, Within env.declarations bound id → judgement.Callee id →
    judgement.Yields bound fun fuel => (env.stage fuel).execute (.singleton id) .empty

/-- If there are callables, then everything that is called without arguments does. -/
def Matches (judgement : Judgement env) : Prop :=
  judgement.Matching → ∀ bound set, Within env.declarations bound set →
    judgement.Yields bound fun fuel => (env.stage fuel).execute set .empty

variable (reads : judgement.Reads) {bound : Nat}

open Inference

/-! ## Annotation nodes -/

/-- A literal is told by a single value, which is within the scope. -/
theorem yields_literal? (within : env.Scopes bound set) :
    judgement.Yields bound fun _ => Engine.literal? set := by
  unfold Engine.literal?
  cases only : set.single? with
  | none => exact yields_pure within_none
  | some id =>
    refine Yields.bind (yields_value (within_single? within only)) fun _ stored _ _ => ?_
    cases stored with
    | literal text => exact yields_pure (within_some trivial)
    | _ => exact yields_pure within_none

include reads

/-- What a reference stands for is inferred within the scope, or nothing. -/
theorem yields_followReference (node : NodeId) (source : String) :
    judgement.Stages bound (·.followReference node source) := by
  simp only [Stages, Engine.followReference, Environment.stage_toEnvironment]
  cases env.provider.forwardReference? source with
  | some target => exact reads.node bound target
  | none =>
    refine Yields.bind (reads.name bound _) fun _ resolved _ resolvedWithin => ?_
    refine keeps_ite (fun _ => ?_) fun _ => yields_pure resolvedWithin
    exact Yields.bind (yields_emit _) fun _ _ larger _ => yields_pure (resolvedWithin.grow larger)

/-- An annotation is read within the scope, be it remembered or evaluated. -/
theorem yields_readHint (node : NodeId) : judgement.Stages bound (·.readHint node) := by
  refine Keeps.bind keeps_get fun moment state _ seen => ?_
  obtain ⟨wellFormed, momentLarger⟩ := seen
  cases cached : state.hints.get? node with
  | some known => exact yields_pure ((wellFormed.hints node known cached).grow momentLarger)
  | none =>
    refine Yields.bind (reads.node moment node) fun _ values _ valuesWithin => ?_
    refine Yields.bind (yields_literal? valuesWithin) fun followed source larger _ => ?_
    have remembers : ∀ later result, env.Scopes later result →
        judgement.Yields later fun _ => (do
          modify fun state => { state with hints := state.hints.insert node result }
          return result : Inference TypeSet) := by
      intro later result within
      have remembered : judgement.Yields later fun _ =>
          (modify fun state => { state with hints := state.hints.insert node result } :
            Inference Unit) :=
        yields_modify fun _ admitted larger =>
          ⟨⟨admitted.wellFormed.rememberHint (within.grow larger) node, admitted.invariant⟩, rfl⟩
      exact Yields.bind remembered fun _ _ larger _ => yields_pure (within.grow larger)
    cases source with
    | some source =>
      exact Yields.bind (yields_followReference reads node source)
        fun later result _ within => remembers later result within
    | none =>
      exact Yields.bind (yields_pure (valuesWithin.grow larger))
        fun later result _ within => remembers later result within

omit reads in
theorem within_ofSubscript (within : env.Scopes bound slots) :
    env.Scopes bound (TypeArguments.ofSubscript slots) := by
  unfold TypeArguments.ofSubscript
  split
  · rename_i element marker
    split
    · exact within_cons.mpr ⟨(within_cons.mp within).1, within_nil⟩
    · exact within
  · exact within

/-- Type arguments are within the scope, be they resolved or lazy. -/
theorem yields_typeArguments (within : env.Scopes bound generics) :
    judgement.Stages bound (·.typeArguments generics) := by
  cases generics with
  | resolved arguments => exact yields_pure within
  | lazy node =>
    refine Keeps.bind keeps_get fun moment state _ seen => ?_
    obtain ⟨wellFormed, momentLarger⟩ := seen
    cases cached : state.subscripts.get? node with
    | some known =>
      exact yields_pure ((wellFormed.subscripts node known cached).grow momentLarger)
    | none =>
      have slotsYield : judgement.Yields moment fun fuel =>
          ((env.provider.subscript? node).getD [node]).mapM (env.stage fuel).readHint :=
        yields_mapM fun element _ => yields_readHint reads element
      refine Yields.bind slotsYield fun _ slots _ slotsWithin => ?_
      have argumentsWithin := within_ofSubscript slotsWithin
      refine Yields.bind (yields_emit _) fun _ _ larger _ => ?_
      have remembers : judgement.Yields _ fun _ =>
          (modify fun state =>
            { state with
              subscripts := state.subscripts.insert node (TypeArguments.ofSubscript slots) } :
            Inference Unit) :=
        yields_modify fun _ admitted largest =>
          ⟨⟨admitted.wellFormed.rememberSubscript
            (argumentsWithin.grow (Nat.le_trans larger largest)) node, admitted.invariant⟩, rfl⟩
      exact Yields.bind remembers fun _ _ largest _ =>
        yields_pure (argumentsWithin.grow (Nat.le_trans larger largest))

/-! ## Type variables -/

theorem yields_collectValue
    {nested : Nat → List TypeVariableId → TypeSet → Inference (List TypeVariableId)}
    (nestedYields : ∀ later found set, env.Scopes later set →
      judgement.Yields later fun fuel => nested fuel found set)
    (found : List TypeVariableId) (within : env.Scopes bound id) :
    judgement.Yields bound fun fuel => (env.stage fuel).collectValue (nested fuel) found id := by
  have slotsYield : ∀ later found, ∀ slots : List TypeSet,
      env.Scopes later slots →
      judgement.Yields later fun fuel => slots.foldlM (nested fuel) found := by
    intro later found slots slotsWithin
    refine keeps_foldlM (fun larger within => within.grow larger) (fun _ _ => trivial) ?_
    intro slot member final found larger _
    exact nestedYields final found slot ((slotsWithin slot member).grow larger)
  refine Yields.bind (yields_value within) fun later stored _ storedWithin => ?_
  cases stored with
  | genericClass class_ generics =>
    exact Yields.bind (yields_typeArguments reads storedWithin.2)
      fun _ arguments _ argumentsWithin => slotsYield _ found _ argumentsWithin
  | special form generics =>
    exact Yields.bind (yields_typeArguments reads storedWithin)
      fun _ arguments _ argumentsWithin => slotsYield _ found _ argumentsWithin
  | typeList items => exact slotsYield later found items storedWithin
  | _ => exact yields_pure fun _ _ => trivial

/-- Variables are collected down to any level. -/
theorem yields_collectWithin (levels : Nat) (found : List TypeVariableId)
    (within : env.Scopes bound set) :
    judgement.Stages bound (·.collectWithin levels found set) := by
  induction levels generalizing bound found set with
  | zero => exact yields_pure fun _ _ => trivial
  | succ levels ih =>
    refine keeps_foldlM (fun larger within => within.grow larger) (fun _ _ => trivial) ?_
    intro id member later found larger _
    exact yields_collectValue reads
      (fun _ found _ setWithin => ih found setWithin) found
      ((within id member).grow larger)

theorem yields_freeVariables (within : env.Scopes bound set) :
    judgement.Stages bound (·.freeVariables set) :=
  yields_collectWithin reads (env.settings.unificationDepthLimit + 1) [] within

omit reads in
/-- Slots are replaced within the scope, and left alone if nothing changes. -/
theorem yields_substituteSlots (nestedYields : judgement.YieldsFor bound nested)
    (within : env.Scopes bound slots) :
    judgement.Yields bound fun fuel => Engine.substituteSlots (nested fuel) slots := by
  have replacedYields : judgement.Yields bound fun fuel => slots.mapM (nested fuel) :=
    yields_mapM fun slot member => nestedYields bound slot (Nat.le_refl _) (within slot member)
  refine Yields.bind replacedYields fun _ replaced _ replacedWithin => ?_
  by_cases same : replaced = slots
  · simp only [if_pos same]
    exact yields_pure within_none
  · simp only [if_neg same]
    exact yields_pure (within_some replacedWithin)

theorem yields_substituteGenerics (nestedYields : judgement.YieldsFor bound nested)
    (within : env.Scopes bound generics) :
    judgement.Yields bound fun fuel =>
      (env.stage fuel).substituteGenerics (nested fuel) generics := by
  refine Yields.bind (yields_typeArguments reads within)
    fun _ arguments larger argumentsWithin => ?_
  refine Yields.bind (yields_substituteSlots (nestedYields.grow larger) argumentsWithin)
    fun _ replaced _ replacedWithin => ?_
  cases replaced with
  | none => exact yields_pure within_none
  | some slots => exact yields_pure (within_some (replacedWithin slots rfl))

/-- A value is put together again from parts within the scope. -/
theorem yields_substituteValue (nestedYields : judgement.YieldsFor bound nested)
    (substitutionWithin : env.Scopes bound substitution) (within : env.Scopes bound id) :
    judgement.Yields bound fun fuel =>
      (env.stage fuel).substituteValue substitution (nested fuel) id := by
  have internedYields : ∀ later stored, env.Scopes later stored →
      stored.isFunction = false → (stored.isCallable = true → judgement.Matching) →
      judgement.Yields later fun _ => (do return some (← internSet stored) :
        Inference (Option TypeSet)) :=
    fun later stored storedWithin noFunction matching =>
      (yields_internSet_of_matching storedWithin noFunction matching).map within_some
  refine Keeps.bind (keeps_value within) fun later stored larger meets => ?_
  have storedWithin := meets.grow (within.grow larger)
  cases stored with
  | typeVariable variable_ =>
    simp only [Environment.stage_toEnvironment]
    refine keeps_of_world fun arena largest world => yields_pure ?_
    intro answer found
    obtain ⟨set, bindingFound, rfl⟩ := Option.map_eq_some_iff.mp found
    have setWithin := within_substitution_get? substitutionWithin bindingFound
    exact within_narrow world.declared (setWithin.grow (Nat.le_trans larger largest)) _ _
  | genericClass class_ generics =>
    refine Yields.bind (yields_substituteGenerics reads (nestedYields.grow larger) storedWithin.2)
      fun _ replaced _ replacedWithin => ?_
    cases replaced with
    | none => exact yields_pure within_none
    | some replaced =>
      exact internedYields _ _ ⟨storedWithin.1, replacedWithin replaced rfl⟩ rfl nofun
  | special form generics =>
    refine Yields.bind (yields_substituteGenerics reads (nestedYields.grow larger) storedWithin)
      fun _ replaced _ replacedWithin => ?_
    cases replaced with
    | none => exact yields_pure within_none
    | some replaced =>
      refine internedYields _ _ (replacedWithin replaced rfl) rfl fun callable => ?_
      cases form with
      | callable => exact meets.matching rfl
      | _ => cases callable
  | typeList items =>
    refine Yields.bind (yields_substituteSlots (nestedYields.grow larger) storedWithin)
      fun _ replaced _ replacedWithin => ?_
    cases replaced with
    | none => exact yields_pure within_none
    | some replaced => exact internedYields _ _ (replacedWithin replaced rfl) rfl nofun
  | _ => exact yields_pure within_none

/-- Variables are replaced down to any level. -/
theorem yields_substituteWithin (substitutionWithin : env.Scopes bound substitution)
    (levels : Nat) (within : env.Scopes bound set) :
    judgement.Stages bound (·.substituteWithin substitution levels set) := by
  induction levels generalizing bound set with
  | zero => exact yields_pure within
  | succ levels ih =>
    have nestedYields : judgement.YieldsFor bound fun fuel =>
        (env.stage fuel).substituteWithin substitution levels :=
      fun _ _ larger setWithin => ih (substitutionWithin.grow larger) setWithin
    refine yields_unionOver fun id member => ?_
    refine Yields.bind
      (yields_substituteValue reads nestedYields substitutionWithin (within id member))
      fun _ replaced larger replacedWithin => ?_
    cases replaced with
    | none => exact yields_pure (within_singleton ((within id member).grow larger))
    | some replaced => exact yields_pure (replacedWithin replaced rfl)

/-- Replacing variables leads from sets within the scope to others. -/
theorem yields_substitute (within : env.Scopes bound set)
    (substitutionWithin : env.Scopes bound substitution) :
    judgement.Stages bound (·.substitute set substitution) := by
  refine keeps_ite (fun _ => yields_pure within) fun _ => ?_
  exact yields_substituteWithin reads substitutionWithin
    (env.settings.unificationDepthLimit + 1) within

omit reads in
/-- Variables are bound to slots within the scope. -/
theorem within_zipWith_typeBinding (within : env.Scopes bound slots)
    (typeVariables : List TypeVariableId) :
    env.Scopes bound (List.zipWith TypeBinding.mk typeVariables slots) := by
  induction typeVariables generalizing slots with
  | nil => exact within_nil
  | cons variable_ typeVariables ih =>
    cases slots with
    | nil => exact within_nil
    | cons slot slots =>
      replace within := within_cons.mp within
      exact within_cons.mpr ⟨within.1, ih within.2⟩

/-- A class is given sets within the scope for its type parameters. -/
theorem yields_classBindings (within : env.Scopes bound id) :
    judgement.Stages bound (·.classBindings id) := by
  refine Yields.bind (yields_value within) fun later stored _ storedWithin => ?_
  cases stored with
  | genericClass class_ generics =>
    refine Yields.bind (yields_typeArguments reads storedWithin.2)
      fun _ arguments _ argumentsWithin => ?_
    refine Yields.bind (yields_classDeclaration storedWithin.1) fun _ declaration larger _ => ?_
    exact yields_pure (within_ofList (within_zipWith_typeBinding (argumentsWithin.grow larger) _))
  | _ => exact yields_noBindings

end Judgement

end TypeInference
