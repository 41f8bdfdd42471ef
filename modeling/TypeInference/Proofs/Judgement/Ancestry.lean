import Mathlib.Data.List.Perm.Subperm
import TypeInference.Proofs.Judgement.Annotation

/-!
# Classes, ancestors and instances keep a request well formed

The class of a value is looked for no deeper than values nest, and the ancestors of
a class are visited no deeper than there are classes, so that neither search gives
up: a value refers to earlier values only, and a class is reached once.  Instances
are looked for down to the depth limit.
-/

namespace TypeInference

variable {id : ValueId} {set : TypeSet} {limit : Nat} {reached first : List Engine.Ancestor}
  {nested : Nat → TypeSet → Inference TypeSet} {classOf : ValueId → Inference (Option ValueId)}
  {stored : Value} {class_ : ClassId} {generics : Generics}

namespace Judgement

variable {env : Environment} {judgement : Judgement env} {bound : Nat}

open Inference

/-! ## Classes of values -/

/-- The classes of a set are those of its members. -/
theorem yields_classesWith (each : ∀ id ∈ set, judgement.Yields bound fun _ => classOf id) :
    judgement.Yields bound fun _ => Engine.classesWith classOf set := by
  refine yields_unionOver fun id member => ?_
  refine Yields.bind (each id member) fun _ found _ foundWithin => ?_
  cases found with
  | none => exact yields_empty
  | some class_ => exact yields_pure (within_singleton (foundWithin class_ rfl))

theorem yields_some_intern (within : env.Scopes bound stored) (plain : stored.isPlain = true) :
    judgement.Yields bound fun _ => (do return some (← intern stored) :
      Inference (Option ValueId)) :=
  (yields_intern within plain).map within_some

/-- The class of a value is made from parts that were interned before it. -/
theorem yields_classOfValue (limited : limit ≤ bound)
    (nested : ∀ later other, limit ≤ later → other.index < limit →
      judgement.Yields later fun _ => classOf other)
    (idWithin : env.Scopes bound id) (within : env.Scopes limit stored)
    (matching : stored.isCallable = true → judgement.Matching) :
    judgement.Yields bound fun _ => Engine.classOfValue classOf id stored := by
  refine keeps_of_world fun arena larger world => ?_
  have builtin : ∀ {class_ : ClassId}, class_.index ≤ Builtin.dict.index →
      env.Scopes arena.size class_ :=
    fun isBuiltin => within_builtin world.declared isBuiltin
  have builtinYields : ∀ class_ : ClassId, class_.index ≤ Builtin.dict.index →
      judgement.Yields arena.size fun _ => (do return some (← intern (.classObject class_)) :
        Inference (Option ValueId)) :=
    fun class_ isBuiltin => yields_some_intern (builtin isBuiltin) rfl
  have limitLarger : limit ≤ arena.size := Nat.le_trans limited larger
  have classesYield : ∀ later set, limit ≤ later → env.Scopes limit set →
      judgement.Yields later fun _ => Engine.classesWith classOf set :=
    fun later set largest setWithin =>
      yields_classesWith fun other member => nested later other largest (setWithin other member)
  cases stored with
  | instanceOf class_ generics =>
    refine keeps_ite (fun _ => ?_) fun _ => ?_
    · exact yields_some_intern within.1 rfl
    · exact yields_some_intern ⟨within.1, within.2.grow limitLarger⟩ rfl
  | tuple generics =>
    exact yields_some_intern ⟨builtin (by decide), Within.grow within limitLarger⟩ rfl
  | packedTuple items =>
    have slotsYield : judgement.Yields arena.size fun _ =>
        items.mapM (Engine.classesWith classOf) :=
      yields_mapM fun set member => classesYield arena.size set limitLarger (within set member)
    refine Yields.bind slotsYield fun _ slots _ slotsWithin => ?_
    exact yields_some_intern ⟨builtin (by decide), slotsWithin⟩ rfl
  | packedDict entries =>
    have keyYields : judgement.Yields arena.size fun _ => internSet (.classObject Builtin.str) :=
      yields_internSet (builtin (by decide)) rfl
    refine Yields.bind keyYields fun later key keyLarger keyWithin => ?_
    have valuesYield : judgement.Yields later fun _ =>
        unionOver (fun entry : String × TypeSet => Engine.classesWith classOf entry.2) entries :=
      yields_unionOver fun entry member =>
        classesYield later entry.2 (Nat.le_trans limitLarger keyLarger) (within entry member).2
    refine Yields.bind valuesYield fun _ values valuesLarger valuesWithin => ?_
    refine yields_some_intern ⟨builtin (by decide), ?_⟩ rfl
    exact within_cons.mpr ⟨keyWithin.grow valuesLarger, within_cons.mpr ⟨valuesWithin, within_nil⟩⟩
  | typedDict class_ => exact yields_some_intern within rfl
  | literal text => exact builtinYields Builtin.str (by decide)
  | callable generics =>
    have formYields : judgement.Yields arena.size fun _ => intern (.special .callable generics) :=
      yields_intern_of_invariant (Within.grow within limitLarger)
        (judgement.interned rfl fun _ => matching rfl)
    exact formYields.map within_some
  | function callee | overloaded functions | boundMethod callee receiver =>
    exact builtinYields Builtin.function (by decide)
  | classObject class_ | genericClass class_ generics =>
    exact builtinYields Builtin.type (by decide)
  | none | any => exact yields_pure (within_some (idWithin.grow larger))
  | typeVariable _ | special _ _ | typeList _ | exactly _ | ellipsis =>
    exact yields_pure within_none

/-- The search for the class of a value ends before its bound. -/
theorem yields_classOfWithin (below : id.index < limit) (within : env.Scopes bound id) :
    judgement.Yields bound fun _ => Engine.classOfWithin limit id := by
  induction limit generalizing bound id with
  | zero => omega
  | succ limit ih =>
    refine Keeps.bind (keeps_value within) fun later stored larger meets => ?_
    have idWithin := within.grow larger
    refine yields_classOfValue (Nat.le_of_lt idWithin) ?_ idWithin meets.within meets.matching
    intro final other largest otherBelow
    exact ih (by omega) (Nat.lt_of_lt_of_le otherBelow largest)

/-- A value has its class within the scope. -/
theorem yields_classOf (within : env.Scopes bound id) :
    judgement.Yields bound fun _ => Engine.classOf id :=
  yields_classOfWithin (Nat.lt_succ_self _) within

theorem yields_classesOf (within : env.Scopes bound set) :
    judgement.Yields bound fun _ => Engine.classesOf set :=
  yields_classesWith fun id member => yields_classOf (within id member)

/-! ## Ancestors -/

/--
Ancestors of which each class is reached once, and so many of them that visits that
nest as deeply as the limit allows would reach more classes than there are.  The first
ones are those from which the visit began.
-/
structure Reached (declarations : Declarations) (first : List Engine.Ancestor) (limit bound : Nat)
    (reached : List Engine.Ancestor) : Prop where
  within : Within declarations bound reached
  once : (reached.map Engine.Ancestor.class_).Nodup
  deep : declarations.classes.size < limit + reached.length
  begins : first <+: reached

namespace Reached

variable {declarations : Declarations} {limit bound later : Nat}
  {first reached : List Engine.Ancestor}

section

variable (reachedOnce : Reached declarations first limit bound reached)

include reachedOnce

theorem grow (larger : bound ≤ later) : Reached declarations first limit later reached :=
  ⟨reachedOnce.within.grow larger, reachedOnce.once, reachedOnce.deep, reachedOnce.begins⟩

theorem relax : Reached declarations first (limit + 1) bound reached :=
  ⟨reachedOnce.within, reachedOnce.once, by have := reachedOnce.deep; omega, reachedOnce.begins⟩

/-- There are at most as many ancestors as classes. -/
theorem length_le : reached.length ≤ declarations.classes.size := by
  have indicesOnce : ((reached.map Engine.Ancestor.class_).map ClassId.index).Nodup :=
    List.Pairwise.map ClassId.index
      (fun ⟨_⟩ ⟨_⟩ different same => different (congrArg ClassId.mk same)) reachedOnce.once
  have inRange : (reached.map Engine.Ancestor.class_).map ClassId.index ⊆
      List.range declarations.classes.size := by
    simp only [List.map_map]
    intro index member
    obtain ⟨ancestor, ancestorMember, rfl⟩ := List.mem_map.mp member
    exact List.mem_range.mpr (reachedOnce.within ancestor ancestorMember).1
  simpa using (List.subperm_of_subset indicesOnce inRange).length_le

/-- There is room for one more visit. -/
theorem limit_pos : 0 < limit := by
  have deep := reachedOnce.deep
  have length := reachedOnce.length_le
  omega

end

/-- A class that was not reached before is reached at the cost of one level. -/
theorem append (reachedOnce : Reached declarations first (limit + 1) bound reached)
    (within : Within declarations bound ancestor)
    (new : reached.any (fun other => other.class_ == ancestor.class_) = false) :
    Reached declarations first limit bound (reached ++ [ancestor]) where
  within := within_append.mpr ⟨reachedOnce.within, within_cons.mpr ⟨within, within_nil⟩⟩
  once := by
    rw [List.map_append, List.nodup_append]
    refine ⟨reachedOnce.once, by simp, ?_⟩
    intro class_ member last lastMember same
    obtain ⟨other, otherMember, rfl⟩ := List.mem_map.mp member
    rw [List.any_eq_false] at new
    refine new other otherMember ?_
    rw [same, List.mem_singleton.mp lastMember]
    simp
  deep := by
    have deep := reachedOnce.deep
    rw [List.length_append, List.length_singleton]
    omega
  begins := reachedOnce.begins.trans (List.prefix_append _ _)

end Reached

variable (reads : judgement.Reads)

include reads

/-- The bases of a class are visited one after another. -/
theorem keeps_visitBases
    {visit : Nat → List Engine.Ancestor → ValueId → Inference (List Engine.Ancestor)}
    (visitKept : ∀ later reached id, Reached env.declarations first limit later reached →
      env.Scopes later id →
      judgement.Keeps later (fun fuel => visit fuel reached id)
        (Reached env.declarations first limit))
    (reachedOnce : Reached env.declarations first limit bound reached)
    (classWithin : env.Scopes bound class_) (idWithin : env.Scopes bound id) :
    judgement.Keeps bound
      (fun fuel => (env.stage fuel).visitBases (visit fuel) reached class_ id)
      (Reached env.declarations first limit) := by
  refine Yields.bind (yields_classBindings reads idWithin)
    fun _ bindings firstLarger bindingsWithin => ?_
  refine Yields.bind (yields_classDeclaration classWithin)
    fun later declaration secondLarger declarationWithin => ?_
  have basesWithin := declarationWithin.bases
  refine keeps_foldlM (fun larger reachedOnce => reachedOnce.grow larger)
    (reachedOnce.grow (Nat.le_trans firstLarger secondLarger)) ?_
  intro base baseMember moment reached larger reachedOnce
  refine Yields.bind
    (yields_substitute reads ((basesWithin base baseMember).grow larger)
      (bindingsWithin.grow (Nat.le_trans secondLarger larger)))
    fun _ parents parentsLarger parentsWithin => ?_
  refine keeps_foldlM (fun larger reachedOnce => reachedOnce.grow larger)
    (reachedOnce.grow parentsLarger) ?_
  intro parent parentMember final reached largest reachedOnce
  exact visitKept final reached parent reachedOnce
    ((parentsWithin parent parentMember).grow largest)

/-- The visit of ancestors ends before its bound. -/
theorem keeps_visitWithin (limit : Nat)
    (reachedOnce : Reached env.declarations first limit bound reached)
    (within : env.Scopes bound id) :
    judgement.Keeps bound
      (fun fuel => (env.stage fuel).visitWithin limit reached id)
      (Reached env.declarations first limit) := by
  induction limit generalizing bound reached id with
  | zero => exact absurd reachedOnce.limit_pos (Nat.lt_irrefl 0)
  | succ limit ih =>
    refine Yields.bind (yields_value within) fun later stored larger storedWithin => ?_
    have stays : judgement.Keeps later (fun _ => pure reached)
        (Reached env.declarations first (limit + 1)) :=
      keeps_pure fun _ largest => reachedOnce.grow (Nat.le_trans larger largest)
    cases found : stored.class? with
    | none => exact stays
    | some class_ =>
      have classWithin := within_class? storedWithin found
      refine keeps_ite (fun _ => stays) fun new => ?_
      have idWithin := within.grow larger
      have appended := (reachedOnce.grow larger).append
        (show env.Scopes later (⟨class_, id⟩ : Engine.Ancestor) from
          ⟨classWithin, idWithin⟩)
        (Bool.eq_false_iff.mpr new)
      refine Keeps.imp
        (keeps_visitBases reads (fun _ _ _ reachedOnce => ih reachedOnce)
          appended classWithin idWithin)
        fun _ _ _ reachedOnce => reachedOnce.relax

section

variable (within : env.Scopes bound id)

include within

/-- The ancestors of a class are within the scope, and the bound on visits is enough. -/
theorem yields_ancestors : judgement.Stages bound (·.ancestors id) := by
  have start : Reached env.declarations [] (env.declarations.classes.size + 1) bound [] :=
    ⟨within_nil, List.nodup_nil, by simp, List.prefix_rfl⟩
  exact (keeps_visitWithin reads _ start within).imp fun _ _ _ reachedOnce => reachedOnce.within

theorem yields_resolutionOrder : judgement.Stages bound (·.resolutionOrder id) :=
  (yields_ancestors reads within).map fun reachedWithin =>
    within_map _ fun ancestor member => (reachedWithin ancestor member).2

theorem yields_ancestor? (class_ : ClassId) : judgement.Stages bound (·.ancestor? id class_) := by
  refine Yields.bind (yields_ancestors reads within) fun _ reached _ reachedWithin => ?_
  refine yields_pure fun value found => ?_
  obtain ⟨ancestor, present, rfl⟩ := Option.map_eq_some_iff.mp found
  exact (reachedWithin ancestor (List.mem_of_find?_eq_some present)).2

theorem yields_isSubclass (class_ : ClassId) : judgement.Stages bound (·.isSubclass id class_) :=
  (yields_ancestor? reads within class_).map fun _ => trivial

end

omit reads in
/-- A member is declared by one of the ancestors. -/
theorem yields_firstMember (within : env.Scopes bound reached) (name : String) :
    judgement.Stages bound (·.firstMember name reached) := by
  induction reached generalizing bound with
  | nil => exact yields_pure within_none
  | cons ancestor rest ih =>
    replace within := within_cons.mp within
    refine Yields.bind (yields_classDeclaration within.1.1)
      fun _ declaration larger declarationWithin => ?_
    cases found : declaration.member? name with
    | none => exact ih (within.2.grow larger)
    | some member =>
      exact yields_pure
        (within_some ⟨within.1.2.grow larger, within_member? declarationWithin found⟩)

theorem yields_lookUpMember (within : env.Scopes bound id) (name : String) :
    judgement.Stages bound (·.lookUpMember id name) :=
  Yields.bind (yields_ancestors reads within) fun _ _ _ reachedWithin =>
    yields_firstMember reachedWithin name

/-! ## Instances -/

omit reads in
/-- A class has an instance within the scope, of the kind that it declares. -/
theorem yields_instantiate (classWithin : env.Scopes bound class_)
    (within : env.Scopes bound generics) :
    judgement.Stages bound (·.instantiate class_ generics) := by
  refine keeps_ite (fun _ => yields_internSet within rfl) fun _ => ?_
  refine Yields.bind (yields_classDeclaration classWithin) fun _ declaration larger _ => ?_
  refine keeps_ite (fun _ => yields_internSet classWithin rfl) fun _ => ?_
  exact yields_internSet ⟨classWithin, within.grow larger⟩ rfl

/-- Each typing form has instances within the scope if nested annotations do. -/
theorem yields_formInstances (nestedYields : judgement.YieldsFor bound nested) (form : SpecialForm)
    (within : env.Scopes bound generics)
    (matching : (Value.special form generics).isCallable = true → judgement.Matching) :
    judgement.Yields bound fun fuel =>
      (env.stage fuel).formInstances (nested fuel) form generics := by
  have argumentsYield := yields_typeArguments reads within
  have slotsYield : ∀ later, bound ≤ later → ∀ arguments : TypeArguments,
      env.Scopes later arguments →
      judgement.Yields later fun fuel => unionOver (nested fuel) arguments.slots :=
    fun later larger arguments argumentsWithin => yields_unionOver fun slot member =>
      nestedYields later slot larger (argumentsWithin slot member)
  cases form with
  | union =>
    exact Yields.bind argumentsYield fun later arguments larger argumentsWithin =>
      slotsYield later larger arguments argumentsWithin
  | optional =>
    refine Yields.bind argumentsYield fun later arguments larger argumentsWithin => ?_
    refine Yields.bind (slotsYield later larger arguments argumentsWithin)
      fun _ present _ presentWithin => ?_
    refine keeps_of_world fun arena largest world => yields_pure ?_
    exact within_insert (Arena.lt_size_of_get? world.noneStored) (presentWithin.grow largest)
  | type =>
    exact argumentsYield.map fun argumentsWithin => within_slot argumentsWithin 0
  | classVar =>
    exact Yields.bind argumentsYield fun later _ larger argumentsWithin =>
      nestedYields later _ larger (within_slot argumentsWithin 0)
  | callable => exact yields_internSet_of_matching within rfl fun _ => matching rfl
  | tuple => exact yields_internSet within rfl

omit reads in
/-- A variable has the instances of what it falls back on. -/
theorem yields_variableInstances (nestedYields : judgement.YieldsFor bound nested)
    (variable_ : TypeVariableId) :
    judgement.Yields bound fun fuel =>
      (env.stage fuel).variableInstances (nested fuel) variable_ := by
  simp only [Engine.variableInstances, Environment.stage_toEnvironment]
  refine keeps_of_world fun arena larger world => ?_
  have fallbackWithin := within_fallback world.declared variable_
  refine keeps_ite (fun _ => ?_) fun _ => ?_
  · exact yields_emit_pure _ within_empty
  · exact nestedYields arena.size _ larger fallbackWithin

variable (calls : judgement.Calls)

include calls

/-- Only functions have to be called for their instances. -/
theorem yields_valueInstances (nestedYields : judgement.YieldsFor bound nested)
    (within : env.Scopes bound id) :
    judgement.Yields bound fun fuel => (env.stage fuel).valueInstances (nested fuel) id := by
  refine Keeps.bind (keeps_value within) fun later stored larger meets => ?_
  have idWithin := within.grow larger
  have storedWithin := meets.grow idWithin
  cases stored with
  | classObject class_ => exact yields_instantiate storedWithin within_nil
  | genericClass class_ generics => exact yields_instantiate storedWithin.1 storedWithin.2
  | typeVariable variable_ => exact yields_variableInstances (nestedYields.grow larger) variable_
  | special form generics =>
    exact yields_formInstances reads (nestedYields.grow larger) form storedWithin meets.matching
  | exactly described => exact yields_pure (within_singleton storedWithin)
  | function callee | overloaded functions | boundMethod callee receiver =>
    exact calls later id idWithin (meets.callee rfl)
  | any => exact yields_emit_pure _ within_empty
  | typeList _ | ellipsis | literal _ => exact yields_empty
  | instanceOf _ _ | tuple _ | callable _ | packedTuple _ | packedDict _ | typedDict _ | none =>
    exact yields_pure (within_singleton idWithin)

/-- Instances are found down to any level. -/
theorem yields_instancesWithin (levels : Nat) (within : env.Scopes bound set) :
    judgement.Stages bound (·.instancesWithin levels set) := by
  induction levels generalizing bound set with
  | zero =>
    simp only [Stages, Engine.instancesWithin, Engine.levels, Environment.stage_toEnvironment]
    exact yields_emit_pure _ within_empty
  | succ levels ih =>
    refine yields_unionOver fun id member => ?_
    exact yields_valueInstances reads calls (fun _ _ _ setWithin => ih setWithin) (within id member)

theorem yields_instances (within : env.Scopes bound set) :
    judgement.Stages bound (·.instances set) :=
  yields_instancesWithin reads calls (env.settings.unificationDepthLimit + 1) within

omit reads calls in
/-- What a parameter collects is wrapped in a tuple or a dictionary. -/
theorem yields_collected (kind : ParameterKind) (within : env.Scopes bound values) :
    judgement.Yields bound fun _ => Engine.collected kind values := by
  refine keeps_of_world fun arena larger world => ?_
  have valuesWithin := within.grow larger
  have elementWithin : env.Scopes arena.size [values] := within_cons.mpr ⟨valuesWithin, within_nil⟩
  cases kind with
  | starred =>
    exact yields_internSet ⟨within_builtin world.declared (by decide), elementWithin⟩ rfl
  | doubleStarred =>
    have strWithin : env.Scopes arena.size (Value.classObject Builtin.str) :=
      within_builtin world.declared (by decide)
    refine Yields.bind (yields_internSet strWithin rfl) fun _ key largest keyWithin => ?_
    have slotsWithin := within_cons.mpr ⟨keyWithin, elementWithin.grow largest⟩
    exact yields_internSet
      ⟨(within_builtin world.declared (by decide)).grow largest, slotsWithin⟩ rfl
  | positional | keywordOnly => exact yields_pure valuesWithin

/-- The type of a parameter is within the scope, be it annotated or not. -/
theorem yields_parameterType (within : env.Scopes bound function) (index : Nat) :
    judgement.Stages bound (·.parameterType function index) := by
  refine Yields.bind (yields_functionDeclaration within) fun _ declaration _ _ => ?_
  cases declaration.parameters[index]? with
  | none => exact yields_empty
  | some parameter =>
    dsimp only
    cases parameter.hint with
    | none => exact yields_empty
    | some node =>
      refine Yields.bind (yields_readHint reads node) fun _ values _ valuesWithin => ?_
      refine keeps_ite (fun _ => yields_empty) fun _ => ?_
      exact Yields.bind (yields_collected parameter.kind valuesWithin) fun _ _ _ setWithin =>
        yields_instances reads calls setWithin

end Judgement

end TypeInference
