import TypeInference.Proofs.Pairing

/-!
# Paired walks through annotations

Variables, classes, ancestors, instances, attributes and items: the operations that
neither make deferred values nor call functions go together with themselves.
-/

namespace TypeInference

variable {classOf : ValueId → Inference (Option ValueId)}

namespace Pairing

open Inference

variable {engine : Engine} {pairing : Pairing engine}

/-! ## Type variables -/

/-- Both runs look for variables in the same slots, in the same order. -/
theorem fits_collectWithin (levels : Nat) (found : List TypeVariableId) (set : TypeSet) :
    pairing.Both (·.collectWithin levels found set) := by
  induction levels generalizing found set with
  | zero => exact fits_pure found
  | succ levels ih =>
    refine fits_foldlM (fun found id => ?_) set.members found
    refine (fits_value id).bind fun stored => ?_
    cases stored with
    | genericClass | special =>
      exact (fits_typeArguments _).bind fun arguments => fits_foldlM ih arguments.slots found
    | typeList items => exact fits_foldlM ih items found
    | _ => exact fits_pure _

/-- An annotation mentions the same type variables in both runs. -/
theorem fits_freeVariables (set : TypeSet) : pairing.Both (·.freeVariables set) :=
  fits_collectWithin engine.levels [] set

section Substitution

variable {nested nestedOther : TypeSet → Inference TypeSet}
  (nestedFits : ∀ set, pairing.Fits (nested set) (nestedOther set))

include nestedFits

/-- Slots are replaced one by one, and either run tells whether one of them changed. -/
theorem fits_substituteSlots (slots : List TypeSet) :
    pairing.Fits (Engine.substituteSlots nested slots) (Engine.substituteSlots nestedOther slots) :=
  (fits_mapM nestedFits slots).map

/-- Type arguments are read in both runs before they are replaced. -/
theorem fits_substituteGenerics (generics : Generics) :
    pairing.Fits (engine.substituteGenerics nested generics)
      (pairing.other.substituteGenerics nestedOther generics) := by
  refine (fits_typeArguments generics).bind fun arguments => ?_
  refine (fits_substituteSlots nestedFits arguments.slots).bind fun replaced => ?_
  cases replaced <;> exact fits_pure _

/-- A value is put together again in both runs if one of its parts was replaced. -/
theorem fits_substituteValue (substitution : Substitution) (id : ValueId) :
    pairing.Fits (engine.substituteValue substitution nested id)
      (pairing.other.substituteValue substitution nestedOther id) := by
  refine (fits_value id).bind fun stored => ?_
  cases stored with
  | genericClass | special =>
    refine (fits_substituteGenerics nestedFits _).bind fun replaced => ?_
    cases replaced with
    | none => exact fits_pure none
    | some replaced => exact (fits_internSet _).map
  | typeList items =>
    refine (fits_substituteSlots nestedFits items).bind fun replaced => ?_
    cases replaced with
    | none => exact fits_pure none
    | some replaced => exact (fits_internSet _).map
  | _ => exact fits_pure _

end Substitution

/-- Replacing goes down the same levels, and both runs stop at the last. -/
theorem fits_substituteWithin (substitution : Substitution) (levels : Nat) (set : TypeSet) :
    pairing.Both (·.substituteWithin substitution levels set) := by
  induction levels generalizing set with
  | zero => exact fits_pure set
  | succ levels ih =>
    refine fits_unionOver (fun id => ?_) set.members
    exact (fits_substituteValue ih substitution id).map

/-- A set is replaced alike; without bindings both runs leave it as it is. -/
theorem fits_substitute (set : TypeSet) (substitution : Substitution) :
    pairing.Both (·.substitute set substitution) :=
  fits_ite (fits_pure set) (fits_substituteWithin substitution engine.levels set)

/-- A class is given the same for its type parameters. -/
theorem fits_classBindings (id : ValueId) : pairing.Both (·.classBindings id) := by
  refine (fits_value id).bind fun stored => ?_
  cases stored with
  | genericClass class_ generics =>
    exact (fits_typeArguments generics).bind fun _ => (fits_classDeclaration class_).map
  | _ => exact fits_pure ∅

/-! ## Classes of values -/

/-- The classes of a set are found member by member. -/
theorem fits_classesWith (each : ∀ id, pairing.Fits (classOf id) (classOf id)) (set : TypeSet) :
    pairing.Fits (Engine.classesWith classOf set) (Engine.classesWith classOf set) := by
  refine fits_unionOver (fun id => (each id).bind fun class? => ?_) set.members
  cases class? <;> exact fits_pure _

/-- The class of a value, where those of its parts are found alike. -/
theorem fits_classOfValue (each : ∀ id, pairing.Fits (classOf id) (classOf id)) (id : ValueId)
    (stored : Value) :
    pairing.Fits (Engine.classOfValue classOf id stored)
      (Engine.classOfValue classOf id stored) := by
  have interned (value : Value) :
      pairing.Fits (intern value >>= fun class_ => Pure.pure (some class_))
        (intern value >>= fun class_ => Pure.pure (some class_)) :=
    (fits_intern value).map
  cases stored with
  | instanceOf class_ generics => exact fits_ite (interned _) (interned _)
  | packedTuple items =>
    exact (fits_mapM (fits_classesWith each) items).bind fun _ => interned _
  | packedDict entries =>
    refine (fits_internSet _).bind fun key => ?_
    exact (fits_unionOver (fun entry => fits_classesWith each entry.2) entries).bind
      fun _ => interned _
  | tuple | typedDict | literal | callable | function | overloaded | boundMethod | classObject
  | genericClass => exact interned _
  | none | any | typeVariable | special | typeList | exactly | ellipsis => exact fits_pure _

/-- Parts are older than what they are part of, so that both runs find the classes in turn. -/
theorem fits_classOfWithin (bound : Nat) (id : ValueId) :
    pairing.Fits (Engine.classOfWithin bound id) (Engine.classOfWithin bound id) := by
  induction bound generalizing id with
  | zero => exact fits_throw _
  | succ bound ih =>
    exact (fits_value id).bind fun stored => fits_classOfValue ih id stored

theorem fits_classOf (id : ValueId) : pairing.Fits (Engine.classOf id) (Engine.classOf id) :=
  fits_classOfWithin (id.index + 1) id

/-- A set has the same classes in both runs. -/
theorem fits_classesOf (set : TypeSet) : pairing.Fits (Engine.classesOf set)
  (Engine.classesOf set) :=
  fits_classesWith fits_classOf set

/-! ## Ancestors -/

/-- Both runs visit the bases of a class in the order that they are declared in. -/
theorem fits_visitWithin (bound : Nat) (reached : List Engine.Ancestor) (id : ValueId) :
    pairing.Both (·.visitWithin bound reached id) := by
  induction bound generalizing reached id with
  | zero => exact fits_throw _
  | succ bound ih =>
    refine (fits_value id).bind fun stored => ?_
    cases stored.class? with
    | none => exact fits_pure reached
    | some class_ =>
      refine fits_ite (fits_pure reached) ?_
      refine (fits_classBindings id).bind fun bindings => ?_
      refine (fits_classDeclaration class_).bind fun declaration => ?_
      refine fits_foldlM (fun reached base => ?_) declaration.bases _
      exact (fits_substitute base bindings).bind fun parents =>
        fits_foldlM ih parents.members reached

/-- A class has the same ancestors in both runs. -/
theorem fits_ancestors (id : ValueId) : pairing.Both (·.ancestors id) :=
  fits_visitWithin (engine.declarations.classes.size + 1) [] id

theorem fits_resolutionOrder (id : ValueId) : pairing.Both (·.resolutionOrder id) :=
  (fits_ancestors id).map

theorem fits_ancestor? (id : ValueId) (class_ : ClassId) : pairing.Both (·.ancestor? id class_) :=
  (fits_ancestors id).map

theorem fits_isSubclass (id : ValueId) (class_ : ClassId) : pairing.Both (·.isSubclass id class_) :=
  (fits_ancestor? id class_).map

/-- The search for a member stops at the same ancestor. -/
theorem fits_firstMember (name : String) (reached : List Engine.Ancestor) :
    pairing.Both (·.firstMember name reached) := by
  induction reached with
  | nil => exact fits_pure none
  | cons ancestor rest ih =>
    refine (fits_classDeclaration ancestor.class_).bind fun declaration => ?_
    cases declaration.member? name with
    | none => exact ih
    | some member => exact fits_pure _

/-- A name stands for the same member of a class. -/
theorem fits_lookUpMember (id : ValueId) (name : String) : pairing.Both (·.lookUpMember id name) :=
  (fits_ancestors id).bind (fits_firstMember name)

/-! ## Instances -/

/-- A class has the same instance, be it a tuple, a dictionary or a plain one. -/
theorem fits_instantiate (class_ : ClassId) (generics : Generics) :
    pairing.Both (·.instantiate class_ generics) := by
  refine fits_ite (fits_internSet _) ?_
  refine (fits_classDeclaration class_).bind fun declaration => ?_
  exact fits_ite (fits_internSet _) (fits_internSet _)

section Nested

variable {nested nestedOther : TypeSet → Inference TypeSet}
  (nestedFits : ∀ set, pairing.Fits (nested set) (nestedOther set))

include nestedFits

/-- Each typing form has the instances that its slots have in both runs. -/
theorem fits_formInstances (form : SpecialForm) (generics : Generics) :
    pairing.Fits (engine.formInstances nested form generics)
      (pairing.other.formInstances nestedOther form generics) := by
  cases form with
  | union =>
    exact (fits_typeArguments generics).bind fun arguments =>
      fits_unionOver nestedFits arguments.slots
  | optional =>
    exact (fits_typeArguments generics).bind fun arguments =>
      (fits_unionOver nestedFits arguments.slots).map
  | type => exact (fits_typeArguments generics).map
  | classVar => exact (fits_typeArguments generics).bind fun _ => nestedFits _
  | callable | tuple => exact fits_internSet _

/-- A variable that has nothing to fall back on leaves the same event. -/
theorem fits_variableInstances (variable_ : TypeVariableId) :
    pairing.Fits (engine.variableInstances nested variable_)
      (pairing.other.variableInstances nestedOther variable_) :=
  fits_ite (fits_emit _ (fits_pure ∅)) (nestedFits _)

/-- The instances of a value, where those of nested annotations are found alike. -/
theorem fits_valueInstances (id : ValueId) :
    pairing.Fits (engine.valueInstances nested id)
      (pairing.other.valueInstances nestedOther id) := by
  refine (fits_value id).bind fun stored => ?_
  cases stored with
  | classObject class_ => exact fits_instantiate class_ .none
  | genericClass class_ generics => exact fits_instantiate class_ generics
  | typeVariable variable_ => exact fits_variableInstances nestedFits variable_
  | special form generics => exact fits_formInstances nestedFits form generics
  | function | overloaded | boundMethod => exact fits_execute _ _
  | any => exact fits_emit _ (fits_pure ∅)
  | _ => exact fits_pure _

end Nested

/-- Instances are found down the same levels; deeper ones leave the same event. -/
theorem fits_instancesWithin (levels : Nat) (set : TypeSet) :
    pairing.Both (·.instancesWithin levels set) := by
  induction levels generalizing set with
  | zero => exact fits_emit _ (fits_pure ∅)
  | succ levels ih =>
    exact fits_unionOver (fits_valueInstances ih) set.members

/-- An annotation describes the same instances in both runs. -/
theorem fits_instances (set : TypeSet) : pairing.Both (·.instances set) :=
  fits_instancesWithin engine.levels set

/-- What a parameter collects is wrapped in the same tuple or dictionary. -/
theorem fits_collected (kind : ParameterKind) (values : TypeSet) :
    pairing.Fits (Engine.collected kind values) (Engine.collected kind values) := by
  cases kind with
  | starred => exact fits_internSet _
  | doubleStarred => exact (fits_internSet _).bind fun _ => fits_internSet _
  | positional | keywordOnly => exact fits_pure values

/-- A parameter has the same type, be it annotated or not. -/
theorem fits_parameterType (function : FunctionId) (index : Nat) :
    pairing.Both (·.parameterType function index) := by
  refine (fits_functionDeclaration function).bind fun declaration => ?_
  cases declaration.parameters[index]? with
  | none => exact fits_pure ∅
  | some parameter =>
    dsimp only
    cases parameter.hint with
    | none => exact fits_pure ∅
    | some node =>
      refine (fits_readHint node).bind fun values => ?_
      exact fits_ite (fits_pure ∅) ((fits_collected parameter.kind values).bind fits_instances)

/-! ## Fields of dictionary classes -/

/-- The keys of a dictionary class come from the same ancestors. -/
theorem fits_typedDictKeys (class_ : ClassId) : pairing.Both (·.typedDictKeys class_) := by
  refine (fits_intern _).bind fun id => ?_
  refine (fits_ancestors id).bind fun reached => ?_
  exact (fits_mapM (fun ancestor => fits_classDeclaration ancestor.class_) reached).map

/-- The search for a field stops at the same ancestor. -/
theorem fits_firstField (key : String) (reached : List Engine.Ancestor) :
    pairing.Both (·.firstField key reached) := by
  induction reached with
  | nil => exact fits_pure none
  | cons ancestor rest ih =>
    refine (fits_classDeclaration ancestor.class_).bind fun declaration => ?_
    cases declaration.fields.get? key with
    | none => exact ih
    | some node => exact fits_pure _

/-- A field has the same instances, and a missing one leaves the same event. -/
theorem fits_typedDictField (class_ : ClassId) (key : String) :
    pairing.Both (·.typedDictField class_ key) := by
  refine (fits_intern _).bind fun id => ?_
  refine (fits_ancestors id).bind fun reached => ?_
  refine (fits_firstField key reached).bind fun field => ?_
  cases field with
  | none =>
    exact (fits_classDeclaration class_).bind fun _ => fits_emit _ (fits_pure ∅)
  | some node => exact (fits_readHint node).bind fits_instances

/-! ## Attributes -/

/-- A method is bound to the value it was looked up on, or to none, in both runs. -/
theorem fits_methodValue (group : MethodGroup) (isClass : Bool) (id : ValueId) :
    pairing.Fits (Engine.methodValue group isClass id) (Engine.methodValue group isClass id) := by
  have finishes (callee : ValueId) :
      pairing.Fits (if isClass then Pure.pure (TypeSet.singleton callee)
        else internSet (.boundMethod callee id))
        (if isClass then Pure.pure (TypeSet.singleton callee)
        else internSet (.boundMethod callee id)) :=
    fits_ite (fits_pure _) (fits_internSet _)
  cases group <;> exact (fits_intern _).bind finishes

/-- A field is seen with the same type arguments of its owner. -/
theorem fits_fieldValue (owner : ValueId) (node : NodeId) :
    pairing.Both (·.fieldValue owner node) := by
  refine (fits_readHint node).bind fun hint => ?_
  refine (fits_classBindings owner).bind fun bindings => ?_
  exact (fits_substitute hint bindings).bind fits_instances

/-- What a name stands for in a class is read alike, be it a method or a field. -/
theorem fits_memberValue (name : String) (id : ValueId) (isClass : Bool) (class_ : ValueId) :
    pairing.Both (·.memberValue name id isClass class_) := by
  refine (fits_lookUpMember class_ name).bind fun member? => ?_
  cases member? with
  | none => exact fits_pure ∅
  | some found =>
    obtain ⟨owner, member⟩ := found
    cases member with
    | method group => exact fits_methodValue group isClass id
    | field node => exact fits_fieldValue owner node

theorem fits_attributeOf (name : String) (id : ValueId) : pairing.Both (·.attributeOf name id) := by
  refine (fits_value id).bind fun stored => ?_
  refine fits_ite (fits_memberValue name id stored.isClass id) ?_
  refine (fits_classOf id).bind fun class? => ?_
  cases class? with
  | none => exact fits_pure ∅
  | some class_ => exact fits_memberValue name id stored.isClass class_

/-- An attribute of a set is read member by member. -/
theorem fits_readAttribute (set : TypeSet) (name : String) :
    pairing.Both (·.readAttribute set name) :=
  fits_unionOver (fits_attributeOf name) set.members

/-! ## Items -/

/-- An item of a tuple is in the same place, or in all of them, in both runs. -/
theorem fits_tupleItem (generics : Generics) (index : Index) :
    pairing.Both (·.tupleItem generics index) := by
  refine (fits_typeArguments generics).bind fun arguments => ?_
  refine fits_ite (fits_instances _) ?_
  cases index with
  | position position =>
    dsimp only
    cases resolvePosition arguments.size position with
    | none => exact fits_pure ∅
    | some place => exact fits_instances _
  | key | unknown => exact fits_instances _

/-- A key that is not known stands for all fields in both runs. -/
theorem fits_typedDictItem (class_ : ClassId) (index : Index) :
    pairing.Both (·.typedDictItem class_ index) := by
  cases index with
  | key key => exact fits_typedDictField class_ key
  | position | unknown =>
    exact (fits_typedDictKeys class_).bind (fits_unionOver (fits_typedDictField class_))

/-- Both runs look for a mapping first and for an iterable then. -/
theorem fits_containerAncestor (class_ : ValueId) : pairing.Both (·.containerAncestor class_) := by
  refine (fits_ancestor? class_ Builtin.mapping).bind fun mapping? => ?_
  cases mapping? with
  | some mapping => exact fits_pure _
  | none =>
    refine (fits_ancestor? class_ Builtin.iterable).bind fun iterable? => ?_
    cases iterable? <;> exact fits_pure _

/-- An item of an instance is what the same ancestor says. -/
theorem fits_instanceItem (id : ValueId) : pairing.Both (·.instanceItem id) := by
  refine (fits_classOf id).bind fun class? => ?_
  cases class? with
  | none => exact fits_pure ∅
  | some class_ =>
    refine (fits_containerAncestor class_).bind fun container? => ?_
    cases container? with
    | none => exact fits_pure ∅
    | some container =>
      refine (fits_value container.1).bind fun stored => ?_
      cases stored with
      | genericClass class_ generics =>
        exact (fits_typeArguments generics).bind fun _ => fits_instances _
      | _ => exact fits_instances ∅

theorem fits_itemOf (index : Index) (id : ValueId) : pairing.Both (·.itemOf index id) := by
  refine (fits_value id).bind fun stored => ?_
  cases stored with
  | tuple generics => exact fits_tupleItem generics index
  | packedTuple | packedDict | any => exact fits_pure _
  | typedDict class_ => exact fits_typedDictItem class_ index
  | literal text => exact fits_internSet _
  | instanceOf class_ generics => exact fits_instanceItem id
  | _ => exact fits_remark id _ (fits_pure ∅)

/-- An item of a set is read member by member. -/
theorem fits_readItem (set : TypeSet) (index : Index) : pairing.Both (·.readItem set index) :=
  fits_unionOver (fits_itemOf index) set.members

/-! ## Admitted arguments -/

/-- Annotations are compared alike if those nested in them are. -/
theorem fits_admitsValue (nestedFits : ∀ hint, pairing.Fits (nested hint) (nestedOther hint))
    (hint argumentClass : ValueId) :
    pairing.Fits (engine.admitsValue nested hint argumentClass)
      (pairing.other.admitsValue nestedOther hint argumentClass) := by
  have anySlot (generics : Generics) (items : TypeArguments → List ValueId) :
      pairing.Fits (engine.typeArguments generics >>= fun arguments =>
        anyOf nested (items arguments))
        (pairing.other.typeArguments generics >>= fun arguments =>
        anyOf nestedOther (items arguments)) :=
    (fits_typeArguments generics).bind fun arguments => fits_anyOf nestedFits (items arguments)
  refine (fits_value argumentClass).bind fun argument => ?_
  refine fits_ite (fits_pure true) ?_
  refine (fits_value hint).bind fun stored => ?_
  cases stored with
  | classObject | genericClass => exact fits_isSubclass argumentClass _
  | special form generics =>
    cases form with
    | union => exact anySlot generics _
    | optional => exact fits_ite (fits_pure true) (anySlot generics _)
    | classVar => exact anySlot generics _
    | tuple => exact fits_isSubclass argumentClass Builtin.tuple
    | type => exact fits_isSubclass argumentClass Builtin.type
    | callable =>
      cases argument with
      | special form =>
        cases form with
        | callable => exact fits_pure true
        | _ => exact fits_isSubclass argumentClass Builtin.function
      | _ => exact fits_isSubclass argumentClass Builtin.function
  | _ => exact fits_pure _

/-- Annotations are compared down the same levels; deeper ones admit nothing. -/
theorem fits_admitsWithin (argumentClass : ValueId) (levels : Nat) (hint : ValueId) :
    pairing.Both (·.admitsWithin argumentClass levels hint) := by
  induction levels generalizing hint with
  | zero => exact fits_remark hint _ (fits_pure false)
  | succ levels ih =>
    exact fits_admitsValue ih hint argumentClass

/-- Both runs stop at the first class that an annotation admits. -/
theorem fits_anyAdmitted (hints argumentClasses : TypeSet) :
    pairing.Both (·.anyAdmitted hints argumentClasses) :=
  fits_anyOf
    (fun argumentClass => fits_anyOf (fits_admitsWithin argumentClass engine.levels) hints.members)
    argumentClasses.members

end Pairing

end TypeInference
