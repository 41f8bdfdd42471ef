import TypeInference.Proofs.Reachability
import TypeInference.Proofs.Recovery.Variable

/-!
# Values that pass through a type variable

A type variable is bound to class-level values, and each of these describes an instance
that binds a type variable to the same value again.  Hence nothing more is bound when what
a variable stands for is passed through the variable once more.  `Any` alone describes
nothing and is lost.  Functions, classes and the instances of classes come back as the
values they are.  Sequences and mappings with known items, and string literals, come back
as instances of their classes.
-/

namespace TypeInference

open Inference

variable {declarations : Declarations} {arena later : Arena} {stored value : Value}
  {seen bound other : ValueId}

/-! ## What a bound value describes -/

/-- Values that are instances, functions or classes, whose parts are not known one by one. -/
def Value.isLasting : Value → Bool
  | .function _ | .overloaded _ | .boundMethod _ _ | .classObject _ | .genericClass _ _
  | .instanceOf _ _ | .tuple _ | .callable _ | .typedDict _ | .none => true
  | .typeVariable _ | .special _ _ | .typeList _ | .packedTuple _ | .packedDict _ | .literal _
  | .exactly _ | .any | .ellipsis => false

/-- The values other than `Any` that a type variable is bound to. -/
def Value.IsBindable (declarations : Declarations) (arena : Arena) : Value → Prop
  | .genericClass class_ generics =>
    class_ = Builtin.tuple ∨
      (generics.isUnparameterized = false ∧ declarations.describesTypedDict class_ = false)
  | .special form _ => form = .callable
  | .none => True
  | stored => stored.IsCanonical declarations arena

/-- A value that is seen is what a bound value describes. -/
def Arena.Describes (declarations : Declarations) (arena : Arena) (seen : ValueId) : Value → Prop
  | .exactly described => seen = described
  | .classObject class_ => arena.get? seen = some (declarations.instance class_ .none)
  | .genericClass class_ generics => arena.get? seen = some (declarations.instance class_ generics)
  | .special _ generics => arena.get? seen = some (.callable generics)
  | .none => arena.get? seen = some .none
  | _ => False

/-- A value that is seen binds a type variable to another value, which describes it. -/
def Arena.Reflects (declarations : Declarations) (arena : Arena) (seen bound : ValueId) : Prop :=
  ∃ value, arena.get? bound = some value ∧ value.IsBindable declarations arena ∧
    arena.Describes declarations seen value

theorem Value.IsBindable.mono (bindable : value.IsBindable declarations arena)
    (continues : arena ≤ later) :
    value.IsBindable declarations later := by
  cases value with
  | exactly described =>
    obtain ⟨stored, found, callable⟩ := bindable
    exact ⟨stored, Arena.get?_of_le continues found, callable⟩
  | _ => exact bindable

theorem Arena.Describes.mono (describes : arena.Describes declarations seen value)
    (continues : arena ≤ later) :
    later.Describes declarations seen value := by
  cases value with
  | exactly described => exact describes
  | classObject _ | genericClass _ _ | special _ _ | none =>
    exact Arena.get?_of_le continues describes
  | _ => exact describes.elim

theorem Arena.Reflects.mono (reflects : arena.Reflects declarations seen bound)
    (continues : arena ≤ later) :
    later.Reflects declarations seen bound := by
  obtain ⟨value, stored, bindable, describes⟩ := reflects
  exact ⟨value, Arena.get?_of_le continues stored, bindable.mono continues,
    describes.mono continues⟩

section

variable (world : World.WellFormed ⟨arena, declarations⟩)

include world

/-- Equal values are one value, so that a value is stored in one place. -/
theorem World.WellFormed.unique (found : arena.get? seen = some stored)
    (otherFound : arena.get? other = some stored) :
    seen = other := by
  have first := (world.indexed stored seen).mpr found
  have second := (world.indexed stored other).mpr otherFound
  exact Option.some.inj (first.symm.trans second)

/-- A bound value describes one value only. -/
theorem Arena.Reflects.unique_seen (reflects : arena.Reflects declarations seen bound)
    (otherReflects : arena.Reflects declarations other bound) :
    seen = other := by
  obtain ⟨value, stored, -, describes⟩ := reflects
  obtain ⟨otherValue, otherStored, -, otherDescribes⟩ := otherReflects
  cases Option.some.inj (stored.symm.trans otherStored)
  cases value with
  | exactly described => exact Eq.trans describes (Eq.symm otherDescribes)
  | classObject _ | genericClass _ _ | special _ _ | none =>
    exact world.unique describes otherDescribes
  | _ => exact describes.elim

/-- `Any` is not bound by what it describes. -/
theorem Arena.Reflects.ne_any (reflects : arena.Reflects declarations seen bound) :
    bound ≠ Arena.anyId := by
  rintro rfl
  obtain ⟨value, stored, -, describes⟩ := reflects
  cases world.anyStored.symm.trans stored
  exact describes

end

/-! ## What is described binds the same value -/

/-- What an instance of a class binds a type variable to. -/
theorem Declarations.classObject?_of_bindable
    (bindable : (Value.genericClass class_ generics).IsBindable declarations arena) :
    (declarations.instance class_ generics).classObject? =
      some (.genericClass class_ generics) := by
  rcases bindable with rfl | ⟨parameterized, plain⟩
  · rfl
  · exact declarations.classObject?_instance plain parameterized

variable {state : State}

section

variable (world : World.WellFormed ⟨state.arena, declarations⟩)

include world

theorem intern_of_stored (found : state.arena.get? bound = some value) :
    intern value state = .ok (bound, state) := by
  have known := (world.indexed value bound).mpr found
  simp only at known
  unfold Inference.intern Arena.intern
  rw [known]

/-- The class object of an instance is stored already. -/
theorem classOf_of_classObject? (found : state.arena.get? seen = some stored)
    (isClassObject : stored.classObject? = some value)
    (classStored : state.arena.get? bound = some value) :
    Engine.classOf seen state = .ok (some bound, state) := by
  rw [classOf_eq_intern found isClassObject, bind_of_ok (intern_of_stored world classStored)]
  rfl

/-- What a bound value describes binds a type variable to that value. -/
theorem bindingOf_of_reflects (reflects : state.arena.Reflects declarations seen bound) :
    Engine.bindingOf seen state = .ok (.singleton bound, state) := by
  obtain ⟨value, boundStored, bindable, describes⟩ := reflects
  have ofClass {stored : Value} (found : state.arena.get? seen = some stored)
      (isInstance : (stored.isFunction || stored.isClass) = false)
      (classOf : Engine.classOf seen state = .ok (some bound, state)) :
      Engine.bindingOf seen state = .ok (.singleton bound, state) := by
    unfold Engine.bindingOf
    rw [bind_of_ok (value_of_get? found)]
    simp only [isInstance, Bool.false_eq_true, if_false]
    rw [bind_of_ok classOf]
    rfl
  have ofInstance {class_ : ClassId} {generics : Generics}
      (found : state.arena.get? seen = some (declarations.instance class_ generics))
      (isClassObject : (declarations.instance class_ generics).classObject? = some value) :
      Engine.bindingOf seen state = .ok (.singleton bound, state) := by
    refine ofClass found ?_ (classOf_of_classObject? world found isClassObject boundStored)
    unfold Declarations.instance
    split
    · rfl
    · split <;> rfl
  cases value with
  | exactly described =>
    cases describes
    obtain ⟨stored, found, callable⟩ := bindable
    unfold Engine.bindingOf
    rw [bind_of_ok (value_of_get? found)]
    simp only [callable, if_true]
    unfold Inference.internSet
    rw [bind_of_ok (intern_of_stored world boundStored)]
    rfl
  | classObject class_ =>
    exact ofInstance describes (Declarations.classObject?_instance_none bindable)
  | genericClass class_ generics =>
    exact ofInstance describes (Declarations.classObject?_of_bindable bindable)
  | special form generics =>
    cases bindable
    refine ofClass describes rfl ?_
    unfold Engine.classOf Engine.classOfWithin
    rw [bind_of_ok (value_of_get? describes)]
    simp only [Engine.classOfValue]
    rw [bind_of_ok (intern_of_stored world boundStored)]
    rfl
  | none =>
    cases world.unique describes boundStored
    refine ofClass describes rfl ?_
    unfold Engine.classOf Engine.classOfWithin
    rw [bind_of_ok (value_of_get? describes)]
    rfl
  | _ => exact describes.elim

/-- A value that is seen binds a type variable to one value only. -/
theorem Arena.Reflects.unique_bound (reflects : state.arena.Reflects declarations seen bound)
    (otherReflects : state.arena.Reflects declarations seen other) :
    bound = other := by
  have once := (bindingOf_of_reflects world reflects).symm.trans
    (bindingOf_of_reflects world otherReflects)
  simp only [Except.ok.injEq, Prod.mk.injEq, and_true] at once
  exact TypeSet.mem_singleton.mp (once ▸ TypeSet.mem_singleton.mpr rfl)

end

/-! ## Builtin classes -/

namespace Declarations

/--
The classes of tuples and dictionaries are none that declare fields.  The instances of the tuple
class are tuples in any case, so that a dictionary of that class would not come back.
-/
def BuiltinsArePlain (declarations : Declarations) : Prop :=
  ∀ class_ ∈ [Builtin.tuple, Builtin.dict], declarations.describesTypedDict class_ = false

/-- Declarations that have been made from the builtin ones on. -/
inductive Grown : Declarations → Prop
  | initial : Grown World.initial.declarations
  | addClass (given : ClassDeclaration) : Grown before → Grown (before.addClass given).2
  | addFunction (given : FunctionDeclaration) : Grown before → Grown (before.addFunction given).2
  | addMethod (owner : ClassId) (given : FunctionDeclaration) :
    Grown before → Grown (before.addMethod owner given).2
  | addOverload (owner : ClassId) (given : FunctionDeclaration) :
    Grown before → Grown (before.addOverload owner given).2
  | addBase (class_ : ClassId) (base : TypeSet) : Grown before → Grown (before.addBase class_ base)
  | addField (class_ : ClassId) (name : String) (hint : NodeId) :
    Grown before → Grown (before.addField class_ name hint)
  | addTypeVariable (name : String) : Grown before → Grown (before.addTypeVariable name).2
  | setBound (variable_ : TypeVariableId) (bound : TypeSet) :
    Grown before → Grown (before.setBound variable_ bound)
  | setConstraints (variable_ : TypeVariableId) (constraints : TypeSet) :
    Grown before → Grown (before.setConstraints variable_ constraints)

/-- Whether a class declares fields is settled when it is declared. -/
theorem isTypedDict_modifyClass {change : ClassDeclaration → ClassDeclaration}
    (keeps : ∀ class_, (change class_).isTypedDict = class_.isTypedDict)
    {declarations : Declarations} {id other : ClassId} {kind : Option Bool}
    (declared : (declarations.class? other).map ClassDeclaration.isTypedDict = kind) :
    ((declarations.modifyClass id change).class? other).map ClassDeclaration.isTypedDict =
      kind := by
  rw [← declared]
  simp only [modifyClass, class?, Array.getElem?_modify]
  split
  · rw [Option.map_map, show ClassDeclaration.isTypedDict ∘ change = _ from funext keeps]
  · rfl

/-- Builtin classes go on to declare fields if they did, and not to if they did not. -/
theorem Grown.isTypedDict (grown : Grown declarations) {class_ : ClassId} {kind : Bool}
    (declared : (World.initial.declarations.class? class_).map ClassDeclaration.isTypedDict =
      some kind) :
    (declarations.class? class_).map ClassDeclaration.isTypedDict = some kind := by
  induction grown with
  | initial => exact declared
  | @addClass before given _ ih =>
    obtain ⟨_, found, _⟩ := Option.map_eq_some_iff.mp ih
    have below := (Array.getElem?_eq_some_iff.mp found).1
    have kept : (before.addClass given).2.class? class_ = before.class? class_ :=
      Array.getElem?_push.trans (if_neg (Nat.ne_of_lt below))
    exact (congrArg _ kept).trans ih
  | addFunction _ _ ih | addTypeVariable _ _ ih | setBound _ _ _ ih | setConstraints _ _ _ ih =>
    exact ih
  | addMethod _ _ _ ih | addOverload _ _ _ ih | addBase _ _ _ ih | addField _ _ _ _ ih =>
    refine isTypedDict_modifyClass ?_ ih
    exact fun _ => rfl

/-- However declarations have been made, the classes of tuples and dictionaries are plain. -/
theorem Grown.builtinsArePlain (grown : Grown declarations) : declarations.BuiltinsArePlain := by
  have declared : ∀ class_ ∈ [Builtin.tuple, Builtin.dict],
      (World.initial.declarations.class? class_).map ClassDeclaration.isTypedDict = some false := by
    decide
  intro class_ member
  obtain ⟨known, found, plain⟩ :=
    Option.map_eq_some_iff.mp (grown.isTypedDict (declared class_ member))
  rw [describesTypedDict, found, Option.any_some, plain]

end Declarations

/-! ## What is seen is bound widely -/

/-- A type variable may be bound to a value: it is `Any`, or it describes something. -/
def Arena.MayBind (declarations : Declarations) (arena : Arena) (bound : ValueId) : Prop :=
  bound = Arena.anyId ∨
    ∃ value, arena.get? bound = some value ∧ value.IsBindable declarations arena

/--
A value that is seen binds a type variable to something that it may be bound to.  What lasts
is described by the value it is bound to.
-/
structure Arena.Widens (declarations : Declarations) (arena : Arena) (stored : Value)
    (seen bound : ValueId) : Prop where
  mayBind : arena.MayBind declarations bound
  lasts : stored.isLasting = true → arena.Reflects declarations seen bound

theorem Arena.Widens.mono (widens : arena.Widens declarations stored seen bound)
    (continues : arena ≤ later) :
    later.Widens declarations stored seen bound where
  mayBind := widens.mayBind.imp id fun ⟨value, found, bindable⟩ =>
    ⟨value, Arena.get?_of_le continues found, bindable.mono continues⟩
  lasts := fun lasting => (widens.lasts lasting).mono continues

theorem Generics.eq_none_of_isUnparameterized {generics : Generics}
    (unparameterized : generics.isUnparameterized = true) :
    generics = .none := by
  cases generics with
  | lazy node => cases unparameterized
  | resolved arguments =>
    obtain ⟨slots, homogeneous⟩ := arguments
    simp only [isUnparameterized, TypeArguments.isEmpty, Bool.and_eq_true, List.isEmpty_iff,
      Bool.not_eq_true'] at unparameterized
    rw [unparameterized.1, unparameterized.2, Generics.none]

/--
Instances are of classes that have instances of their own, and dictionaries with declared
fields are of classes that declare them.
-/
def Value.isProper (declarations : Declarations) : Value → Bool
  | .instanceOf class_ _ =>
    class_ != Builtin.tuple && !declarations.describesTypedDict class_
  | .typedDict class_ => declarations.describesTypedDict class_
  | _ => true

namespace Judgement

variable {env : Environment} {judgement : Judgement env}

theorem reaches_some_intern (admitted : judgement.Admits state) (matching : judgement.Matching)
    (within : env.Scopes state.arena.size value) (noFunction : value.isFunction = false)
    (bindable : value.IsBindable env.declarations state.arena)
    (describes : stored.isLasting = true → state.arena.Describes env.declarations seen value) :
    judgement.Reaches state
      (fun _ => (do return some (← intern value) : Inference (Option ValueId)))
      fun after answer =>
        (∀ bound ∈ answer, after.arena.Widens env.declarations stored seen bound) ∧
          (stored.isLasting = true → answer.isSome) := by
  refine (reaches_intern_of_matching admitted within noFunction fun _ => matching).bind
    fun after bound afterAdmitted continues found => ?_
  refine reaches_pure afterAdmitted ⟨?_, fun _ => rfl⟩
  rintro _ ⟨⟩
  have still := bindable.mono continues
  exact ⟨.inr ⟨value, found, still⟩,
    fun lasting => ⟨value, found, still, (describes lasting).mono continues⟩⟩

section

variable (plain : env.declarations.BuiltinsArePlain) (admitted : judgement.Admits state)
  (matching : judgement.Matching) (found : state.arena.get? seen = some stored)
  (proper : stored.isProper env.declarations = true)

include plain admitted matching found proper

/-- The class of a value that is seen is bound widely. -/
theorem reaches_classOf_seen (isValue : (stored.isFunction || stored.isClass) = false) :
    judgement.Reaches state (fun _ => Engine.classOf seen) fun after answer =>
      (∀ bound ∈ answer, after.arena.Widens env.declarations stored seen bound) ∧
        (stored.isLasting = true → answer.isSome) := by
  have world := admitted.wellFormed.world
  have within := world.within_of_get? found
  have descending := world.descending seen stored found
  have classesYield {bound : Nat} {set : TypeSet} (larger : state.arena.size ≤ bound)
      (setWithin : env.Scopes seen.index set) :
      judgement.Yields bound fun _ => Engine.classesWith (Engine.classOfWithin seen.index) set :=
    yields_classesWith fun id member => yields_classOfWithin (setWithin id member)
      (Nat.lt_of_lt_of_le (Nat.lt_trans (setWithin id member) (Arena.lt_size_of_get? found)) larger)
  have builtin (class_ : ClassId) (isBuiltin : class_.index ≤ Builtin.dict.index) :
      env.Scopes state.arena.size class_ :=
    within_builtin world.declared isBuiltin
  refine reaches_value_bind found ?_
  cases stored with
  | instanceOf class_ generics =>
    obtain ⟨different, isPlain⟩ : class_ ≠ Builtin.tuple ∧
        env.declarations.describesTypedDict class_ = false := by
      simpa [Value.isProper] using proper
    have isInstance (generics : Generics) :
        env.declarations.instance class_ generics = .instanceOf class_ generics := by
      simp [Declarations.instance, different, isPlain]
    cases unparameterized : generics.isUnparameterized with
    | true =>
      simp only [Engine.classOfValue, unparameterized, if_true]
      refine reaches_some_intern admitted matching within.1 rfl different fun _ => ?_
      rw [Arena.Describes, isInstance, ← Generics.eq_none_of_isUnparameterized unparameterized]
      exact found
    | false =>
      simp only [Engine.classOfValue, unparameterized, Bool.false_eq_true, if_false]
      refine reaches_some_intern admitted matching within rfl (.inr ⟨unparameterized, isPlain⟩)
        fun _ => ?_
      rw [Arena.Describes, isInstance]
      exact found
  | tuple generics =>
    exact reaches_some_intern admitted matching ⟨builtin _ (by decide), within⟩ rfl (.inl rfl)
      fun _ => found
  | packedTuple items =>
    have slotsYield : judgement.Yields state.arena.size fun _ =>
        items.mapM (Engine.classesWith (Engine.classOfWithin seen.index)) :=
      yields_mapM fun set member => classesYield (Nat.le_refl _) (descending set member)
    refine (slotsYield.reaches admitted (Nat.le_refl _)).bind
      fun after slots afterAdmitted continues slotsWithin => ?_
    have tupleWithin := (builtin Builtin.tuple (by decide)).grow (Arena.size_le_of_le continues)
    exact reaches_some_intern afterAdmitted matching ⟨tupleWithin, slotsWithin⟩ rfl (.inl rfl)
      (by simp [Value.isLasting])
  | packedDict entries =>
    have keyYields : judgement.Yields state.arena.size fun _ =>
        internSet (.classObject Builtin.str) := yields_internSet (builtin _ (by decide)) rfl
    refine (keyYields.reaches admitted (Nat.le_refl _)).bind
      fun between key betweenAdmitted toBetween keyWithin => ?_
    have larger := Arena.size_le_of_le toBetween
    have valuesYield : judgement.Yields between.arena.size fun _ => unionOver
        (fun entry : String × TypeSet =>
          Engine.classesWith (Engine.classOfWithin seen.index) entry.2) entries :=
      yields_unionOver fun entry member => classesYield larger (descending entry member).2
    refine (valuesYield.reaches betweenAdmitted (Nat.le_refl _)).bind
      fun after values afterAdmitted toAfter valuesWithin => ?_
    have largest := Arena.size_le_of_le toAfter
    have dictWithin := (builtin Builtin.dict (by decide)).grow (Nat.le_trans larger largest)
    refine reaches_some_intern afterAdmitted matching ⟨dictWithin, ?_⟩ rfl
      (.inr ⟨rfl, plain Builtin.dict (by simp)⟩) (by simp [Value.isLasting])
    exact within_cons.mpr ⟨keyWithin.grow largest, within_cons.mpr ⟨valuesWithin, within_nil⟩⟩
  | typedDict class_ =>
    have different : class_ ≠ Builtin.tuple := by
      rintro rfl
      exact Bool.false_ne_true ((plain Builtin.tuple (by simp)).symm.trans proper)
    refine reaches_some_intern admitted matching within rfl different fun _ => ?_
    have isDict : env.declarations.describesTypedDict class_ = true := proper
    rw [Arena.Describes, Declarations.instance, if_neg different, if_pos isDict]
    exact found
  | literal text =>
    have different : Builtin.str ≠ Builtin.tuple := by decide
    exact reaches_some_intern admitted matching (builtin _ (by decide)) rfl different
      (by simp [Value.isLasting])
  | callable generics =>
    exact reaches_some_intern admitted matching within rfl rfl fun _ => found
  | none =>
    refine reaches_pure admitted ⟨?_, fun _ => rfl⟩
    rintro _ ⟨⟩
    exact ⟨.inr ⟨.none, found, trivial⟩, fun _ => ⟨.none, found, trivial, found⟩⟩
  | any =>
    have isAny : seen = Arena.anyId := world.unique found world.anyStored
    refine reaches_pure admitted ⟨?_, fun lasting => by cases lasting⟩
    rintro _ ⟨⟩
    exact ⟨.inl isAny, fun lasting => by cases lasting⟩
  | function _ | overloaded _ | boundMethod _ _ | classObject _ | genericClass _ _ =>
    cases isValue
  | typeVariable _ | special _ _ | typeList _ | exactly _ | ellipsis =>
    refine reaches_pure admitted ⟨?_, fun lasting => by cases lasting⟩
    rintro _ ⟨⟩

/-- A value that is seen binds a type variable widely. -/
theorem reaches_bindingOf_seen :
    judgement.Reaches state (fun _ => Engine.bindingOf seen) fun after set =>
      (∀ bound ∈ set, after.arena.Widens env.declarations stored seen bound) ∧
        (stored.isLasting = true →
          ∃ bound ∈ set, after.arena.Widens env.declarations stored seen bound) := by
  refine reaches_value_bind found ?_
  cases callable : (stored.isFunction || stored.isClass) with
  | true =>
    simp only [if_true]
    have within : env.Scopes state.arena.size (Value.exactly seen) := Arena.lt_size_of_get? found
    refine (reaches_internSet admitted within rfl).imp fun after set _ continues holds => ?_
    obtain ⟨bound, rfl, boundStored⟩ := holds
    have bindable : (Value.exactly seen).IsBindable env.declarations after.arena :=
      ⟨stored, Arena.get?_of_le continues found, callable⟩
    have widens : after.arena.Widens env.declarations stored seen bound :=
      ⟨.inr ⟨_, boundStored, bindable⟩, fun _ => ⟨_, boundStored, bindable, rfl⟩⟩
    refine ⟨fun other member => ?_, fun _ => ⟨bound, by simp, widens⟩⟩
    rw [TypeSet.mem_singleton.mp member]
    exact widens
  | false =>
    simp only [Bool.false_eq_true, if_false]
    refine (reaches_classOf_seen plain admitted matching found proper callable).bind
      fun after answer afterAdmitted _ holds => ?_
    cases answer with
    | none =>
      refine reaches_pure afterAdmitted ⟨fun _ member => by simp at member, fun lasting => ?_⟩
      exact absurd (holds.2 lasting) (by simp)
    | some class_ =>
      have widens := holds.1 class_ rfl
      refine reaches_pure afterAdmitted ⟨fun other member => ?_, fun _ => ⟨class_, by simp, widens⟩⟩
      rw [TypeSet.mem_singleton.mp member]
      exact widens

end

/-! ## What is bound is seen again -/

/-- A bound value describes one value, which is seen from then on. -/
theorem reaches_valueInstances_bindable (admitted : judgement.Admits state)
    (matching : judgement.Matching) (found : state.arena.get? bound = some value)
    (bindable : value.IsBindable env.declarations state.arena)
    (nested : Nat → TypeSet → Inference TypeSet) :
    judgement.Reaches state
      (fun fuel => (env.stage fuel).valueInstances (nested fuel) bound)
      fun after set => ∃ seen, set = .singleton seen ∧
        after.arena.Reflects env.declarations seen bound := by
  have within := admitted.wellFormed.world.within_of_get? found
  have instantiated {class_ : ClassId} {generics : Generics}
      (classWithin : env.Scopes state.arena.size class_)
      (genericsWithin : env.Scopes state.arena.size generics)
      (describes : ∀ {after : Arena} {seen : ValueId},
        after.get? seen = some (env.declarations.instance class_ generics) →
        after.Describes env.declarations seen value) :
      judgement.Attains state (·.instantiate class_ generics)
        fun after set => ∃ seen, set = .singleton seen ∧
          after.arena.Reflects env.declarations seen bound := by
    refine (reaches_instantiate admitted classWithin genericsWithin).imp
      fun after set _ continues holds => ?_
    obtain ⟨seen, rfl, seenStored⟩ := holds
    exact ⟨seen, rfl, value, Arena.get?_of_le continues found, bindable.mono continues,
      describes seenStored⟩
  refine reaches_value_bind found ?_
  cases value with
  | exactly described => exact reaches_pure admitted ⟨described, rfl, _, found, bindable, rfl⟩
  | classObject class_ => exact instantiated within within_nil id
  | genericClass class_ generics => exact instantiated within.1 within.2 id
  | special form generics =>
    cases bindable
    have callableWithin : env.Scopes state.arena.size (Value.callable generics) := within
    refine (reaches_intern_of_matching admitted callableWithin rfl fun _ => matching).bind
      fun after seen afterAdmitted continues seenStored => ?_
    exact reaches_pure afterAdmitted
      ⟨seen, rfl, _, Arena.get?_of_le continues found, rfl, seenStored⟩
  | none => exact reaches_pure admitted ⟨bound, rfl, _, found, trivial, found⟩
  | _ => exact bindable.elim

/-- The values that a type variable is bound to, where its value is unified with a set. -/
theorem reaches_unify_variable {set : TypeSet} (post : State → TypeSet → Prop)
    (admitted : judgement.Admits state)
    (isVariable : state.arena.get? hint = some (.typeVariable variable_))
    (united : ∀ later, judgement.Admits later → state.arena ≤ later.arena →
      judgement.Reaches later (fun _ => unionOver Engine.bindingOf set.members) post) :
    judgement.Attains state (·.unify (.singleton hint) set)
      fun after bindings => post after ((bindings.get? variable_).getD ∅) := by
  have bound {later : State} (laterAdmitted : judgement.Admits later)
      (continues : state.arena ≤ later.arena) :
      judgement.Reaches later (fun _ => Engine.unifyVariable variable_ set)
        fun after bindings => post after ((bindings.get? variable_).getD ∅) := by
    refine (united later laterAdmitted continues).bind fun after values afterAdmitted _ holds => ?_
    refine reaches_pure afterAdmitted ?_
    rw [Substitution.getD_get?_singleton]
    exact holds
  simp only [Engine.unify, Engine.levels, Engine.unifyWithin, TypeSet.members_singleton,
    mergeOver_singleton]
  refine reaches_ite (fun isEmpty => ?_) fun _ => ?_
  · have nothing : set = ∅ := TypeSet.eq_empty_of_isEmpty isEmpty
    subst nothing
    exact bound admitted (Arena.le_refl _)
  · have counted : judgement.Yields 0 fun _ => count fun counters =>
        { counters with unifications := counters.unifications + 1 } := yields_count _
    refine (counted.reaches admitted (Nat.zero_le _)).bind
      fun between _ betweenAdmitted continues _ => ?_
    exact reaches_value_bind (Arena.get?_of_le continues isVariable)
      (bound betweenAdmitted continues)

/-- Each value that is seen binds a type variable widely. -/
theorem reaches_unify_widening (plain : env.declarations.BuiltinsArePlain)
    (admitted : judgement.Admits state) (matching : judgement.Matching)
    (isVariable : state.arena.get? hint = some (.typeVariable variable_)) {set : TypeSet}
    (proper : ∀ id ∈ set, (state.arena.get? id).any (Value.isProper env.declarations) = true) :
    judgement.Attains state (·.unify (.singleton hint) set)
      fun after bindings =>
        (∀ bound ∈ (bindings.get? variable_).getD ∅, after.arena.MayBind env.declarations bound) ∧
        ∀ id ∈ set, (state.arena.get? id).any Value.isLasting = true →
          ∃ bound ∈ (bindings.get? variable_).getD ∅,
            after.arena.Reflects env.declarations id bound := by
  refine reaches_unify_variable
    (fun after values =>
      (∀ bound ∈ values, after.arena.MayBind env.declarations bound) ∧
      ∀ id ∈ set, (state.arena.get? id).any Value.isLasting = true →
        ∃ bound ∈ values, after.arena.Reflects env.declarations id bound)
    admitted isVariable fun later laterAdmitted continues => ?_
  have united := reaches_unionOver_related
    (fun arena id bound => ∃ stored, state.arena.get? id = some stored ∧
      arena.Widens env.declarations stored id bound)
    (fun id => (state.arena.get? id).any Value.isLasting = true)
    (fun _ _ _ _ further holds => holds.imp fun _ both => ⟨both.1, both.2.mono further⟩)
    laterAdmitted fun id member last lastAdmitted further => by
      obtain ⟨stored, found, isProper⟩ := (Option.any_eq_true _ _).mp (proper id member)
      have still := Arena.get?_of_le (Arena.le_trans continues further) found
      refine (reaches_bindingOf_seen plain lastAdmitted matching still isProper).imp
        fun after values _ _ holds => ⟨fun bound isBound => ?_, fun lasting => ?_⟩
      · exact ⟨stored, found, holds.1 bound isBound⟩
      · rw [found, Option.any_some] at lasting
        obtain ⟨bound, isBound, widens⟩ := holds.2 lasting
        exact ⟨bound, isBound, stored, found, widens⟩
  refine united.imp fun after values _ _ holds => ⟨fun bound isBound => ?_, ?_⟩
  · obtain ⟨_, _, _, _, widens⟩ := holds.1 bound isBound
    exact widens.mayBind
  · intro id member lasting
    obtain ⟨bound, isBound, stored, found, widens⟩ := holds.2 id member lasting
    rw [found, Option.any_some] at lasting
    exact ⟨bound, isBound, widens.lasts lasting⟩

/-- The values that a set of bound values describes are seen, and `Any` describes none. -/
theorem reaches_instances_bindable (admitted : judgement.Admits state)
    (matching : judgement.Matching)
    (bindable : ∀ bound ∈ values, state.arena.MayBind env.declarations bound) :
    judgement.Attains state (·.instances values)
      fun after widened =>
        (∀ seen ∈ widened, ∃ bound ∈ values, after.arena.Reflects env.declarations seen bound) ∧
        ∀ bound ∈ values, bound ≠ Arena.anyId →
          ∃ seen ∈ widened, after.arena.Reflects env.declarations seen bound := by
  refine reaches_unionOver_related
    (fun arena bound seen => arena.Reflects env.declarations seen bound)
    (fun bound => bound ≠ Arena.anyId)
    (fun _ _ _ _ further reflects => reflects.mono further) admitted
    fun bound member later laterAdmitted continues => ?_
  rcases bindable bound member with rfl | ⟨value, found, isBindable⟩
  · refine reaches_value_bind laterAdmitted.wellFormed.world.anyStored ?_
    have emitted : judgement.Yields 0 fun _ => emit .anyExecuted := yields_emit _
    refine (emitted.reaches laterAdmitted (Nat.zero_le _)).bind fun after _ afterAdmitted _ _ => ?_
    exact reaches_pure afterAdmitted ⟨fun _ isMember => by simp at isMember, fun different =>
      absurd rfl different⟩
  · refine (reaches_valueInstances_bindable laterAdmitted matching
      (Arena.get?_of_le continues found) (isBindable.mono continues) _).imp
      fun after set _ _ holds => ?_
    obtain ⟨seen, rfl, reflects⟩ := holds
    refine ⟨fun other isMember => ?_, fun _ => ⟨seen, by simp, reflects⟩⟩
    rw [TypeSet.mem_singleton.mp isMember]
    exact reflects

/-- What is seen of bound values binds a type variable to all of them but `Any`. -/
theorem reaches_unify_reflecting (admitted : judgement.Admits state) {variable_ : TypeVariableId}
    (isVariable : state.arena.get? hint = some (.typeVariable variable_)) {values widened : TypeSet}
    (reflected : ∀ seen ∈ widened, ∃ bound ∈ values,
      state.arena.Reflects env.declarations seen bound)
    (reflecting : ∀ bound ∈ values, bound ≠ Arena.anyId →
      ∃ seen ∈ widened, state.arena.Reflects env.declarations seen bound) :
    judgement.Attains state (·.unify (.singleton hint) widened)
      fun _ again => (again.get? variable_).getD ∅ = values.erase Arena.anyId := by
  refine reaches_unify_variable (fun _ found => found = values.erase Arena.anyId) admitted
    isVariable fun later laterAdmitted continues => ?_
  have united := reaches_unionOver (Arena.Reflects env.declarations)
    (fun _ _ _ _ further reflects => reflects.mono further)
    laterAdmitted fun seen member last lastAdmitted further => by
      obtain ⟨bound, -, reflects⟩ := reflected seen member
      have still := reflects.mono (Arena.le_trans continues further)
      have binds := bindingOf_of_reflects lastAdmitted.wellFormed.world still
      exact reaches_of_ok (fun _ => binds) lastAdmitted (Arena.le_refl _) ⟨bound, rfl, still⟩
  refine united.imp fun after found afterAdmitted further holds => ?_
  have world := afterAdmitted.wellFormed.world
  have toAfter := Arena.le_trans continues further
  apply TypeSet.ext_mem
  intro bound
  rw [TypeSet.mem_erase]
  constructor
  · intro isFound
    obtain ⟨seen, member, reflects⟩ := holds.1 bound isFound
    obtain ⟨source, isValue, sourceReflects⟩ := reflected seen member
    rw [reflects.unique_bound world (sourceReflects.mono toAfter)]
    exact ⟨isValue, (sourceReflects.mono toAfter).ne_any world⟩
  · rintro ⟨isValue, different⟩
    obtain ⟨seen, member, reflects⟩ := reflecting bound isValue different
    obtain ⟨target, isFound, targetReflects⟩ := holds.2 seen member
    rw [(reflects.mono toAfter).unique_bound world targetReflects]
    exact isFound

end Judgement

/--
Whatever the tree and the limits are, passing values through a type variable is a stable
widening.  The variable is bound, what it is bound to is instantiated, and the instances
bind it to the same values again, but for `Any`.  Among the instances are all functions,
classes and instances that were passed, and `None`, as the very values they were.
-/
theorem widening_is_stable
    {environment : Environment}
    (plain : environment.declarations.BuiltinsArePlain)
    {state : State}
    (wellFormed : state.WellFormed environment.declarations)
    {hint : ValueId}
    {variable_ : TypeVariableId}
    (isVariable : state.arena.get? hint = some (.typeVariable variable_))
    {set : TypeSet}
    (proper : ∀ id ∈ set, (state.arena.get? id).any
      (Value.isProper environment.declarations) = true) :
    ∃ bindings bound widened seen again final,
      (∀ fuel, environment.answer fuel (.unify (.singleton hint) set) state =
        .ok (bindings, bound)) ∧
      (∀ fuel, environment.answer fuel (.instances ((bindings.get? variable_).getD ∅)) bound =
        .ok (widened, seen)) ∧
      (∀ fuel, environment.answer fuel (.unify (.singleton hint) widened) seen =
        .ok (again, final)) ∧
      (again.get? variable_).getD ∅ = ((bindings.get? variable_).getD ∅).erase Arena.anyId ∧
      ∀ id ∈ set, (state.arena.get? id).any Value.isLasting = true → id ∈ widened := by
  have admitted : (Judgement.immediate environment (.spanning 0)).Admits state :=
    ⟨wellFormed, Nat.zero_le _⟩
  obtain ⟨⟨bindings, bound⟩, ⟨boundAdmitted, toBound, bindable, lasting⟩, unifies⟩ :=
    Judgement.reaches_unify_widening plain admitted trivial isVariable proper
  obtain ⟨⟨widened, seen⟩, ⟨seenAdmitted, toSeen, reflected, reflecting⟩, instantiates⟩ :=
    Judgement.reaches_instances_bindable boundAdmitted trivial bindable
  obtain ⟨⟨again, final⟩, ⟨-, -, same⟩, unifiesAgain⟩ :=
    Judgement.reaches_unify_reflecting seenAdmitted
      (Arena.get?_of_le (Arena.le_trans toBound toSeen) isVariable) reflected reflecting
  simp only [environment.stage_eq_engine] at unifies instantiates unifiesAgain
  refine ⟨bindings, bound, widened, seen, again, final, unifies, instantiates, unifiesAgain, same,
    fun id member isLasting => ?_⟩
  obtain ⟨target, isBound, reflects⟩ := lasting id member isLasting
  obtain ⟨source, isSeen, sourceReflects⟩ :=
    reflecting target isBound (reflects.ne_any boundAdmitted.wellFormed.world)
  rw [(reflects.mono toSeen).unique_seen seenAdmitted.wellFormed.world sourceReflects]
  exact isSeen

/-- The declarations every analysis starts from, with a dictionary class that declares fields. -/
def Declarations.withRecord : Declarations :=
  (World.initial.declarations.addClass { name := "Record", isTypedDict := true }).2

/-- The arena every analysis starts from, with values of many kinds. -/
def Arena.assorted : Arena :=
  World.initial.arena.append
    [.function ⟨0⟩, .typedDict ⟨15⟩, .instanceOf Builtin.list (.lazy ⟨0⟩),
      .packedTuple [.singleton ⟨21⟩, .singleton ⟨0⟩], .callable (.ofSlots [∅, .singleton ⟨4⟩])]

/-- Values of many kinds pass through a variable: some last, one widens, and `Any` is lost. -/
theorem widening_is_stable_of_assorted :
    let environment : Environment :=
      { declarations := .withRecord, provider := Tree.fixedProvider {} }
    let state := environment.start Arena.assorted
    let set : TypeSet := .ofList [⟨0⟩, ⟨1⟩, ⟨4⟩, ⟨19⟩, ⟨20⟩, ⟨21⟩, ⟨22⟩, ⟨23⟩]
    ∃ bindings bound widened seen again final,
      (∀ fuel, environment.answer fuel (.unify (.singleton ⟨16⟩) set) state =
        .ok (bindings, bound)) ∧
      (∀ fuel, environment.answer fuel (.instances ((bindings.get? ⟨6⟩).getD ∅)) bound =
        .ok (widened, seen)) ∧
      (∀ fuel, environment.answer fuel (.unify (.singleton ⟨16⟩) widened) seen =
        .ok (again, final)) ∧
      (again.get? ⟨6⟩).getD ∅ = ((bindings.get? ⟨6⟩).getD ∅).erase Arena.anyId ∧
      ∀ id ∈ [⟨0⟩, ⟨4⟩, ⟨19⟩, ⟨20⟩, ⟨21⟩, ⟨23⟩], id ∈ widened := by
  intro environment state set
  have plain : environment.declarations.BuiltinsArePlain :=
    (Declarations.Grown.initial.addClass _).builtinsArePlain
  have world : World.WellFormed ⟨Arena.assorted, environment.declarations⟩ :=
    .ofChecks (by decide +kernel) (by decide +kernel)
  have isVariable : state.arena.get? ⟨16⟩ = some (.typeVariable ⟨6⟩) := by decide +kernel
  have proper : ∀ id ∈ set.members, (state.arena.get? id).any
      (Value.isProper environment.declarations) = true := by decide +kernel
  have lasting : ∀ id ∈ [⟨0⟩, ⟨4⟩, ⟨19⟩, ⟨20⟩, ⟨21⟩, ⟨23⟩],
      id ∈ set.members ∧ (state.arena.get? id).any Value.isLasting = true := by decide +kernel
  obtain ⟨bindings, bound, widened, seen, again, final, unifies, instantiates, unifiesAgain, same,
    lasts⟩ := widening_is_stable plain (State.WellFormed.ofWorld world _) isVariable proper
  refine ⟨bindings, bound, widened, seen, again, final, unifies, instantiates, unifiesAgain, same,
    fun id member => ?_⟩
  obtain ⟨inSet, isLasting⟩ := lasting id member
  exact lasts id inSet isLasting

end TypeInference
