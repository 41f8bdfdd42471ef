import TypeInference.Proofs.Recovery.Replacement

/-!
# What a value binds a variable to

A value that is seen in the place of a type variable binds it to one class-level value,
and an instance of a canonical value binds it to that value.  Hence the instances of the
members of a set bind a type variable to exactly that set.
-/

namespace TypeInference

open Inference

variable {stored value : Value} {bound seen : TypeSet} {id : ValueId}

/-! ## What a value binds a variable to -/

def Value.classObject? : Value → Option Value
  | .instanceOf class_ generics =>
    some (if generics.isUnparameterized then .classObject class_ else .genericClass class_ generics)
  | .tuple generics => some (.genericClass Builtin.tuple generics)
  | .typedDict class_ => some (.classObject class_)
  | _ => Option.none

theorem Value.isPlain_of_classObject? (isClassObject : stored.classObject? = some value) :
    value.isPlain = true := by
  cases stored with
  | instanceOf class_ generics =>
    cases isClassObject
    split <;> rfl
  | tuple _ | typedDict _ =>
    cases isClassObject
    rfl
  | _ => cases isClassObject

/-- To look for the class of an instance is to intern its class object. -/
theorem classOf_eq_intern {state : State} (found : state.arena.get? id = some stored)
    (isClassObject : stored.classObject? = some value) :
    Engine.classOf id state =
      (do return some (← intern value) : Inference (Option ValueId)) state := by
  unfold Engine.classOf Engine.classOfWithin
  rw [bind_of_ok (value_of_get? found)]
  cases stored with
  | instanceOf class_ generics =>
    cases isClassObject
    simp only [Engine.classOfValue]
    split <;> rfl
  | tuple _ | typedDict _ =>
    cases isClassObject
    rfl
  | _ => cases isClassObject

/-- What a value binds a type variable to. -/
def Value.binding? (id : ValueId) (stored : Value) : Option Value :=
  if stored.isFunction || stored.isClass then some (.exactly id) else stored.classObject?

/-- A value that is seen binds a type variable to another value. -/
def Arena.Binds (arena : Arena) (seen bound : ValueId) : Prop :=
  ∃ stored value, arena.get? seen = some stored ∧ stored.binding? seen = some value ∧
    arena.get? bound = some value

namespace Arena.Binds

variable {declarations : Declarations} {arena later : Arena} {seen bound other : ValueId}

theorem mono (binds : arena.Binds seen bound) (continues : arena ≤ later) :
    later.Binds seen bound := by
  obtain ⟨stored, value, seenStored, binding, boundStored⟩ := binds
  exact ⟨stored, value, Arena.get?_of_le continues seenStored, binding,
    Arena.get?_of_le continues boundStored⟩

/-- Equal values are one value, so that a variable is bound to one value only. -/
theorem unique (world : World.WellFormed ⟨arena, declarations⟩) (binds : arena.Binds seen bound)
    (otherBinds : arena.Binds seen other) :
    bound = other := by
  obtain ⟨stored, value, seenStored, binding, boundStored⟩ := binds
  obtain ⟨otherStored, otherValue, otherSeen, otherBinding, otherFound⟩ := otherBinds
  rw [seenStored] at otherSeen
  cases otherSeen
  rw [binding] at otherBinding
  cases otherBinding
  have first := (world.indexed value bound).mpr boundStored
  have second := (world.indexed value other).mpr otherFound
  exact Option.some.inj (first.symm.trans second)

theorem ne_none (world : World.WellFormed ⟨arena, declarations⟩) (binds : arena.Binds seen bound) :
    seen ≠ Arena.noneId := by
  rintro rfl
  obtain ⟨stored, value, seenStored, binding, -⟩ := binds
  have noneStored : arena.get? Arena.noneId = some .none := world.noneStored
  rw [noneStored] at seenStored
  cases seenStored
  cases binding

end Arena.Binds

/-- Values that bind a type variable to exactly the members of a set. -/
structure Arena.Instances (arena : Arena) (bound seen : TypeSet) : Prop where
  boundBy : ∀ id ∈ seen, ∃ target ∈ bound, arena.Binds id target
  seenFor : ∀ target ∈ bound, ∃ id ∈ seen, arena.Binds id target

theorem Arena.Instances.mono {arena later : Arena} (instances : arena.Instances bound seen)
    (continues : arena ≤ later) :
    later.Instances bound seen where
  boundBy := fun id member =>
    (instances.boundBy id member).imp fun _ both => ⟨both.1, both.2.mono continues⟩
  seenFor := fun target member =>
    (instances.seenFor target member).imp fun _ both => ⟨both.1, both.2.mono continues⟩

/-- The instance of a class with type arguments. -/
def Declarations.instance (declarations : Declarations) (class_ : ClassId)
    (generics : Generics) : Value :=
  if class_ = Builtin.tuple then .tuple generics
  else if declarations.describesTypedDict class_ then .typedDict class_
  else .instanceOf class_ generics

section Instance

variable {declarations : Declarations} {class_ : ClassId} {generics : Generics}

/-- The class object of an instance has its type arguments, if there are any. -/
theorem Declarations.classObject?_instance (plain : declarations.describesTypedDict class_ = false)
    (parameterized : generics.isUnparameterized = false) :
    (declarations.instance class_ generics).classObject? =
      some (.genericClass class_ generics) := by
  unfold Declarations.instance
  split
  · rename_i same
    rw [same]
    rfl
  · simp [plain, Value.classObject?, parameterized]

theorem Declarations.classObject?_instance_none (proper : class_ ≠ Builtin.tuple) :
    (declarations.instance class_ .none).classObject? = some (.classObject class_) := by
  unfold Declarations.instance
  rw [if_neg proper]
  split <;> rfl

/-- An instance binds a type variable to its class object. -/
theorem Declarations.binding?_instance (id : ValueId) :
    (declarations.instance class_ generics).binding? id =
      (declarations.instance class_ generics).classObject? := by
  unfold Declarations.instance
  split
  · rfl
  · split <;> rfl

end Instance

namespace Judgement

variable {env : Environment} {judgement : Judgement env} {state : State}

/-! ## Classes of instances -/

theorem within_classObject? {declarations : Declarations} {bound : Nat}
    (within : Within declarations bound stored)
    (tupleDeclared : Builtin.tuple.Declared declarations)
    (isClassObject : stored.classObject? = some value) :
    Within declarations bound value := by
  cases stored with
  | instanceOf class_ generics =>
    cases isClassObject
    split
    · exact within.1
    · exact within
  | tuple generics =>
    cases isClassObject
    exact ⟨tupleDeclared, within⟩
  | typedDict class_ =>
    cases isClassObject
    exact within
  | _ => cases isClassObject

/-- The class of an instance is stored when it is looked for. -/
theorem reaches_classOf (admitted : judgement.Admits state)
    (found : state.arena.get? id = some stored) (isClassObject : stored.classObject? = some value) :
    judgement.Reaches state (fun _ => Engine.classOf id) fun after answer =>
      ∃ class_, answer = some class_ ∧ after.arena.get? class_ = some value := by
  have world := admitted.wellFormed.world
  have within := within_classObject? (world.within_of_get? found)
    (within_builtin world.declared (by decide)) isClassObject
  have interned : judgement.Reaches state
      (fun _ => (do return some (← intern value) : Inference (Option ValueId)))
      fun after answer => ∃ class_, answer = some class_ ∧ after.arena.get? class_ = some value :=
    (reaches_intern admitted within (Value.isPlain_of_classObject? isClassObject)).bind
      fun _ class_ afterAdmitted _ stored => reaches_pure afterAdmitted ⟨class_, rfl, stored⟩
  unfold Reaches at interned ⊢
  simp only [classOf_eq_intern found isClassObject]
  exact interned

/-- A value that is seen binds a type variable to what is bound by it. -/
theorem reaches_bindingOf (admitted : judgement.Admits state) {seen bound : ValueId}
    (binds : state.arena.Binds seen bound) :
    judgement.Reaches state (fun _ => Engine.bindingOf seen) fun after set =>
      ∃ id, set = .singleton id ∧ after.arena.Binds seen id := by
  obtain ⟨stored, value, seenStored, binding, -⟩ := binds
  refine reaches_value_bind seenStored ?_
  rw [Value.binding?] at binding
  split at binding
  · rename_i callable
    simp only [if_pos callable]
    have within : env.Scopes state.arena.size (Value.exactly seen) :=
      Arena.lt_size_of_get? seenStored
    refine (reaches_internSet admitted within rfl).imp fun after set _ continues holds => ?_
    obtain ⟨id, rfl, idStored⟩ := holds
    refine ⟨id, rfl, stored, _, Arena.get?_of_le continues seenStored, ?_, idStored⟩
    rw [Value.binding?, if_pos callable]
  · rename_i notCallable
    simp only [if_neg notCallable]
    refine (reaches_classOf admitted seenStored binding).bind
      fun after answer afterAdmitted continues holds => ?_
    obtain ⟨class_, rfl, classStored⟩ := holds
    refine reaches_pure afterAdmitted ⟨class_, rfl, stored, value,
      Arena.get?_of_le continues seenStored, ?_, classStored⟩
    rw [Value.binding?, if_neg notCallable, binding]

/-- The instances of the members of a set bind a type variable to that set. -/
theorem reaches_unifyVariable (admitted : judgement.Admits state)
    (instances : state.arena.Instances bound seen) (variable_ : TypeVariableId) :
    judgement.Reaches state (fun _ => Engine.unifyVariable variable_ seen) fun _ found =>
      found = .singleton variable_ bound := by
  have united := reaches_unionOver Arena.Binds
    (fun _ _ _ _ continues binds => binds.mono continues) admitted
    (fun id member later laterAdmitted continues => by
      obtain ⟨target, -, binds⟩ := instances.boundBy id member
      exact reaches_bindingOf laterAdmitted (binds.mono continues))
  refine united.bind fun after set afterAdmitted continues holds => ?_
  obtain ⟨sources, targets⟩ := holds
  have world := afterAdmitted.wellFormed.world
  have later := instances.mono continues
  have same : set = bound := by
    apply TypeSet.ext_mem
    intro id
    constructor
    · intro member
      obtain ⟨source, sourceMember, binds⟩ := sources id member
      obtain ⟨target, targetMember, targetBinds⟩ := later.boundBy source sourceMember
      rw [binds.unique world targetBinds]
      exact targetMember
    · intro member
      obtain ⟨source, sourceMember, binds⟩ := later.seenFor id member
      obtain ⟨target, targetMember, targetBinds⟩ := targets source sourceMember
      rw [binds.unique world targetBinds]
      exact targetMember
  rw [same]
  exact reaches_pure afterAdmitted rfl

/-! ## Instances of classes -/

theorem reaches_instantiate (admitted : judgement.Admits state)
    (classWithin : env.Scopes state.arena.size class_)
    (within : env.Scopes state.arena.size generics) :
    judgement.Attains state (·.instantiate class_ generics)
      fun after set => ∃ id, set = .singleton id ∧
        after.arena.get? id = some (env.declarations.instance class_ generics) := by
  unfold Engine.instantiate Declarations.instance Declarations.describesTypedDict
  by_cases isTuple : class_ = Builtin.tuple
  · simp only [if_pos isTuple]
    exact reaches_internSet admitted within rfl
  · simp only [if_neg isTuple]
    have declared := (keeps_classDeclaration classWithin).reaches admitted (Nat.le_refl _)
    refine declared.bind fun after declaration afterAdmitted continues holds => ?_
    have larger := Arena.size_le_of_le continues
    rw [holds.1, Option.any_some]
    by_cases isTypedDict : declaration.isTypedDict = true
    · simp only [if_pos isTypedDict]
      exact reaches_internSet afterAdmitted (classWithin.grow larger) rfl
    · simp only [if_neg isTypedDict]
      exact reaches_internSet afterAdmitted ⟨classWithin, within.grow larger⟩ rfl

/-- An instance of a canonical value binds a type variable to that value. -/
theorem reaches_valueInstances_canonical (admitted : judgement.Admits state)
    (found : state.arena.get? id = some stored)
    (canonical : stored.IsCanonical env.declarations state.arena)
    (nested : Nat → TypeSet → Inference TypeSet) :
    judgement.Reaches state
      (fun fuel => (env.stage fuel).valueInstances (nested fuel) id)
      fun after set => ∃ seen, set = .singleton seen ∧ after.arena.Binds seen id := by
  have within := admitted.wellFormed.world.within_of_get? found
  refine reaches_value_bind found ?_
  cases stored with
  | exactly described =>
    obtain ⟨what, whatStored, callable⟩ := canonical
    refine reaches_pure admitted ⟨described, rfl, what, _, whatStored, ?_, found⟩
    rw [Value.binding?, if_pos callable]
  | classObject class_ =>
    refine (reaches_instantiate admitted within within_nil).imp
      fun after set _ continues holds => ?_
    obtain ⟨seen, rfl, seenStored⟩ := holds
    refine ⟨seen, rfl, _, .classObject class_, seenStored, ?_, Arena.get?_of_le continues found⟩
    rw [Declarations.binding?_instance, Declarations.classObject?_instance_none canonical]
  | genericClass class_ generics =>
    refine (reaches_instantiate admitted within.1 within.2).imp
      fun after set _ continues holds => ?_
    obtain ⟨seen, rfl, seenStored⟩ := holds
    refine ⟨seen, rfl, _, _, seenStored, ?_, Arena.get?_of_le continues found⟩
    rw [Declarations.binding?_instance, Declarations.classObject?_instance canonical.2 canonical.1]
  | _ => exact canonical.elim

end Judgement

end TypeInference
