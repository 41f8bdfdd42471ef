import TypeInference.Proofs.FixedTree.Instance

/-!
# The resolution order lists the ancestors

A class descends from another if a chain of declared bases leads there.  Replacing the type
variables of a base changes type arguments only, so that a visit follows declared bases
whatever the type arguments are.  The visit skips what was reached before and still misses
nothing: whatever it reaches, it reaches the bases of before it ends, so that all that was
reached is closed under bases once the first visit has ended.
-/

namespace TypeInference

variable {state later : State} {class_ first : ClassId} {before reached : List Engine.Ancestor}
  {id : ValueId} {stored : Value} {set : TypeSet} {ancestor : Engine.Ancestor}

/-! ## Classes and their bases -/

/-- The class of the class object that an identifier stands for. -/
def Arena.classAt? (arena : Arena) (id : ValueId) : Option ClassId :=
  (arena.get? id).bind Value.class?

def Value.isTypeVariable : Value → Bool
  | typeVariable _ => true
  | _ => false

/-- No member of a set is a type variable, which may stand for anything. -/
def Arena.IsFixed (arena : Arena) (set : TypeSet) : Prop :=
  ∀ id ∈ set, ∀ stored, arena.get? id = some stored → stored.isTypeVariable = false

/-- A set has a class object of a class among its members. -/
def Arena.ListsClass (arena : Arena) (set : TypeSet) (class_ : ClassId) : Prop :=
  ∃ id ∈ set, arena.classAt? id = some class_

namespace Declarations

variable (declarations : Declarations) (arena : Arena)

/-- A class has another one in a declared base. -/
def HasBase (class_ parent : ClassId) : Prop :=
  ∃ declaration, declarations.class? class_ = some declaration ∧
    ∃ base ∈ declaration.bases, arena.ListsClass base parent

/-- A class is another one, or comes to it by declared bases. -/
def Descends : ClassId → ClassId → Prop :=
  Relation.ReflTransGen (declarations.HasBase arena)

/-- No declared base has a type variable for a member. -/
def BasesAreFixed : Prop :=
  ∀ class_ declaration, declarations.class? class_ = some declaration →
    ∀ base ∈ declaration.bases, arena.IsFixed base

end Declarations

instance (declarations : Declarations) (arena : Arena) :
    Decidable (declarations.BasesAreFixed arena) :=
  decidable_of_iff
    (∀ declaration ∈ declarations.classes.toList, ∀ base ∈ declaration.bases,
      ∀ id ∈ base.members, ∀ stored ∈ arena.get? id, stored.isTypeVariable = false)
    ⟨fun fixed _ declaration declared => fixed declaration
        (Array.mem_toList_iff.mpr (Array.mem_of_getElem? declared)),
      fun fixed declaration member => by
        obtain ⟨index, declared⟩ := List.mem_iff_getElem?.mp member
        rw [Array.getElem?_toList] at declared
        exact fixed ⟨index⟩ declaration declared⟩

/--
The classes from which a class descends, itself first and each of them once.  Each of the
others is a declared base of one before it.
-/
structure Declarations.ListsAncestors (declarations : Declarations) (arena : Arena)
    (class_ : ClassId) (classes : List ClassId) : Prop where
  first : classes.head? = some class_
  once : classes.Nodup
  mem_iff : ∀ other, other ∈ classes ↔ declarations.Descends arena class_ other
  based : ∀ before other rest, classes = before ++ other :: rest → before ≠ [] →
    ∃ earlier ∈ before, declarations.HasBase arena earlier other

section Arenas

variable {declarations : Declarations} {arena later : Arena} {id : ValueId} {set : TypeSet}

theorem Arena.classAt?_of_get? (found : arena.get? id = some stored) :
    arena.classAt? id = stored.class? := by
  rw [classAt?, found]
  rfl

theorem Arena.classAt?_of_le (continues : arena ≤ later) (within : id.index < arena.size) :
    later.classAt? id = arena.classAt? id := by
  obtain ⟨stored, found⟩ := Arena.exists_get? within
  rw [classAt?_of_get? found, classAt?_of_get? (Arena.get?_of_le continues found)]

theorem Arena.lt_size_of_classAt? (found : arena.classAt? id = some class_) :
    id.index < arena.size := by
  obtain ⟨stored, isStored, -⟩ := Option.bind_eq_some_iff.mp found
  exact Arena.lt_size_of_get? isStored

theorem Arena.listsClass_of_le (continues : arena ≤ later)
    (within : Within declarations arena.size set) (class_ : ClassId) :
    later.ListsClass set class_ ↔ arena.ListsClass set class_ := by
  refine exists_congr fun id => and_congr_right fun member => ?_
  rw [classAt?_of_le continues (within id member)]

end Arenas

/-! ## Explorations -/

/--
What one part of a search adds to the ancestors that were reached before it: each of them
is of its class, and is a base of one before it, and the bases of what was added are
reached.
-/
structure Declarations.Explores (declarations : Declarations) (origin arena : Arena)
    (before reached : List Engine.Ancestor) : Prop where
  begins : before <+: reached
  stored : ∀ ancestor ∈ reached, arena.classAt? ancestor.value = some ancestor.class_
  based : ∀ earlier other rest, reached.map Engine.Ancestor.class_ = earlier ++ other :: rest →
    earlier ≠ [] → ∃ class_ ∈ earlier, declarations.HasBase origin class_ other
  closed : ∀ ancestor ∈ reached, ancestor ∈ before ∨
    ∀ parent, declarations.HasBase origin ancestor.class_ parent →
      parent ∈ reached.map Engine.Ancestor.class_

namespace Declarations.Explores

variable {declarations : Declarations} {origin arena later : Arena}
  {before between reached : List Engine.Ancestor}

section

variable (explores : declarations.Explores origin arena before reached)

include explores

theorem mem_classes (member : class_ ∈ before.map Engine.Ancestor.class_) :
    class_ ∈ reached.map Engine.Ancestor.class_ :=
  (explores.begins.map _).subset member

theorem refl : declarations.Explores origin arena reached reached :=
  ⟨List.prefix_rfl, explores.stored, explores.based, fun _ member => Or.inl member⟩

theorem mono (continues : arena ≤ later) : declarations.Explores origin later before reached where
  begins := explores.begins
  stored := fun ancestor member => by
    have found := explores.stored ancestor member
    rw [Arena.classAt?_of_le continues (Arena.lt_size_of_classAt? found)]
    exact found
  based := explores.based
  closed := explores.closed

end

theorem trans (first : declarations.Explores origin arena before between)
    (second : declarations.Explores origin later between reached) :
    declarations.Explores origin later before reached where
  begins := first.begins.trans second.begins
  stored := second.stored
  based := second.based
  closed := by
    intro ancestor member
    rcases second.closed ancestor member with inBetween | closed
    · refine (first.closed ancestor inBetween).imp_right fun closed parent isBase => ?_
      exact second.mem_classes (closed parent isBase)
    · exact Or.inr closed

/-- A search that reaches one more ancestor, a base of one that it has reached. -/
theorem based_append (explores : declarations.Explores origin arena before reached)
    (isBase : reached ≠ [] → ∃ ancestor ∈ reached,
      declarations.HasBase origin ancestor.class_ class_) :
    ∀ earlier other rest, reached.map Engine.Ancestor.class_ ++ [class_] =
      earlier ++ other :: rest → earlier ≠ [] →
      ∃ first ∈ earlier, declarations.HasBase origin first other := by
  intro earlier other rest same nonempty
  rcases List.eq_nil_or_concat rest with rfl | ⟨others, last, rfl⟩
  · obtain ⟨rfl, ⟨⟩⟩ := List.append_inj' same rfl
    obtain ⟨ancestor, member, holds⟩ := isBase (by rintro rfl; exact nonempty rfl)
    exact ⟨ancestor.class_, List.mem_map_of_mem member, holds⟩
  · rw [List.concat_eq_append, ← List.cons_append, ← List.append_assoc] at same
    exact explores.based earlier other others (List.append_inj' same rfl).1 nonempty

/-- What was reached from the first class on descends from it. -/
theorem descends_of_mem (explores : declarations.Explores origin arena before reached)
    (head : (reached.map Engine.Ancestor.class_).head? = some first)
    (member : class_ ∈ reached.map Engine.Ancestor.class_) :
    declarations.Descends origin first class_ := by
  obtain ⟨earlier, rest, same⟩ := List.append_of_mem member
  -- The induction is on how many classes were reached before.
  induction length : earlier.length using Nat.strong_induction_on
    generalizing class_ earlier rest with
  | _ count ih =>
    cases earlier with
    | nil =>
      rw [same] at head
      cases head
      exact .refl
    | cons leading others =>
      obtain ⟨child, childMember, isBase⟩ := explores.based _ class_ rest same (by simp)
      obtain ⟨before, after, split⟩ := List.append_of_mem childMember
      have shorter : before.length < count := by
        rw [← length, split]
        simp
      have childSame : reached.map Engine.Ancestor.class_ =
          before ++ child :: (after ++ class_ :: rest) := by
        rw [same, split]
        simp
      exact (ih before.length shorter (by simp [childSame]) before _ childSame rfl).tail isBase

/-- A search that adds to nothing reaches all from which its first class descends. -/
theorem mem_of_descends (explores : declarations.Explores origin arena [] reached)
    (member : first ∈ reached.map Engine.Ancestor.class_)
    (descends : declarations.Descends origin first class_) :
    class_ ∈ reached.map Engine.Ancestor.class_ := by
  induction descends with
  | refl => exact member
  | tail _ isBase ih =>
    obtain ⟨ancestor, ancestorMember, rfl⟩ := List.mem_map.mp ih
    rcases explores.closed ancestor ancestorMember with before | closed
    · cases before
    · exact closed _ isBase

end Declarations.Explores

/-! ## Replaced variables -/

/-- One value, which is a class object of a class or else none. -/
def Arena.HoldsOne (arena : Arena) (set : TypeSet) (class_ : Option ClassId) : Prop :=
  ∃ id, set = .singleton id ∧ id.index < arena.size ∧ arena.classAt? id = class_

theorem Arena.holdsOne_of_get? {arena : Arena} (found : arena.get? id = some stored) :
    arena.HoldsOne (.singleton id) stored.class? :=
  ⟨id, rfl, Arena.lt_size_of_get? found, Arena.classAt?_of_get? found⟩

namespace Judgement

open Inference

variable {env : Environment} {judgement : Judgement env} {state : State}
  {substitution : Substitution}

theorem reaches_internSet_class (matching : judgement.Matching) (admitted : judgement.Admits state)
    (within : env.Scopes state.arena.size stored)
    (noFunction : stored.isFunction = false) (default : TypeSet) :
    judgement.Reaches state
      (fun _ => (do return some (← internSet stored) : Inference (Option TypeSet)))
      fun after replaced => after.arena.HoldsOne (replaced.getD default) stored.class? := by
  have interned : judgement.Reaches state (fun _ => internSet stored)
      fun after set => after.arena.HoldsOne set stored.class? :=
    (reaches_intern_of_matching admitted within noFunction fun _ => matching).bind
      fun _ _ afterAdmitted _ found => reaches_pure afterAdmitted (Arena.holdsOne_of_get? found)
  exact interned.bind fun _ _ afterAdmitted _ holds => reaches_pure afterAdmitted holds

variable (reads : judgement.Reads) (matching : judgement.Matching)

include reads matching

/-- Replacing variables turns a value that is none into one value of the same class. -/
theorem reaches_substituteValue_class (admitted : judgement.Admits state)
    (nestedYields : judgement.YieldsFor state.arena.size nested)
    (found : state.arena.get? id = some stored) (fixed : stored.isTypeVariable = false) :
    judgement.Reaches state
      (fun fuel => (env.stage fuel).substituteValue substitution (nested fuel) id)
      fun after replaced => after.arena.HoldsOne (replaced.getD (.singleton id)) stored.class? := by
  have storedWithin := admitted.wellFormed.world.within_of_get? found
  have stays (after : State) (afterAdmitted : judgement.Admits after)
      (continues : state.arena ≤ after.arena) :
      judgement.Reaches after (fun _ => (pure none : Inference (Option TypeSet)))
        fun final replaced => final.arena.HoldsOne (replaced.getD (.singleton id)) stored.class? :=
    reaches_pure afterAdmitted (Arena.holdsOne_of_get? (Arena.get?_of_le continues found))
  cases stored with
  | typeVariable variable_ => cases fixed
  | genericClass class_ generics =>
    refine reaches_value_bind found (((yields_substituteGenerics reads nestedYields
      storedWithin.2).reaches admitted (Nat.le_refl _)).bind
        fun after changed afterAdmitted continues changedWithin => ?_)
    cases changed with
    | none => exact stays after afterAdmitted continues
    | some replaced =>
      have within : env.Scopes after.arena.size
          (Value.genericClass class_ replaced) := ⟨storedWithin.1, changedWithin replaced rfl⟩
      exact reaches_internSet_class matching afterAdmitted within rfl _
  | special form generics =>
    refine reaches_value_bind found (((yields_substituteGenerics reads nestedYields
      storedWithin).reaches admitted (Nat.le_refl _)).bind
        fun after changed afterAdmitted continues changedWithin => ?_)
    cases changed with
    | none => exact stays after afterAdmitted continues
    | some replaced =>
      exact reaches_internSet_class matching afterAdmitted (changedWithin replaced rfl) rfl _
  | typeList items =>
    refine reaches_value_bind found (((yields_substituteSlots nestedYields
      storedWithin).reaches admitted (Nat.le_refl _)).bind
        fun after changed afterAdmitted continues changedWithin => ?_)
    cases changed with
    | none => exact stays after afterAdmitted continues
    | some replaced =>
      exact reaches_internSet_class matching afterAdmitted (changedWithin replaced rfl) rfl _
  | _ => exact reaches_value_bind found (stays state admitted (Arena.le_refl _))

/-- Replacing variables turns the members of a set one by one into members of their classes. -/
theorem reaches_substituteWithin_classes (levels : Nat) (admitted : judgement.Admits state)
    (within : env.Scopes state.arena.size set)
    (substitutionWithin : env.Scopes state.arena.size substitution)
    (fixed : state.arena.IsFixed set) :
    judgement.Attains state (·.substituteWithin substitution (levels + 1) set)
      fun after replaced =>
        (∀ other ∈ replaced, ∃ id ∈ set, other.index < after.arena.size ∧
          after.arena.classAt? other = state.arena.classAt? id) ∧
        ∀ id ∈ set, ∃ other ∈ replaced, other.index < after.arena.size ∧
          after.arena.classAt? other = state.arena.classAt? id := by
  refine reaches_unionOver
    (fun arena (id other : ValueId) => other.index < arena.size ∧
      arena.classAt? other = state.arena.classAt? id)
    (fun arena later id other continues holds =>
      ⟨Nat.lt_of_lt_of_le holds.1 (Arena.size_le_of_le continues),
        (Arena.classAt?_of_le continues holds.1).trans holds.2⟩)
    admitted fun id member later laterAdmitted continues => ?_
  obtain ⟨stored, found⟩ := Arena.exists_get? (within id member)
  rw [Arena.classAt?_of_get? found]
  refine (reaches_substituteValue_class reads matching laterAdmitted ?_
    (Arena.get?_of_le continues found) (fixed id member stored found)).bind
      fun _ _ afterAdmitted _ holds => reaches_pure afterAdmitted holds
  exact fun moment _ larger setWithin => yields_substituteWithin reads
    (substitutionWithin.grow (Nat.le_trans (Arena.size_le_of_le continues) larger)) levels setWithin

/-- Replacing variables keeps the classes of a set without variables of its own. -/
theorem reaches_substitute_classes (admitted : judgement.Admits state)
    (within : env.Scopes state.arena.size set)
    (substitutionWithin : env.Scopes state.arena.size substitution)
    (fixed : state.arena.IsFixed set) :
    judgement.Attains state (·.substitute set substitution)
      fun after replaced => env.Scopes after.arena.size replaced ∧
        ∀ class_, after.arena.ListsClass replaced class_ ↔ state.arena.ListsClass set class_ := by
  cases nothing : substitution.isEmpty || set.isEmpty with
  | true =>
    simp only [Engine.substitute, nothing, if_true]
    exact reaches_pure admitted ⟨within, fun _ => Iff.rfl⟩
  | false =>
    simp only [Engine.substitute, nothing, Bool.false_eq_true, if_false]
    refine Reaches.imp (reaches_substituteWithin_classes reads matching
      env.settings.unificationDepthLimit admitted within substitutionWithin fixed)
      fun after replaced _ _ holds => ⟨fun other member => ?_, fun class_ => ?_⟩
    · obtain ⟨id, -, otherWithin, -⟩ := holds.1 other member
      exact otherWithin
    · constructor
      · rintro ⟨other, member, ofClass⟩
        obtain ⟨id, idMember, -, same⟩ := holds.1 other member
        exact ⟨id, idMember, same.symm.trans ofClass⟩
      · rintro ⟨id, member, ofClass⟩
        obtain ⟨other, otherMember, -, same⟩ := holds.2 id member
        exact ⟨other, otherMember, same.trans ofClass⟩

end Judgement

/-! ## Visits -/

namespace Judgement

open Inference

variable {env : Environment} {judgement : Judgement env}

/--
One part of a search from some ancestors on, which adds to them what an arena can show and
has enough levels left to go on.
-/
structure Search (environment : Environment) (origin : Arena) (limit : Nat)
    (before : List Engine.Ancestor) (state : State) (reached : List Engine.Ancestor) : Prop where
  once : Reached environment.declarations [] limit state.arena.size reached
  explores : environment.declarations.Explores origin state.arena before reached

/-- A visit extends what was reached by a class object, if it is one, and its ancestors. -/
def Visits (judgement : Judgement env) (origin : Arena) (limit : Nat)
    (visit : Nat → List Engine.Ancestor → ValueId → Inference (List Engine.Ancestor)) : Prop :=
  ∀ state before id, judgement.Admits state → origin ≤ state.arena →
    Within env.declarations state.arena.size id →
    Search env origin limit before state before →
    (before ≠ [] → ∀ class_, state.arena.classAt? id = some class_ →
      ∃ ancestor ∈ before, env.declarations.HasBase origin ancestor.class_ class_) →
    judgement.Reaches state (fun fuel => visit fuel before id) fun after reached =>
      Search env origin limit before after reached ∧
        ∀ class_, state.arena.classAt? id = some class_ →
          class_ ∈ reached.map Engine.Ancestor.class_

variable {origin : Arena} {limit : Nat}
  {visit : Nat → List Engine.Ancestor → ValueId → Inference (List Engine.Ancestor)}

theorem Search.trans (first : Search env origin limit before state between)
    (second : Search env origin limit between later reached) :
    Search env origin limit before later reached :=
  ⟨second.once, first.explores.trans second.explores⟩

theorem Search.mono (search : Search env origin limit before state reached)
    (continues : state.arena ≤ later.arena) :
    Search env origin limit before later reached :=
  ⟨search.once.grow (Arena.size_le_of_le continues), search.explores.mono continues⟩

/-- A search goes on from a class object that was not reached before. -/
theorem Search.append (search : Search env origin (limit + 1) before state before)
    (new : before.any (fun ancestor => ancestor.class_ == class_) = false)
    (isAt : state.arena.classAt? id = some class_)
    (classWithin : env.Scopes state.arena.size class_) (isBase : before ≠ [] → ∃ ancestor ∈ before,
      env.declarations.HasBase origin ancestor.class_ class_) :
    Search env origin limit (before ++ [⟨class_, id⟩]) state (before ++ [⟨class_, id⟩]) where
  once :=
    have within : env.Scopes state.arena.size
        (⟨class_, id⟩ : Engine.Ancestor) := ⟨classWithin, Arena.lt_size_of_classAt? isAt⟩
    search.once.append within new
  explores :=
    { begins := List.prefix_rfl
      stored := by
        intro ancestor member
        rcases List.mem_append.mp member with inBefore | isLast
        · exact search.explores.stored ancestor inBefore
        · rw [List.mem_singleton.mp isLast]
          exact isAt
      based := by
        rw [List.map_append]
        exact search.explores.based_append isBase
      closed := fun _ member => Or.inl member }

/-- What a search adds to a class object whose bases it reaches, it adds to those before. -/
theorem Search.of_append (search : Search env origin limit (before ++ [ancestor]) state reached)
    (bases : ∀ parent, env.declarations.HasBase origin ancestor.class_ parent →
      parent ∈ reached.map Engine.Ancestor.class_) :
    Search env origin (limit + 1) before state reached where
  once := search.once.relax
  explores :=
    { begins := (List.prefix_append _ _).trans search.explores.begins
      stored := search.explores.stored
      based := search.explores.based
      closed := by
        intro other member
        rcases search.explores.closed other member with inStart | closed
        · rcases List.mem_append.mp inStart with inBefore | isLast
          · exact Or.inl inBefore
          · rw [List.mem_singleton.mp isLast]
            exact Or.inr bases
        · exact Or.inr closed }

/-- Visits of parents one by one reach all of them. -/
theorem Visits.foldlM (visits : judgement.Visits origin limit visit)
    (admitted : judgement.Admits state) (continues : origin ≤ state.arena)
    (search : Search env origin limit before state before)
    (within : env.Scopes state.arena.size parents)
    (isBase : ∀ class_, state.arena.ListsClass parents class_ →
      ∃ ancestor ∈ before, env.declarations.HasBase origin ancestor.class_ class_) :
    judgement.Reaches state (fun fuel => parents.members.foldlM (visit fuel) before)
      fun after reached => Search env origin limit before after reached ∧
        ∀ id ∈ parents, ∀ class_, state.arena.classAt? id = some class_ →
          class_ ∈ reached.map Engine.Ancestor.class_ := by
  refine reaches_foldlM
    (fun later done reached => Search env origin limit before later reached ∧
      ∀ id ∈ done, ∀ class_, state.arena.classAt? id = some class_ →
        class_ ∈ reached.map Engine.Ancestor.class_)
    admitted ⟨search, by simp⟩ fun done id member later reached laterAdmitted further holds => ?_
  obtain ⟨laterSearch, doneReached⟩ := holds
  have idWithin := within id member
  have sameClass := Arena.classAt?_of_le further idWithin
  refine (visits later reached id laterAdmitted (Arena.le_trans continues further)
    (idWithin.grow (Arena.size_le_of_le further)) ⟨laterSearch.once, laterSearch.explores.refl⟩
    fun _ class_ ofClass => ?_).imp fun after result _ _ visited => ⟨?_, ?_⟩
  · obtain ⟨ancestor, ancestorMember, holds⟩ :=
      isBase class_ ⟨id, member, sameClass.symm.trans ofClass⟩
    exact ⟨ancestor, laterSearch.explores.begins.subset ancestorMember, holds⟩
  · exact laterSearch.trans visited.1
  · intro other otherMember class_ ofClass
    rcases List.mem_append.mp otherMember with inDone | isLast
    · exact visited.1.explores.mem_classes (doneReached other inDone class_ ofClass)
    · rw [List.mem_singleton.mp isLast] at ofClass
      exact visited.2 class_ (sameClass.trans ofClass)

variable (reads : judgement.Reads) (matching : judgement.Matching)

include reads matching

/-- Visits of the members of one base reach all of them, whatever its variables stand for. -/
theorem Visits.base (visits : judgement.Visits origin limit visit)
    (admitted : judgement.Admits state) (continues : origin ≤ state.arena)
    (search : Search env origin limit before state before) {base : TypeSet}
    (baseWithin : env.Scopes origin.size base) (fixed : origin.IsFixed base)
    (isBase : ∀ class_, origin.ListsClass base class_ →
      ∃ ancestor ∈ before, env.declarations.HasBase origin ancestor.class_ class_)
    (bindingsWithin : env.Scopes state.arena.size bindings) :
    judgement.Reaches state
      (fun fuel => do
        let parents ← (env.stage fuel).substitute base bindings
        parents.members.foldlM (visit fuel) before)
      fun after reached => Search env origin limit before after reached ∧
        ∀ class_, origin.ListsClass base class_ → class_ ∈ reached.map Engine.Ancestor.class_ := by
  have stillFixed : state.arena.IsFixed base := by
    intro id member stored found
    obtain ⟨first, isStored⟩ := Arena.exists_get? (baseWithin id member)
    rw [Arena.get?_of_le continues isStored] at found
    cases found
    exact fixed id member stored isStored
  refine (reaches_substitute_classes reads matching admitted
    (baseWithin.grow (Arena.size_le_of_le continues)) bindingsWithin stillFixed).bind
      fun between parents betweenAdmitted toBetween holds => ?_
  obtain ⟨parentsWithin, sameClasses⟩ := holds
  have listed : ∀ class_, between.arena.ListsClass parents class_ ↔ origin.ListsClass base class_ :=
    fun class_ => (sameClasses class_).trans (Arena.listsClass_of_le continues baseWithin class_)
  refine (visits.foldlM betweenAdmitted (Arena.le_trans continues toBetween)
    (search.mono toBetween) parentsWithin
    fun class_ isListed => isBase class_ ((listed class_).mp isListed)).imp
      fun after reached _ _ visited => ⟨visited.1, fun class_ isListed => ?_⟩
  obtain ⟨id, member, ofClass⟩ := (listed class_).mpr isListed
  exact visited.2 id member class_ ofClass

section

variable (world : World.WellFormed ⟨origin, env.declarations⟩)
  (fixed : env.declarations.BasesAreFixed origin)

include world fixed

/-- Visits of the bases of a class reach all of them. -/
theorem Visits.bases (visits : judgement.Visits origin limit visit)
    (admitted : judgement.Admits state) (continues : origin ≤ state.arena)
    (search : Search env origin limit before state before) (member : ancestor ∈ before) :
    judgement.Reaches state
      (fun fuel => (env.stage fuel).visitBases (visit fuel) before ancestor.class_ ancestor.value)
      fun after reached => Search env origin limit before after reached ∧
        ∀ parent, env.declarations.HasBase origin ancestor.class_ parent →
          parent ∈ reached.map Engine.Ancestor.class_ := by
  have ancestorWithin := search.once.within ancestor member
  obtain ⟨declaration, declared⟩ :
      ∃ declaration, env.declarations.class? ancestor.class_ = some declaration :=
    ⟨_, Array.getElem?_eq_getElem ancestorWithin.1⟩
  have basesWithin := (world.declared.classes _ _ declared).bases
  refine ((yields_classBindings reads ancestorWithin.2).reaches admitted (Nat.le_refl _)).bind
    fun bound bindings boundAdmitted toBound bindingsWithin => ?_
  simp only [classDeclaration_stage declared, pure_bind]
  refine (reaches_foldlM
    (fun later done reached => Search env origin limit before later reached ∧
      ∀ base ∈ done, ∀ parent, origin.ListsClass base parent →
        parent ∈ reached.map Engine.Ancestor.class_)
    boundAdmitted ⟨search.mono toBound, by simp⟩
    fun done base baseMember later reached laterAdmitted further holds => ?_).imp
      fun after reached _ _ holds => ⟨holds.1, ?_⟩
  · obtain ⟨laterSearch, doneReached⟩ := holds
    have isBase : ∀ class_, origin.ListsClass base class_ →
        ∃ ancestor ∈ reached, env.declarations.HasBase origin ancestor.class_ class_ :=
      fun class_ isListed => ⟨ancestor, laterSearch.explores.begins.subset member,
        declaration, declared, base, baseMember, isListed⟩
    refine (visits.base reads matching laterAdmitted
      (Arena.le_trans continues (Arena.le_trans toBound further))
      ⟨laterSearch.once, laterSearch.explores.refl⟩ (basesWithin base baseMember)
      (fixed _ declaration declared base baseMember) isBase
      (bindingsWithin.grow (Arena.size_le_of_le further))).imp
        fun after result _ _ visited => ⟨laterSearch.trans visited.1, ?_⟩
    intro other otherMember parent isListed
    rcases List.mem_append.mp otherMember with inDone | isLast
    · exact visited.1.explores.mem_classes (doneReached other inDone parent isListed)
    · rw [List.mem_singleton.mp isLast] at isListed
      exact visited.2 parent isListed
  · rintro parent ⟨found, isFound, base, baseMember, isListed⟩
    rw [declared] at isFound
    cases isFound
    exact holds.2 base baseMember parent isListed

/-- Visits that nest ever more deeply reach all ancestors. -/
theorem visits_visitWithin (limit : Nat) :
    judgement.Visits origin limit fun fuel => (env.stage fuel).visitWithin limit := by
  induction limit with
  | zero =>
    intro state before id _ _ _ search _
    exact absurd search.once.limit_pos (Nat.lt_irrefl 0)
  | succ limit ih =>
    intro state before id admitted continues within search isBase
    obtain ⟨stored, found⟩ := Arena.exists_get? within
    have ofStored := Arena.classAt?_of_get? found
    refine reaches_value_bind found ?_
    cases ofClass : stored.class? with
    | none =>
      refine reaches_pure admitted ⟨search, fun class_ isClass => ?_⟩
      rw [ofStored, ofClass] at isClass
      cases isClass
    | some class_ =>
      refine reaches_ite (fun known => ?_) fun new => ?_
      · refine reaches_pure admitted ⟨search, fun other isClass => ?_⟩
        rw [ofStored, ofClass] at isClass
        cases isClass
        obtain ⟨ancestor, member, same⟩ := List.any_eq_true.mp known
        exact List.mem_map.mpr ⟨ancestor, member, eq_of_beq same⟩
      · have isAt : state.arena.classAt? id = some class_ := ofStored.trans ofClass
        have appended := search.append (Bool.eq_false_iff.mpr new) isAt
          (within_class? (admitted.wellFormed.world.within_of_get? found) ofClass)
          fun nonempty => isBase nonempty class_ isAt
        refine (ih.bases reads matching world fixed admitted continues appended
          (List.mem_append_right _ (List.mem_singleton_self _))).imp
            fun after reached _ _ visited => ⟨visited.1.of_append visited.2, ?_⟩
        intro other isClass
        rw [isAt] at isClass
        cases isClass
        exact visited.1.explores.mem_classes (by simp)

end

/-- The ancestors of a class object are found, each of them once and none but them. -/
theorem reaches_ancestors (admitted : judgement.Admits state)
    (fixed : env.declarations.BasesAreFixed state.arena)
    (isAt : state.arena.classAt? id = some class_) :
    judgement.Attains state (·.ancestors id)
      fun after reached => reached.head? = some ⟨class_, id⟩ ∧
        (∀ ancestor ∈ reached, after.arena.classAt? ancestor.value = some ancestor.class_) ∧
        env.declarations.ListsAncestors state.arena class_
          (reached.map Engine.Ancestor.class_) := by
  have world := admitted.wellFormed.world
  obtain ⟨stored, found, ofClass⟩ := Option.bind_eq_some_iff.mp isAt
  have nothing : Search env state.arena (env.declarations.classes.size + 1) [] state [] :=
    { once := ⟨within_nil, List.nodup_nil, by simp, List.prefix_rfl⟩
      explores :=
        { begins := List.prefix_rfl
          stored := by simp
          based := by simp
          closed := by simp } }
  have start := nothing.append rfl isAt (within_class? (world.within_of_get? found) ofClass)
    fun nonempty => absurd rfl nonempty
  refine reaches_value_bind found ?_
  simp only [ofClass]
  refine ((visits_visitWithin reads matching world fixed _).bases reads matching world fixed
    admitted (Arena.le_refl _) start (List.mem_singleton_self _)).imp
      fun after reached _ _ visited => ?_
  have search := visited.1.of_append visited.2
  obtain ⟨others, rfl⟩ := visited.1.explores.begins
  exact ⟨rfl, search.explores.stored,
    { first := rfl
      once := search.once.once
      mem_iff := fun other => ⟨search.explores.descends_of_mem rfl,
        search.explores.mem_of_descends (by simp)⟩
      based := search.explores.based }⟩

end Judgement

/-! ## Resolution orders and subclasses -/

/-- Whether a class object is of a subclass is answered in one way, with enough fuel. -/
def Environment.AnswersSubclass (environment : Environment) (state : State) (id : ValueId)
    (ancestor : ClassId) (answer : Bool) : Prop :=
  ∃ enough after, ∀ fuel, enough ≤ fuel →
    (environment.engine fuel).isSubclass id ancestor state = .ok (answer, after)

/-- There is but one answer. -/
theorem Environment.AnswersSubclass.eq {env : Environment} {ancestor : ClassId}
    {answer other : Bool} (answers : env.AnswersSubclass state id ancestor answer)
    (otherAnswers : env.AnswersSubclass state id ancestor other) :
    answer = other := by
  obtain ⟨enough, after, succeeds⟩ := answers
  obtain ⟨more, otherAfter, otherSucceeds⟩ := otherAnswers
  have first := succeeds (max enough more) (Nat.le_max_left _ _)
  rw [otherSucceeds (max enough more) (Nat.le_max_right _ _)] at first
  cases first
  rfl

section Orders

variable {env : Environment} {tree : Tree} {base : Nat} {state : State} {id : ValueId}
  {class_ : ClassId}

variable {judgement : Judgement env}

section

variable (reads : judgement.Reads) (matching : judgement.Matching)
  (admitted : judgement.Admits state) (fixed : env.declarations.BasesAreFixed state.arena)
  (isAt : state.arena.classAt? id = some class_)

include reads matching admitted fixed isAt

theorem Judgement.reaches_resolutionOrder :
    judgement.Attains state (·.resolutionOrder id)
      fun after order => order.head? = some id ∧
        ∃ classes, order.map after.arena.classAt? = classes.map some ∧
          env.declarations.ListsAncestors state.arena class_ classes := by
  refine (reaches_ancestors reads matching admitted fixed isAt).bind
    fun after reached afterAdmitted _ holds => reaches_pure afterAdmitted ?_
  obtain ⟨first, stored, lists⟩ := holds
  refine ⟨by rw [List.head?_map, first]; rfl, _, ?_, lists⟩
  rw [List.map_map, List.map_map]
  exact List.map_congr_left stored

/-- An ancestor of a class is found where the class descends from it. -/
theorem Judgement.reaches_isSubclass (ancestor : ClassId) :
    judgement.Attains state (·.isSubclass id ancestor)
      fun _ answer => answer = true ↔ env.declarations.Descends state.arena class_ ancestor := by
  have found : judgement.Attains state (·.ancestor? id ancestor) fun _ found =>
        found.isSome = true ↔ env.declarations.Descends state.arena class_ ancestor := by
    refine (reaches_ancestors reads matching admitted fixed isAt).bind
      fun _ reached afterAdmitted _ holds => reaches_pure afterAdmitted ?_
    rw [← holds.2.2.mem_iff, Option.isSome_map, List.find?_isSome, List.mem_map]
    simp only [beq_iff_eq]
  exact found.bind fun _ _ afterAdmitted _ holds => reaches_pure afterAdmitted holds

end

/-- A class object is of a subclass exactly if its class descends. -/
theorem answersSubclass_iff (provider : env.provider = tree.fixedProvider)
    (inScope : tree.InScope env.declarations base)
    (admitted : (Judgement.total env (.spanning base)).Admits state)
    (fixed : env.declarations.BasesAreFixed state.arena)
    (isAt : state.arena.classAt? id = some class_) (ancestor : ClassId) (answer : Bool) :
    env.AnswersSubclass state id ancestor answer ↔
      (answer = true ↔ env.declarations.Descends state.arena class_ ancestor) := by
  have reads : (Judgement.total env (.spanning base)).Reads :=
    Judgement.total_reads_of_inScope provider inScope fun spans => spans
  obtain ⟨enough, ⟨found, after⟩, ⟨-, -, isFound⟩, succeeds⟩ :=
    Judgement.reaches_isSubclass reads trivial admitted fixed isAt ancestor
  simp only [env.stage_eq_engine] at succeeds
  have answers : env.AnswersSubclass state id ancestor found := ⟨enough, after, succeeds⟩
  refine ⟨fun others => ?_, fun iff => ?_⟩
  · rw [← answers.eq others]
    exact isFound
  · have same : found = answer := Bool.eq_iff_iff.mpr (isFound.trans iff.symm)
    exact same ▸ answers

end Orders

/--
The resolution order of a class object lists its ancestors: itself first, then class objects
only, one of each class that a chain of declared bases leads to and of no other, each of
them of a class that is a declared base of one before it.  So a class object is of a subclass
exactly if its class descends, which is reflexive and transitive and has nothing to do with
type arguments.
-/
theorem resolutionOrder_lists_ancestors
    {environment : Environment}
    {tree : Tree}
    (provider : environment.provider = tree.fixedProvider)
    {base : Nat}
    (inScope : tree.InScope environment.declarations base)
    {state : State}
    (larger : base ≤ state.arena.size)
    (wellFormed : state.WellFormed environment.declarations)
    (fixed : environment.declarations.BasesAreFixed state.arena)
    {id : ValueId}
    {class_ : ClassId}
    (isAt : state.arena.classAt? id = some class_) :
    (∃ enough order classes after,
      (∀ fuel, enough ≤ fuel →
        environment.answer fuel (.resolutionOrder id) state = .ok (order, after)) ∧
      order.head? = some id ∧
      order.map after.arena.classAt? = classes.map some ∧
      environment.declarations.ListsAncestors state.arena class_ classes) ∧
    (∀ ancestor answer, environment.AnswersSubclass state id ancestor answer ↔
      (answer = true ↔ environment.declarations.Descends state.arena class_ ancestor)) ∧
    environment.AnswersSubclass state id class_ true ∧
    (∀ other otherClass ancestor, state.arena.classAt? other = some otherClass →
      environment.AnswersSubclass state id otherClass true →
      environment.AnswersSubclass state other ancestor true →
      environment.AnswersSubclass state id ancestor true) ∧
    ∀ other ancestor answer, state.arena.classAt? other = some class_ →
      (environment.AnswersSubclass state other ancestor answer ↔
        environment.AnswersSubclass state id ancestor answer) := by
  have admitted : (Judgement.total environment (.spanning base)).Admits state :=
    ⟨wellFormed, larger⟩
  have reads : (Judgement.total environment (.spanning base)).Reads :=
    Judgement.total_reads_of_inScope provider inScope fun spans => spans
  have subclass {other : ValueId} {otherClass : ClassId}
      (otherAt : state.arena.classAt? other = some otherClass) :=
    answersSubclass_iff provider inScope admitted fixed otherAt
  have holds {other : ValueId} {otherClass ancestor : ClassId}
      (otherAt : state.arena.classAt? other = some otherClass) :
      environment.AnswersSubclass state other ancestor true ↔
        environment.declarations.Descends state.arena otherClass ancestor :=
    (subclass otherAt ancestor true).trans (by simp)
  refine ⟨?_, subclass isAt, (holds isAt).mpr .refl, ?_, ?_⟩
  · obtain ⟨enough, ⟨order, after⟩, ⟨-, -, first, classes, ofClasses, lists⟩, succeeds⟩ :=
      Judgement.reaches_resolutionOrder reads trivial admitted fixed isAt
    simp only [environment.stage_eq_engine] at succeeds
    exact ⟨enough, order, classes, after, succeeds, first, ofClasses, lists⟩
  · intro other otherClass ancestor otherAt first second
    exact (holds isAt).mpr (((holds isAt).mp first).trans ((holds otherAt).mp second))
  · intro other ancestor answer otherAt
    rw [subclass otherAt, subclass isAt]

/--
Classes in a circle, where two ways lead from the bottom to the top and the top is based on
the bottom again, and a class object of the bottom whose type arguments were not read.
-/
def World.knotted : World :=
  let (variable_, declared) := World.initial.declarations.addTypeVariable "T"
  let (top, declared) := declared.addClass { name := "Top", bases := [.singleton ⟨23⟩] }
  let (left, declared) := declared.addClass
    { name := "Left", typeParameters := [variable_], bases := [.singleton ⟨19⟩] }
  let (right, declared) := declared.addClass { name := "Right", bases := [.ofList [⟨6⟩, ⟨19⟩]] }
  let (bottom, declared) := declared.addClass
    { name := "Bottom", typeParameters := [variable_],
      bases := [.singleton ⟨21⟩, .singleton ⟨22⟩] }
  { arena := World.initial.arena.append
      [.classObject top, .typeVariable variable_,
        .genericClass left (.ofSlots [.singleton ⟨20⟩]), .classObject right,
        .genericClass bottom (.ofSlots [.singleton ⟨4⟩]), .genericClass bottom (.lazy ⟨0⟩)]
    declarations := declared }

/-- The search comes to an end in the circle, and reaches what both ways lead to. -/
theorem resolutionOrder_lists_ancestors_of_knotted :
    let tree : Tree := { nodes := #[.fixed (.singleton ⟨5⟩)] }
    let environment : Environment :=
      { declarations := World.knotted.declarations, provider := tree.fixedProvider }
    let state := environment.start World.knotted.arena
    environment.declarations.BasesAreFixed state.arena ∧
      environment.declarations.Descends state.arena ⟨15⟩ ⟨18⟩ ∧
      state.arena.get? ⟨24⟩ = some (.genericClass ⟨18⟩ (.lazy ⟨0⟩)) ∧
      (∃ enough order classes after,
        (∀ fuel, enough ≤ fuel →
          environment.answer fuel (.resolutionOrder ⟨24⟩) state = .ok (order, after)) ∧
        order.head? = some ⟨24⟩ ∧
        order.map after.arena.classAt? = classes.map some ∧
        environment.declarations.ListsAncestors state.arena ⟨18⟩ classes) ∧
      environment.AnswersSubclass state ⟨24⟩ ⟨15⟩ true ∧
      environment.AnswersSubclass state ⟨24⟩ Builtin.iterable true := by
  intro tree environment state
  have wellFormed : World.knotted.WellFormed := .ofChecks (by decide +kernel) (by decide +kernel)
  have inScope : tree.InScope environment.declarations World.knotted.arena.size := by
    refine ⟨fun node => ?_, fun _ _ found => nomatch found⟩
    obtain ⟨index⟩ := node
    cases index with
    | zero => decide +kernel
    | succ index => exact within_empty
  have fixed : environment.declarations.BasesAreFixed state.arena := by decide +kernel
  have isAt : state.arena.classAt? ⟨24⟩ = some ⟨18⟩ := rfl
  have toLeft : environment.declarations.HasBase state.arena ⟨18⟩ ⟨16⟩ :=
    ⟨_, rfl, .singleton ⟨21⟩, by decide, ⟨21⟩, by simp, rfl⟩
  have toRight : environment.declarations.HasBase state.arena ⟨18⟩ ⟨17⟩ :=
    ⟨_, rfl, .singleton ⟨22⟩, by decide, ⟨22⟩, by simp, rfl⟩
  have toTop : environment.declarations.HasBase state.arena ⟨16⟩ ⟨15⟩ :=
    ⟨_, rfl, .singleton ⟨19⟩, by decide, ⟨19⟩, by simp, rfl⟩
  have toBottom : environment.declarations.HasBase state.arena ⟨15⟩ ⟨18⟩ :=
    ⟨_, rfl, .singleton ⟨23⟩, by decide, ⟨23⟩, by simp, rfl⟩
  have toIterable : environment.declarations.HasBase state.arena ⟨17⟩ Builtin.iterable :=
    ⟨_, rfl, .ofList [⟨6⟩, ⟨19⟩], by decide, ⟨6⟩, TypeSet.mem_of_contains rfl, rfl⟩
  obtain ⟨lists, subclass, -⟩ := resolutionOrder_lists_ancestors rfl inScope (Nat.le_refl _)
    (.ofWorld wellFormed _) fixed isAt
  refine ⟨fixed, .single toBottom, rfl, lists, (subclass _ _).mpr ?_, (subclass _ _).mpr ?_⟩
  · exact iff_of_true rfl (.tail (.single toLeft) toTop)
  · exact iff_of_true rfl (.tail (.single toRight) toIterable)

end TypeInference
