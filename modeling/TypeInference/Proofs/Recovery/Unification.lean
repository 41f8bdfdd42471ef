import TypeInference.Proofs.Recovery.Instance

/-!
# Unifying an annotation with what it describes

If an annotation is unified with what is seen of it, where the bindings of a
substitution fill in its variables, then every variable that it mentions is bound as
before.  The type arguments of a class are found in the class of the instance, which is
the ancestor of its own class; those of tuples and iterables of one kind of element are
found by iterating over them.
-/

namespace TypeInference

open Inference

variable {id : ValueId} {term argument : TypeTerm} {slots filledSlots : List TypeSet}
  {homogeneous : Bool} {slot seen : TypeSet} {class_ : ClassId}

namespace Judgement

variable {env : Environment} {judgement : Judgement env} {state : State}
  {substitution : Substitution}

/-! ## Elements -/

theorem reaches_deferKnown (admitted : judgement.Admits state) (set : TypeSet) :
    judgement.Reaches state (fun _ => Engine.deferKnown set) fun after deferred =>
      after.arena = state.arena ∧
        ∃ cell, deferred = .known cell set ∧ after.cells[cell.index]? = some none :=
  reaches_of_ok (fun _ => rfl) ⟨admitted.wellFormed.pushCell, admitted.invariant⟩
    (Arena.le_refl _) ⟨rfl, ⟨state.cells.size⟩, rfl, by simp⟩

/-- One deferred value is found, which is known as what an annotation describes. -/
def Defers (declarations : Declarations) (substitution : Substitution) (term : TypeTerm)
    (after : State) (found : Option (List Deferred)) : Prop :=
  ∃ cell seen, found = some [.known cell seen] ∧ after.cells[cell.index]? = some none ∧
    term.Described declarations substitution after.arena seen

/-- The instances that an annotation describes are deferred as known. -/
theorem reaches_deferred_instances (admitted : judgement.Admits state)
    (shallow : term.depth ≤ env.settings.unificationDepthLimit)
    (transparent : term.IsTransparent env.declarations)
    (filled : term.Filled env.declarations substitution state.arena slot) :
    judgement.Reaches state
      (fun fuel => do
        let seen ← (env.stage fuel).instances slot
        let deferred ← Engine.deferKnown seen
        pure (some [deferred]))
      (Defers env.declarations substitution term) := by
  refine (reaches_instances admitted shallow transparent filled).bind
    fun after seen afterAdmitted _ described => ?_
  refine (reaches_deferKnown afterAdmitted seen).bind fun final deferred finalAdmitted _ holds => ?_
  obtain ⟨sameArena, cell, rfl, unanswered⟩ := holds
  exact reaches_pure finalAdmitted ⟨cell, seen, rfl, unanswered, sameArena ▸ described⟩

/-- What iterating over one value yields is known at once, if it is of one kind. -/
theorem reaches_elementSet (elements : judgement.Attains state (·.elements id)
      (Defers env.declarations substitution term)) :
    judgement.Attains state (·.elementSet (.singleton id))
      fun after seen => term.Described env.declarations substitution after.arena seen := by
  simp only [Attains, elementSet_singleton]
  refine elements.bind fun after found afterAdmitted _ holds => ?_
  obtain ⟨cell, seen, rfl, unanswered, described⟩ := holds
  have resolved : ∀ fuel, (do
      unionOver (env.stage fuel).resolve
        (← Engine.mergeRows (some [Deferred.known cell seen]).toList) : Inference TypeSet) after =
      .ok (seen, { after with
        cells := after.cells.modify cell.index (fun present => present.or (some seen)) }) := by
    intro fuel
    have merged : Engine.mergeRows [[Deferred.known cell seen]] = pure [.known cell seen] := rfl
    have unknown : cellAnswer? cell after = .ok (none, after) := by
      simp [cellAnswer?, unanswered]
    simp only [Option.toList_some, merged, pure_bind, unionOver_singleton, Engine.resolve]
    exact bind_of_ok unknown
  have within := described.within afterAdmitted.wellFormed.world
  exact reaches_of_ok resolved
    ⟨afterAdmitted.wellFormed.fillCell within cell, afterAdmitted.invariant⟩
    (Arena.le_refl _) described

/-! ## Type arguments -/

/-- A unifier recovers a substitution from what is seen of an annotation. -/
structure Recovers (judgement : Judgement env) (substitution : Substitution)
    (nested : Nat → Engine.Unifier) (term : TypeTerm) : Prop where
  shallow : term.depth ≤ env.settings.unificationDepthLimit
  transparent : term.IsTransparent env.declarations
  unifies : ∀ state hint seen, judgement.Admits state → term.Open state.arena hint →
    term.Described env.declarations substitution state.arena seen →
    judgement.Reaches state (fun fuel => nested fuel hint seen) fun _ found =>
      found = substitution.restrict term.mentions

/-- A substitution is recovered from the instances of an annotation that it fills in. -/
theorem Recovers.unifies_instances (recovers : judgement.Recovers substitution nested term)
    (admitted : judgement.Admits state) (slotOpen : term.Open state.arena slot)
    (slotFilled : term.Filled env.declarations substitution state.arena filledSlot) :
    judgement.Reaches state
      (fun fuel => do nested fuel slot (← (env.stage fuel).instances filledSlot))
      fun _ found => found = substitution.restrict term.mentions :=
  (reaches_instances admitted recovers.shallow recovers.transparent slotFilled).bind
    fun after seen afterAdmitted continues described =>
      recovers.unifies after slot seen afterAdmitted (slotOpen.mono continues) described

section Arguments

variable {nested : Nat → Engine.Unifier} {arguments : List TypeTerm}
  (recovers : ∀ argument ∈ arguments, judgement.Recovers substitution nested argument)
  (reads : judgement.Reads) (admitted : judgement.Admits state)

include recovers

/-! ## Elements of one kind -/

/-- The type argument that stands for every element is unified with the elements. -/
theorem reaches_unify_elements (isArgument : argument ∈ arguments)
    (slotOpen : argument.Open state.arena slot) (elements : judgement.Attains state (·.elements id)
      (Defers env.declarations substitution argument)) :
    judgement.Reaches state
      (fun fuel => do
        nested fuel slot (← (env.stage fuel).elementSet (.singleton id)))
      fun _ found => found = substitution.restrict (TypeTerm.mentionsOfAll [argument]) := by
  refine (reaches_elementSet elements).bind fun after seen afterAdmitted continues described => ?_
  rw [TypeTerm.mentionsOfAll_singleton]
  exact (recovers argument isArgument).unifies after slot seen afterAdmitted
    (slotOpen.mono continues) described

include admitted

/-- Iterating over a tuple of one kind of item yields the instances of that kind. -/
theorem reaches_elements_tuple (isArgument : argument ∈ arguments)
    (slotFilled : argument.Filled env.declarations substitution state.arena slot)
    (found : state.arena.get? id = some (.tuple (.resolved ⟨[slot], true⟩))) :
    judgement.Attains state (·.elements id) (Defers env.declarations substitution argument) := by
  have own := recovers argument isArgument
  refine reaches_value_bind found ?_
  simp only [Engine.tupleElements, Engine.typeArguments, pure_bind, if_true, bind_assoc]
  exact reaches_deferred_instances admitted own.shallow own.transparent slotFilled

include reads in
/-- Iterating over an instance of the iterable class yields the instances of its type argument. -/
theorem reaches_elements_iterable (isArgument : argument ∈ arguments)
    (slotFilled : argument.Filled env.declarations substitution state.arena slot)
    (found : state.arena.get? id =
      some (.instanceOf Builtin.iterable (.resolved ⟨[slot], homogeneous⟩))) :
    judgement.Attains state (·.elements id) (Defers env.declarations substitution argument) := by
  have own := recovers argument isArgument
  have isClassObject : (Value.instanceOf Builtin.iterable
      (.resolved ⟨[slot], homogeneous⟩)).classObject? =
        some (.genericClass Builtin.iterable (.resolved ⟨[slot], homogeneous⟩)) := rfl
  refine reaches_value_bind found ?_
  refine (reaches_classOf admitted found isClassObject).bind
    fun first answer firstAdmitted firstContinues holds => ?_
  obtain ⟨class_, rfl, classStored⟩ := holds
  refine (reaches_ancestor?_self reads firstAdmitted classStored rfl).bind
    fun second ancestor secondAdmitted secondContinues same => ?_
  subst same
  have continues := Arena.le_trans firstContinues secondContinues
  refine reaches_value_bind (Arena.get?_of_le secondContinues classStored) ?_
  exact reaches_deferred_instances secondAdmitted own.shallow own.transparent
    (slotFilled.mono continues)

/-! ## Tuples, iterables and other classes -/

section Slots

variable (slotsOpen : List.Forall₂ (TypeTerm.Open state.arena) arguments slots)
  (slotsFilled : List.Forall₂
    (TypeTerm.Filled env.declarations substitution state.arena) arguments filledSlots)

include slotsOpen slotsFilled

theorem reaches_mergeOver_unifySlot :
    judgement.Reaches state
      (fun fuel => mergeOver ((env.stage fuel).unifySlot (nested fuel)) (slots.zip filledSlots))
      fun _ found => found = substitution.restrict (TypeTerm.mentionsOfAll arguments) := by
  induction arguments generalizing state slots filledSlots with
  | nil =>
    cases slotsOpen
    exact reaches_pure admitted (Substitution.restrict_nil substitution).symm
  | cons argument arguments ih =>
    cases slotsOpen with
    | cons slotOpen restOpen =>
      cases slotsFilled with
      | cons slotFilled restFilled =>
        have unified := (recovers argument (by simp)).unifies_instances admitted slotOpen slotFilled
        refine unified.bind fun after first afterAdmitted continues firstFound => ?_
        have rest := ih (fun other member => recovers other (by simp [member]))
          afterAdmitted (restOpen.imp fun _ _ isOpen => TypeTerm.Open.mono isOpen continues)
          (restFilled.imp fun _ _ filled => TypeTerm.Filled.mono filled continues)
        refine rest.bind fun final others finalAdmitted _ othersFound => ?_
        rw [firstFound, othersFound, Substitution.merge_restrict]
        exact reaches_pure finalAdmitted rfl

theorem reaches_unifyPairwise (found : state.arena.get? argumentClass =
      some (.genericClass class_ (.resolved ⟨filledSlots, filledHomogeneous⟩))) :
    judgement.Reaches state
      (fun fuel => (env.stage fuel).unifyPairwise (nested fuel)
        (.resolved ⟨slots, homogeneous⟩) argumentClass)
      fun _ found => found = substitution.restrict (TypeTerm.mentionsOfAll arguments) :=
  reaches_value_bind found (reaches_mergeOver_unifySlot recovers admitted slotsOpen slotsFilled)

theorem reaches_unifyTuple (single : homogeneous = true → arguments.length = 1)
    (found : state.arena.get? id = some (.tuple (.resolved ⟨filledSlots, homogeneous⟩))) :
    judgement.Reaches state
      (fun fuel => (env.stage fuel).unifyTuple (nested fuel)
        (.resolved ⟨slots, homogeneous⟩) (.singleton id))
      fun _ found => found = substitution.restrict (TypeTerm.mentionsOfAll arguments) := by
  have isTuple : Engine.isTuple id state = .ok (true, state) := bind_of_ok (value_of_get? found)
  have tuples : Engine.tuplesIn (.singleton id) state = .ok (.singleton id, state) := by
    simp only [Engine.tuplesIn, TypeSet.members_singleton, unionOver_singleton]
    exact bind_of_ok isTuple
  have nonempty : (TypeSet.singleton id).isEmpty = false := rfl
  refine reaches_bind_of_ok (fun _ => tuples) ?_
  simp only [nonempty, Bool.false_eq_true, if_false, Engine.typeArguments, pure_bind]
  cases homogeneous with
  | true =>
    obtain ⟨argument, rfl⟩ := List.length_eq_one_iff.mp (single rfl)
    cases slotsOpen with
    | cons slotOpen noneOpen =>
      cases noneOpen
      cases slotsFilled with
      | cons slotFilled noneFilled =>
        cases noneFilled
        have isArgument : argument ∈ [argument] := by simp
        exact reaches_unify_elements recovers isArgument slotOpen
          (reaches_elements_tuple recovers admitted isArgument slotFilled found)
  | false =>
    simp only [Bool.false_eq_true, if_false, TypeSet.members_singleton, mergeOver_singleton]
    refine (reaches_classOf admitted found rfl).bind
      fun after answer afterAdmitted continues holds => ?_
    obtain ⟨class_, rfl, classStored⟩ := holds
    exact reaches_unifyPairwise recovers afterAdmitted
      (slotsOpen.imp fun _ _ isOpen => TypeTerm.Open.mono isOpen continues)
      (slotsFilled.imp fun _ _ filled => TypeTerm.Filled.mono filled continues) classStored

include reads

theorem reaches_unifyInstance (parameterized : filledSlots ≠ []) (found : state.arena.get? id =
      some (.instanceOf class_ (.resolved ⟨filledSlots, homogeneous⟩))) :
    judgement.Reaches state
      (fun fuel => (env.stage fuel).unifyInstance (nested fuel) class_
        (.resolved ⟨slots, homogeneous⟩) id)
      fun _ found => found = substitution.restrict (TypeTerm.mentionsOfAll arguments) := by
  have isClassObject : (Value.instanceOf class_
      (.resolved ⟨filledSlots, homogeneous⟩)).classObject? =
        some (.genericClass class_ (.resolved ⟨filledSlots, homogeneous⟩)) := by
    simp [Value.classObject?, Generics.isUnparameterized, TypeArguments.isEmpty, parameterized]
  refine reaches_value_bind found ?_
  refine (reaches_classOf admitted found isClassObject).bind
    fun first answer firstAdmitted firstContinues holds => ?_
  obtain ⟨argumentClass, rfl, classStored⟩ := holds
  refine (reaches_ancestor?_self reads firstAdmitted classStored rfl).bind
    fun second ancestor secondAdmitted secondContinues same => ?_
  subst same
  have continues := Arena.le_trans firstContinues secondContinues
  exact reaches_unifyPairwise recovers secondAdmitted
    (slotsOpen.imp fun _ _ isOpen => TypeTerm.Open.mono isOpen continues)
    (slotsFilled.imp fun _ _ filled => TypeTerm.Filled.mono filled continues)
    (Arena.get?_of_le secondContinues classStored)

theorem reaches_unifyClass
    (transparent : (TypeTerm.Head.ofClass class_).IsTransparent env.declarations
      arguments.length homogeneous)
    (found : state.arena.get? id = some
      (env.declarations.instance class_ (.resolved ⟨filledSlots, homogeneous⟩))) :
    judgement.Reaches state
      (fun fuel => (env.stage fuel).unifyClass (nested fuel) class_
        (.resolved ⟨slots, homogeneous⟩) (.singleton id))
      fun _ found => found = substitution.restrict (TypeTerm.mentionsOfAll arguments) := by
  simp only [Engine.unifyClass, Engine.typeArguments, pure_bind]
  cases slotsOpen with
  | nil => exact reaches_pure admitted (Substitution.restrict_nil substitution).symm
  | @cons argument slot arguments slots slotOpen restOpen =>
    rw [TypeTerm.Head.IsTransparent] at transparent
    by_cases isTuple : class_ = Builtin.tuple
    · rw [if_pos isTuple] at transparent
      subst isTuple
      exact reaches_unifyTuple recovers admitted (.cons slotOpen restOpen) slotsFilled transparent
        found
    · rw [if_neg isTuple] at transparent
      have isInstance : env.declarations.instance class_
          (.resolved ⟨filledSlots, homogeneous⟩) =
            .instanceOf class_ (.resolved ⟨filledSlots, homogeneous⟩) := by
        simp [Declarations.instance, isTuple, transparent.1]
      rw [isInstance] at found
      by_cases isIterable : class_ = Builtin.iterable
      · have single := transparent.2 isIterable
        subst isIterable
        obtain ⟨rfl⟩ : arguments = [] := by simpa using single
        cases restOpen
        cases slotsFilled with
        | cons slotFilled noneFilled =>
          cases noneFilled
          have isArgument : argument ∈ [argument] := by simp
          exact reaches_unify_elements recovers isArgument slotOpen
            (reaches_elements_iterable recovers reads admitted isArgument slotFilled found)
      · simp only [if_neg isIterable, if_neg isTuple, TypeSet.members_singleton,
          mergeOver_singleton]
        refine reaches_unifyInstance recovers reads admitted (.cons slotOpen restOpen) slotsFilled
          ?_ found
        rintro rfl
        cases slotsFilled

end Slots

/-! ## Typing forms and annotations -/

theorem reaches_unifyForm (slotsOpen : List.Forall₂ (TypeTerm.Open state.arena) arguments slots)
    (transparent : (TypeTerm.Head.ofForm form).IsTransparent env.declarations
      arguments.length homogeneous)
    (described : (TypeTerm.applied (.ofForm form) arguments homogeneous).Described
      env.declarations substitution state.arena seen) :
    judgement.Reaches state
      (fun fuel => (env.stage fuel).unifyForm (nested fuel) form
        (.resolved ⟨slots, homogeneous⟩) seen)
      fun _ found => found = substitution.restrict (TypeTerm.mentionsOfAll arguments) := by
  have world := admitted.wellFormed.world
  simp only [Engine.unifyForm, Engine.typeArguments, pure_bind]
  cases described with
  | tuple found slotsFilled =>
    cases slotsOpen with
    | nil => exact reaches_pure admitted (Substitution.restrict_nil substitution).symm
    | cons slotOpen restOpen =>
      exact reaches_unifyTuple recovers admitted (.cons slotOpen restOpen) slotsFilled transparent
        found
  | optional present same =>
    cases slotsOpen with
    | cons slotOpen noneOpen =>
      cases noneOpen
      rw [TypeTerm.mentionsOfAll_singleton, same]
      exact (recovers _ (by simp)).unifies state _ _ admitted slotOpen (present.erase_none world)
  | classVar seen =>
    cases slotsOpen with
    | cons slotOpen noneOpen =>
      cases noneOpen
      rw [TypeTerm.mentionsOfAll_singleton]
      exact (recovers _ (by simp)).unifies state _ _ admitted slotOpen seen
  | type filled =>
    cases slotsOpen with
    | cons slotOpen noneOpen =>
      cases noneOpen
      rw [TypeTerm.mentionsOfAll_singleton]
      exact (recovers _ (by simp)).unifies_instances admitted slotOpen filled

include reads

theorem reaches_unifyValue (areArguments : term.arguments = arguments)
    (transparent : term.IsTransparent env.declarations)
    (hintOpen : term.Open state.arena (.singleton id)) (described :
      term.Described env.declarations substitution state.arena seen) :
    judgement.Reaches state
      (fun fuel => (env.stage fuel).unifyValue (nested fuel) seen id)
      fun _ found => found = substitution.restrict term.mentions := by
  have counted : judgement.Yields 0 fun _ => count fun counters =>
      { counters with unifications := counters.unifications + 1 } := yields_count _
  refine (Keeps.reaches counted admitted (Nat.zero_le _)).bind
    fun after _ afterAdmitted continues _ => ?_
  have stillDescribed := described.mono continues
  cases term with
  | typeVariable variable_ =>
    obtain ⟨id, ⟨⟩, found⟩ := hintOpen.mono continues
    refine reaches_value_bind found ?_
    cases stillDescribed with
    | typeVariable gives instances =>
      rw [TypeTerm.mentions, Substitution.restrict_singleton gives.1]
      exact reaches_unifyVariable afterAdmitted instances variable_
  | classObject class_ =>
    obtain ⟨id, ⟨⟩, found⟩ := hintOpen.mono continues
    exact reaches_value_bind found
      (reaches_pure afterAdmitted (Substitution.restrict_nil substitution).symm)
  | applied head arguments homogeneous =>
    cases areArguments
    obtain ⟨id, slots, ⟨⟩, found, slotsOpen⟩ :=
      TypeTerm.written_applied.mp (hintOpen.mono continues)
    cases head with
    | ofClass class_ =>
      refine reaches_value_bind found ?_
      cases stillDescribed with
      | ofClass instanceFound slotsFilled =>
        exact reaches_unifyClass recovers reads afterAdmitted slotsOpen slotsFilled transparent.1
          instanceFound
    | ofForm form =>
      exact reaches_value_bind found
        (reaches_unifyForm recovers afterAdmitted slotsOpen transparent.1 stillDescribed)

end Arguments

/-- Unification recovers what filled in the variables of an annotation. -/
theorem recovers_unifyWithin (reads : judgement.Reads)
    (transparent : term.IsTransparent env.declarations)
    (limited : levels ≤ env.settings.unificationDepthLimit + 1) (shallow : term.depth < levels) :
    judgement.Recovers substitution (fun fuel => (env.stage fuel).unifyWithin levels) term := by
  induction levels generalizing term with
  | zero => omega
  | succ levels ih =>
    refine ⟨by omega, transparent, fun state hint seen admitted hintOpen described => ?_⟩
    obtain ⟨id, rfl⟩ := hintOpen.eq_singleton
    have nonempty := described.isEmpty_eq_false admitted.wellFormed.world
    simp only [Engine.unifyWithin, nonempty, Bool.false_eq_true, if_false,
      TypeSet.members_singleton, mergeOver_singleton]
    refine reaches_unifyValue (fun argument member => ?_) reads admitted rfl transparent hintOpen
      described
    have below := TypeTerm.depth_lt_of_mem_arguments member
    exact ih (transparent.of_mem_arguments member) (by omega) (by omega)

theorem recovers_unify (reads : judgement.Reads)
    (shallow : term.depth ≤ env.settings.unificationDepthLimit)
    (transparent : term.IsTransparent env.declarations) :
    judgement.Recovers substitution (fun fuel => (env.stage fuel).unify) term :=
  recovers_unifyWithin reads transparent (Nat.le_refl _) (Nat.lt_succ_of_le shallow)

end Judgement

end TypeInference
