import TypeInference.Proofs.Recovery.Variable

/-!
# The instances of a filled annotation

An annotation whose variables are filled in describes instances of the same shape: the
type arguments of a class can be read off from the class of its instances, and a typing
form describes what its one type argument does.
-/

namespace TypeInference

open Inference

variable {id : ValueId} {class_ : ClassId} {generics : Generics} {term : TypeTerm} {set : TypeSet}

/-! ## Instances of annotations -/

/--
What is seen of an annotation whose variables are filled in.  It does not matter whether
the absent value is seen besides, where an annotation says that there may be one.
-/
inductive TypeTerm.Described (declarations : Declarations) (substitution : Substitution)
    (arena : Arena) : TypeTerm → TypeSet → Prop
  | typeVariable {variable_ : TypeVariableId} {bound seen : TypeSet} :
    substitution.Gives declarations arena variable_ bound →
    arena.Instances bound seen →
    Described declarations substitution arena (.typeVariable variable_) seen
  | classObject {class_ : ClassId} {id : ValueId} {generics : Generics} :
    arena.get? id = some (declarations.instance class_ generics) →
    Described declarations substitution arena (.classObject class_) (.singleton id)
  | ofClass {class_ : ClassId} {arguments : List TypeTerm} {homogeneous : Bool}
      {id : ValueId} {slots : List TypeSet} :
    arena.get? id = some (declarations.instance class_ (.resolved ⟨slots, homogeneous⟩)) →
    List.Forall₂ (Filled declarations substitution arena) arguments slots →
    Described declarations substitution arena
      (.applied (.ofClass class_) arguments homogeneous) (.singleton id)
  | tuple {arguments : List TypeTerm} {homogeneous : Bool} {id : ValueId}
      {slots : List TypeSet} :
    arena.get? id = some (declarations.instance Builtin.tuple (.resolved ⟨slots, homogeneous⟩)) →
    List.Forall₂ (Filled declarations substitution arena) arguments slots →
    Described declarations substitution arena
      (.applied (.ofForm .tuple) arguments homogeneous) (.singleton id)
  | optional {argument : TypeTerm} {homogeneous : Bool} {present seen : TypeSet} :
    Described declarations substitution arena argument present →
    seen.erase Arena.noneId = present.erase Arena.noneId →
    Described declarations substitution arena
      (.applied (.ofForm .optional) [argument] homogeneous) seen
  | classVar {argument : TypeTerm} {homogeneous : Bool} {seen : TypeSet} :
    Described declarations substitution arena argument seen →
    Described declarations substitution arena
      (.applied (.ofForm .classVar) [argument] homogeneous) seen
  | type {argument : TypeTerm} {homogeneous : Bool} {seen : TypeSet} :
    argument.Filled declarations substitution arena seen →
    Described declarations substitution arena
      (.applied (.ofForm .type) [argument] homogeneous) seen

namespace TypeTerm

variable {declarations : Declarations} {substitution : Substitution} {arena later : Arena}
  {term : TypeTerm} {set seen : TypeSet}

theorem Described.mono (described : term.Described declarations substitution arena seen)
    (continues : arena ≤ later) :
    term.Described declarations substitution later seen := by
  induction described with
  | typeVariable gives instances =>
    exact .typeVariable (gives.mono continues) (instances.mono continues)
  | classObject found => exact .classObject (Arena.get?_of_le continues found)
  | ofClass found filled =>
    exact .ofClass (Arena.get?_of_le continues found)
      (filled.imp fun _ _ slotFilled => slotFilled.mono continues)
  | tuple found filled =>
    exact .tuple (Arena.get?_of_le continues found)
      (filled.imp fun _ _ slotFilled => slotFilled.mono continues)
  | optional _ same ih => exact .optional ih same
  | classVar _ ih => exact .classVar ih
  | type filled => exact .type (filled.mono continues)

section

variable (world : World.WellFormed ⟨arena, declarations⟩)
  (found : arena.get? id = some (declarations.instance class_ generics))

include world found

/-- An instance of a class is not the absent value. -/
theorem ne_none_of_instance : id ≠ Arena.noneId := by
  rintro rfl
  have noneStored : arena.get? Arena.noneId = some .none := world.noneStored
  rw [noneStored, Declarations.instance] at found
  split at found
  · cases found
  · split at found <;> cases found

theorem erase_none_of_instance : (TypeSet.singleton id).erase Arena.noneId = .singleton id :=
  TypeSet.erase_of_not_mem fun member =>
    ne_none_of_instance world found (TypeSet.mem_singleton.mp member).symm

end

theorem Filled.exists_mem (filled : term.Filled declarations substitution arena set) :
    ∃ id, id ∈ set := by
  cases term with
  | typeVariable variable_ =>
    exact TypeSet.exists_mem_of_isEmpty_eq_false (Substitution.isEmpty_eq_false_of_get? filled.1)
  | classObject class_ =>
    obtain ⟨id, rfl, -⟩ := filled
    exact ⟨id, by simp⟩
  | applied head arguments homogeneous =>
    obtain ⟨id, slots, rfl, -⟩ := written_applied.mp filled
    exact ⟨id, by simp⟩

section

variable (world : World.WellFormed ⟨arena, declarations⟩)
  (described : term.Described declarations substitution arena seen)

include world described

/-- What is seen includes a value that is not the absent one. -/
theorem Described.exists_mem_ne_none : ∃ id ∈ seen, id ≠ Arena.noneId := by
  induction described with
  | typeVariable gives instances =>
    obtain ⟨target, member⟩ :=
      TypeSet.exists_mem_of_isEmpty_eq_false (Substitution.isEmpty_eq_false_of_get? gives.1)
    obtain ⟨id, idMember, binds⟩ := instances.seenFor target member
    exact ⟨id, idMember, binds.ne_none world⟩
  | classObject found | ofClass found _ | tuple found _ =>
    exact ⟨_, by simp, ne_none_of_instance world found⟩
  | @optional argument homogeneous present seen _ same ih =>
    obtain ⟨id, member, proper⟩ := ih
    have inErased : id ∈ seen.erase Arena.noneId := by
      rw [same, TypeSet.mem_erase]
      exact ⟨member, proper⟩
    exact ⟨id, (TypeSet.mem_erase.mp inErased).1, proper⟩
  | classVar _ ih => exact ih
  | type filled =>
    obtain ⟨id, member⟩ := filled.exists_mem
    exact ⟨id, member, fun same => filled.none_not_mem world (same ▸ member)⟩

theorem Described.isEmpty_eq_false : seen.isEmpty = false := by
  obtain ⟨id, member, -⟩ := described.exists_mem_ne_none world
  exact TypeSet.isEmpty_eq_false_of_mem member

/-- Where the absent value is left out, the same annotation is seen. -/
theorem Described.erase_none :
    term.Described declarations substitution arena (seen.erase Arena.noneId) := by
  induction described with
  | typeVariable gives instances =>
    rw [TypeSet.erase_of_not_mem]
    · exact .typeVariable gives instances
    · intro member
      obtain ⟨target, -, binds⟩ := instances.boundBy _ member
      exact binds.ne_none world rfl
  | classObject found =>
    rw [erase_none_of_instance world found]
    exact .classObject found
  | ofClass found filled =>
    rw [erase_none_of_instance world found]
    exact .ofClass found filled
  | tuple found filled =>
    rw [erase_none_of_instance world found]
    exact .tuple found filled
  | @optional argument homogeneous present seen described same _ =>
    exact .optional described (by rw [TypeSet.erase_erase, same])
  | classVar _ ih => exact .classVar ih
  | type filled =>
    rw [TypeSet.erase_of_not_mem (filled.none_not_mem world)]
    exact .type filled

theorem Described.within : Within declarations arena.size seen := by
  induction described with
  | typeVariable gives instances =>
    intro id member
    obtain ⟨target, -, stored, value, found, -⟩ := instances.boundBy id member
    exact Arena.lt_size_of_get? found
  | classObject found | ofClass found _ | tuple found _ =>
    exact within_singleton (Arena.lt_size_of_get? found)
  | @optional argument homogeneous present seen _ same ih =>
    intro id member
    by_cases isNone : id = Arena.noneId
    · rw [isNone]
      exact Arena.lt_size_of_get? world.noneStored
    · have inErased : id ∈ present.erase Arena.noneId := by
        rw [← same, TypeSet.mem_erase]
        exact ⟨member, isNone⟩
      exact ih id (TypeSet.mem_erase.mp inErased).1
  | classVar _ ih => exact ih
  | type filled => exact filled.within

end

end TypeTerm

namespace Judgement

variable {env : Environment} {judgement : Judgement env} {state : State}
  {substitution : Substitution}

/-- The typing forms describe what their type arguments do. -/
theorem reaches_formInstances (admitted : judgement.Admits state) {arguments : List TypeTerm}
    {homogeneous : Bool} (transparent : (TypeTerm.Head.ofForm form).IsTransparent env.declarations
      arguments.length homogeneous)
    {slots : List TypeSet} (slotsFilled : List.Forall₂
      (TypeTerm.Filled env.declarations substitution state.arena) arguments slots)
    {nested : Nat → TypeSet → Inference TypeSet} (each : ∀ argument ∈ arguments, ∀ slot,
      argument.Filled env.declarations substitution state.arena slot →
      judgement.Reaches state (fun fuel => nested fuel slot) fun after seen =>
        argument.Described env.declarations substitution after.arena seen) :
    judgement.Reaches state
      (fun fuel => (env.stage fuel).formInstances (nested fuel) form
        (.resolved ⟨slots, homogeneous⟩))
      fun after seen => (TypeTerm.applied (.ofForm form) arguments homogeneous).Described
        env.declarations substitution after.arena seen := by
  have single : arguments.length = 1 → ∃ argument slot, arguments = [argument] ∧ slots = [slot] ∧
      argument.Filled env.declarations substitution state.arena slot := by
    intro one
    obtain ⟨argument, rfl⟩ := List.length_eq_one_iff.mp one
    cases slotsFilled with
    | cons first rest =>
      cases rest
      exact ⟨argument, _, rfl, rfl, first⟩
  cases form with
  | optional =>
    obtain ⟨argument, slot, rfl, rfl, filled⟩ := single transparent
    simp only [Engine.formInstances, Engine.typeArguments, pure_bind, unionOver_singleton]
    refine (each argument (by simp) slot filled).bind
      fun after present afterAdmitted _ described => ?_
    exact reaches_pure afterAdmitted (.optional described (TypeSet.erase_insert present _))
  | classVar =>
    obtain ⟨argument, slot, rfl, rfl, filled⟩ := single transparent
    exact (each argument (by simp) slot filled).imp fun _ _ _ _ described => .classVar described
  | type =>
    obtain ⟨argument, slot, rfl, rfl, filled⟩ := single transparent
    exact reaches_pure admitted (.type filled)
  | tuple =>
    have within : env.Scopes state.arena.size (Value.tuple (.resolved ⟨slots, homogeneous⟩)) :=
      within_of_forall₂ slotsFilled fun _ _ => TypeTerm.Filled.within
    refine (reaches_internSet admitted within rfl).imp fun after set _ continues holds => ?_
    obtain ⟨id, rfl, found⟩ := holds
    exact .tuple found (slotsFilled.imp fun _ _ slotFilled => slotFilled.mono continues)
  | union | callable => exact transparent.elim

/-- The instances of an annotation whose variables are filled in are as it describes. -/
theorem reaches_instancesWithin (admitted : judgement.Admits state) {levels : Nat}
    (shallow : term.depth < levels) (transparent : term.IsTransparent env.declarations)
    (filled : term.Filled env.declarations substitution state.arena set) :
    judgement.Attains state (·.instancesWithin levels set)
      fun after seen => term.Described env.declarations substitution after.arena seen := by
  induction levels generalizing state term set with
  | zero => omega
  | succ levels ih =>
    cases term with
    | typeVariable variable_ =>
      refine (reaches_unionOver (fun arena target seen => arena.Binds seen target)
        (fun _ _ _ _ continues binds => binds.mono continues) admitted
        (fun target member later laterAdmitted continues => ?_)).imp
          fun after seen _ continues holds => ?_
      · obtain ⟨stored, found, canonical⟩ := (filled.2.mono continues) target member
        exact reaches_valueInstances_canonical laterAdmitted found canonical _
      · exact .typeVariable (Substitution.Gives.mono filled continues) ⟨holds.1, holds.2⟩
    | classObject class_ =>
      obtain ⟨id, rfl, found⟩ := filled
      have within := admitted.wellFormed.world.within_of_get? found
      simp only [Engine.instancesWithin, TypeSet.members_singleton, unionOver_singleton]
      refine reaches_value_bind found ((reaches_instantiate admitted within within_nil).imp
        fun after seen _ _ holds => ?_)
      obtain ⟨seenId, rfl, seenStored⟩ := holds
      exact .classObject seenStored
    | applied head arguments homogeneous =>
      obtain ⟨id, slots, rfl, found, slotsFilled⟩ := TypeTerm.written_applied.mp filled
      have within := admitted.wellFormed.world.within_of_get? found
      simp only [Engine.instancesWithin, TypeSet.members_singleton, unionOver_singleton]
      cases head with
      | ofClass class_ =>
        refine reaches_value_bind found ((reaches_instantiate admitted within.1 within.2).imp
          fun after seen _ continues holds => ?_)
        obtain ⟨seenId, rfl, seenStored⟩ := holds
        exact .ofClass seenStored (slotsFilled.imp fun _ _ slotFilled =>
          TypeTerm.Filled.mono slotFilled continues)
      | ofForm form =>
        refine reaches_value_bind found (reaches_formInstances admitted transparent.1 slotsFilled
          fun argument member slot slotFilled => ?_)
        have isArgument : argument ∈
            (TypeTerm.applied (.ofForm form) arguments homogeneous).arguments := member
        have below := TypeTerm.depth_lt_of_mem_arguments isArgument
        exact ih admitted (by omega) (transparent.of_mem_arguments isArgument) slotFilled

theorem reaches_instances (admitted : judgement.Admits state)
    (shallow : term.depth ≤ env.settings.unificationDepthLimit)
    (transparent : term.IsTransparent env.declarations)
    (filled : term.Filled env.declarations substitution state.arena set) :
    judgement.Attains state (·.instances set)
      fun after seen => term.Described env.declarations substitution after.arena seen :=
  reaches_instancesWithin admitted (Nat.lt_succ_of_le shallow) transparent filled

end Judgement

end TypeInference
