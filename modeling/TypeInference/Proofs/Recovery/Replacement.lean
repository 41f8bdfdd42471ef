import TypeInference.Proofs.Decoding.Replacement
import TypeInference.Proofs.Recovery.Term

/-!
# Replacing the variables of an annotation

The variables that are found in an annotation in writing are those that it mentions.
Replacing them by canonical bindings gives the same annotation in writing, where the
bindings stand for the variables.
-/

namespace TypeInference

open Inference

variable {term : TypeTerm} {hint : TypeSet} {arguments : List TypeTerm} {slots : List TypeSet}
  {levels : Nat} {nested : Nat → TypeSet → Inference TypeSet} {id : ValueId}

namespace Judgement

variable {env : Environment} {judgement : Judgement env} {state : State}

/-! ## Mentioned variables -/

/-- Variables that are mentioned are found besides others, and the request is left as it is. -/
structure Finds (state : State) (known mentioned : List TypeVariableId) (after : State)
    (found : List TypeVariableId) : Prop where
  unchanged : after = state
  mem_iff : ∀ variable_, variable_ ∈ found ↔ variable_ ∈ known ∨ variable_ ∈ mentioned

theorem reaches_foldlM_collect (admitted : judgement.Admits state)
    {nested : Nat → List TypeVariableId → TypeSet → Inference (List TypeVariableId)}
    (slotsOpen : List.Forall₂ (TypeTerm.Open state.arena) arguments slots)
    (each : ∀ argument ∈ arguments, ∀ known slot,
      argument.Open state.arena slot →
      judgement.Reaches state (fun fuel => nested fuel known slot)
        (Finds state known argument.mentions))
    (known : List TypeVariableId) :
    judgement.Reaches state (fun fuel => slots.foldlM (nested fuel) known)
      (Finds state known (TypeTerm.mentionsOfAll arguments)) := by
  induction slotsOpen generalizing known with
  | nil =>
    simp only [List.foldlM_nil]
    exact reaches_pure admitted ⟨rfl, by simp [TypeTerm.mentionsOfAll]⟩
  | @cons argument slot arguments slots first _ ih =>
    simp only [List.foldlM_cons]
    refine (each argument (by simp) known slot first).bind fun between more _ _ firstFinds => ?_
    cases firstFinds.unchanged
    have rest := ih (fun other member => each other (by simp [member])) more
    refine rest.imp fun after all _ _ restFinds => ⟨restFinds.unchanged, fun variable_ => ?_⟩
    rw [restFinds.mem_iff, firstFinds.mem_iff, TypeTerm.mentionsOfAll, List.mem_append, or_assoc]

/-- The walk over an annotation in writing finds what the annotation mentions. -/
theorem reaches_collectWithin (admitted : judgement.Admits state) (shallow : term.depth < levels)
    (hintOpen : term.Open state.arena hint) (known : List TypeVariableId) :
    judgement.Attains state (·.collectWithin levels known hint)
      (Finds state known term.mentions) := by
  induction levels generalizing term hint known with
  | zero => omega
  | succ levels ih =>
    have nested : ∀ argument ∈ term.arguments, ∀ known slot,
        argument.Open state.arena slot →
        judgement.Attains state (·.collectWithin levels known slot)
          (Finds state known argument.mentions) := by
      intro argument member known slot slotOpen
      have below := TypeTerm.depth_lt_of_mem_arguments member
      exact ih (by omega) slotOpen known
    cases term with
    | typeVariable variable_ =>
      obtain ⟨id, rfl, found⟩ := hintOpen
      simp only [Engine.collectWithin, TypeSet.members_singleton, List.foldlM_cons,
        List.foldlM_nil, bind_pure]
      refine reaches_value_bind found (reaches_pure admitted ⟨rfl, fun other => ?_⟩)
      by_cases member : variable_ ∈ known
      · simp only [if_pos member, TypeTerm.mentions, List.mem_singleton]
        exact ⟨Or.inl, fun either => either.elim (fun inKnown => inKnown) fun same => same ▸ member⟩
      · simp [if_neg member, TypeTerm.mentions]
    | classObject class_ =>
      obtain ⟨id, rfl, found⟩ := hintOpen
      simp only [Engine.collectWithin, TypeSet.members_singleton, List.foldlM_cons,
        List.foldlM_nil, bind_pure]
      exact reaches_value_bind found (reaches_pure admitted ⟨rfl, by simp [TypeTerm.mentions]⟩)
    | applied head arguments homogeneous =>
      obtain ⟨id, slots, rfl, found, slotsOpen⟩ := TypeTerm.written_applied.mp hintOpen
      simp only [Engine.collectWithin, TypeSet.members_singleton, List.foldlM_cons,
        List.foldlM_nil, bind_pure]
      have collected := reaches_foldlM_collect admitted slotsOpen nested known
      cases head with
      | ofClass | ofForm => exact reaches_value_bind found collected

theorem reaches_freeVariables (admitted : judgement.Admits state)
    (shallow : term.depth ≤ env.settings.unificationDepthLimit)
    (hintOpen : term.Open state.arena hint) :
    judgement.Attains state (·.freeVariables hint) (Finds state [] term.mentions) :=
  reaches_collectWithin admitted (Nat.lt_succ_of_le shallow) hintOpen []

/-! ## Replaced variables -/

section Replaced

variable {substitution : Substitution}

section

variable (admitted : judgement.Admits state)

include admitted

/-- What canonical bindings replace is not narrowed. -/
theorem narrow_of_canonical {set : TypeSet} (canonical : state.arena.Canonical env.declarations set)
    (variable_ : TypeVariableId) :
    env.declarations.typeVariables.narrow variable_ set Arena.anyId = set := by
  have absent : Arena.anyId ∉ set :=
    canonical.not_mem admitted.wellFormed.world.anyStored fun isCanonical => isCanonical
  unfold TypeVariables.narrow
  split
  · rw [if_neg fun contained => absent (TypeSet.mem_of_contains contained)]
  · rfl

theorem reaches_substituteValue (transparent : term.IsTransparent env.declarations)
    (given : ∀ variable_ ∈ term.mentions, ∃ set,
      substitution.Gives env.declarations state.arena variable_ set)
    (hintOpen : term.Open state.arena (.singleton id))
    (each : ∀ argument ∈ term.arguments, ∀ slot later, judgement.Admits later →
      state.arena ≤ later.arena → argument.Open later.arena slot →
      judgement.Reaches later (fun fuel => nested fuel slot) fun after replaced =>
        argument.Filled env.declarations substitution after.arena replaced) :
    judgement.Reaches state
      (fun fuel => (env.stage fuel).substituteValue substitution (nested fuel) id)
      fun after replaced => term.Filled env.declarations substitution after.arena
        (replaced.getD (.singleton id)) := by
  cases term with
  | typeVariable variable_ =>
    obtain ⟨id, ⟨⟩, found⟩ := hintOpen
    obtain ⟨set, gives⟩ := given variable_ (by simp [TypeTerm.mentions])
    simp only [Engine.substituteValue, Environment.stage_toEnvironment]
    refine reaches_value_bind found (reaches_pure admitted ?_)
    rw [gives.1]
    simp only [Option.map_some, Option.getD_some, narrow_of_canonical admitted gives.2]
    exact gives
  | classObject class_ =>
    obtain ⟨id, ⟨⟩, found⟩ := hintOpen
    exact reaches_value_bind found (reaches_pure admitted ⟨id, rfl, found⟩)
  | applied head arguments homogeneous =>
    obtain ⟨id, slots, ⟨⟩, found, slotsOpen⟩ := TypeTerm.written_applied.mp hintOpen
    have plain : (head.value (.resolved ⟨slots, homogeneous⟩)).isCallable = false := by
      cases head with
      | ofClass class_ => rfl
      | ofForm form => cases form <;> first | rfl | exact transparent.1.elim
    refine (reaches_substituteValue_of_holdsTypes TypeTerm.Open
      (TypeTerm.Filled env.declarations substitution)
      (fun _ _ _ _ continues slotOpen => slotOpen.mono continues)
      (fun _ _ _ _ _ continues filled => filled.mono continues) admitted each
      TypeTerm.Filled.within (by simp [plain]) found (by cases head <;> rfl)
      (by cases head <;> exact slotsOpen)).imp fun after _ _ _ holds => ?_
    obtain ⟨new, parts, same, stores, filled⟩ := holds
    rw [same]
    refine TypeTerm.written_applied.mpr ⟨new, parts, rfl, ?_, filled⟩
    cases head <;> exact stores

/-- Replacing the variables of an annotation fills them in. -/
theorem reaches_substituteWithin (shallow : term.depth < levels)
    (transparent : term.IsTransparent env.declarations) (given : ∀ variable_ ∈ term.mentions, ∃ set,
      substitution.Gives env.declarations state.arena variable_ set)
    (hintOpen : term.Open state.arena hint) :
    judgement.Attains state (·.substituteWithin substitution levels hint)
      fun after set => term.Filled env.declarations substitution after.arena set := by
  induction levels generalizing state term hint with
  | zero => omega
  | succ levels ih =>
    obtain ⟨id, rfl⟩ := hintOpen.eq_singleton
    simp only [Engine.substituteWithin, TypeSet.members_singleton, unionOver_singleton]
    have replaced := reaches_substituteValue admitted transparent given hintOpen
      fun argument member slot later laterAdmitted continues slotOpen =>
        ih laterAdmitted
          (Nat.lt_of_lt_of_le (TypeTerm.depth_lt_of_mem_arguments member)
            (Nat.le_of_lt_succ shallow))
          (transparent.of_mem_arguments member)
          (fun variable_ mentioned =>
            (given variable_ (TypeTerm.mem_mentions_of_mem_arguments member mentioned)).imp
              fun _ gives => gives.mono continues)
          slotOpen
    exact replaced.bind fun after _ afterAdmitted _ filled => reaches_pure afterAdmitted filled

/-- Where nothing is mentioned, nothing has to be filled in. -/
theorem reaches_substitute (shallow : term.depth ≤ env.settings.unificationDepthLimit)
    (transparent : term.IsTransparent env.declarations) (given : ∀ variable_ ∈ term.mentions, ∃ set,
      substitution.Gives env.declarations state.arena variable_ set)
    (hintOpen : term.Open state.arena hint) :
    judgement.Attains state (·.substitute hint substitution)
      fun after set => term.Filled env.declarations substitution after.arena set := by
  obtain ⟨id, rfl⟩ := hintOpen.eq_singleton
  cases isEmpty : substitution.isEmpty with
  | true =>
    have nothing : (substitution.isEmpty || (TypeSet.singleton id).isEmpty) = true := by
      simp [isEmpty]
    simp only [Engine.substitute, nothing, if_true]
    refine reaches_pure admitted (TypeTerm.Written.mono hintOpen (Arena.le_refl _) ?_)
    intro variable_ mentioned
    obtain ⟨set, gives⟩ := given variable_ mentioned
    simp [Substitution.get?_eq_none_of_isEmpty isEmpty, Substitution.Gives] at gives
  | false =>
    have something : (substitution.isEmpty || (TypeSet.singleton id).isEmpty) = false := by
      simp [isEmpty, TypeSet.isEmpty]
    simp only [Engine.substitute, something, Bool.false_eq_true, if_false]
    exact reaches_substituteWithin admitted (Nat.lt_succ_of_le shallow) transparent given hintOpen

end

end Replaced

end Judgement

end TypeInference
