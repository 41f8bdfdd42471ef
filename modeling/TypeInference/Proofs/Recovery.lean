import TypeInference.Proofs.Recovery.Unification
import TypeInference.Proofs.Termination

/-!
# Unification recovers substitutions

If the variables of an annotation are replaced by the canonical bindings of a
substitution, and the annotation is unified with the instances that result, then the
substitution comes back as far as the annotation mentions its variables.  Replacing
variables and finding instances answers at once.  Unification may have to read type
arguments from the tree, to walk to the bases of a class: it answers where the tree does,
and nowhere otherwise.
-/

namespace TypeInference

/-- The nodes and names of the tree are inferred in every request, with enough fuel. -/
structure Environment.Evaluates (environment : Environment) (base : Nat) : Prop where
  nodes : ∀ state node, state.WellFormed environment.declarations → base ≤ state.arena.size →
    environment.Finishes state (.inferNode node)
  names : ∀ state name, state.WellFormed environment.declarations → base ≤ state.arena.size →
    ∃ enough answer, ∀ fuel, enough ≤ fuel →
      environment.run fuel (environment.provider.resolveName name) state = .ok answer

namespace Judgement

variable {env : Environment} {base : Nat}

/-- A step that never fails but for lack of fuel, and that finishes, answers from some fuel on. -/
theorem total_of_faultless (kept : ∀ limit, (faultless env upkeep limit).Keeps bound step post)
    (finishes : ∀ state, (total env upkeep).Admits state →
      ∃ enough answer, ∀ fuel, enough ≤ fuel → step (fuel + 1) state = .ok answer) :
    (total env upkeep).Keeps bound step post := by
  intro state admitted within
  obtain ⟨enough, answer, finished⟩ := finishes state admitted
  have succeeds : ∀ fuel, enough + 1 ≤ fuel → step fuel state = .ok answer := by
    intro fuel large
    obtain ⟨less, rfl⟩ : ∃ less, fuel = less + 1 := ⟨fuel - 1, by omega⟩
    exact finished less (by omega)
  have sound := kept (enough + 1) state ⟨admitted.wellFormed, admitted.invariant⟩ within
    (enough + 1) (Nat.le_refl _)
  obtain ⟨⟨answerAdmitted, continues, promised⟩, -⟩ :=
    sound.2 answer (succeeds (enough + 1) (Nat.le_refl _))
  exact ⟨enough + 1, answer,
    ⟨⟨answerAdmitted.wellFormed, answerAdmitted.invariant⟩, continues, promised⟩, succeeds⟩

variable (provider : env.provider.InScope env.declarations base)

include provider

theorem faultless_reads (limit : Nat) : (faultless env (.spanning base) limit).Reads :=
  (faultless_serves provider fun operation bound =>
    faultless_asks fun smaller _ => faultless_performs provider smaller operation bound).reads

theorem total_reads_of_evaluates (evaluates : env.Evaluates base) :
    (total env (.spanning base)).Reads where
  node bound node :=
    total_of_faultless (fun limit => (faultless_reads provider limit).node bound node)
      fun state admitted => evaluates.nodes state node admitted.wellFormed admitted.invariant
  name bound name :=
    total_of_faultless (fun limit => (faultless_reads provider limit).name bound name)
      fun state admitted => evaluates.names state name admitted.wellFormed admitted.invariant

end Judgement

/-- What a tree knows at once it evaluates. -/
theorem Environment.evaluates_of_knows {env : Environment}
    (knows : env.provider.Knows env.declarations base) :
    env.Evaluates base where
  nodes := by
    intro state node wellFormed larger
    have admitted : (Judgement.total env (.spanning base)).Admits state := ⟨wellFormed, larger⟩
    exact Judgement.finishes_of_keepsAt
      (Judgement.inferNode_of_knows knows (fun spans => spans) node trivial state admitted
        (Nat.le_refl _))
  names := by
    intro state name _ _
    obtain ⟨set, done, -⟩ := knows.names name
    refine ⟨0, (set, state), fun fuel _ => ?_⟩
    rw [done]
    rfl

/--
A substitution that fills in the variables of an annotation with canonical values comes
back when the annotation is unified with the instances that it then describes, restricted
to the variables that are found in the annotation.
-/
theorem unify_recovers_substitution
    {environment : Environment}
    {base : Nat}
    (provider : environment.provider.InScope environment.declarations base)
    {state : State}
    (larger : base ≤ state.arena.size)
    (wellFormed : state.WellFormed environment.declarations)
    {term : TypeTerm}
    (transparent : term.IsTransparent environment.declarations)
    (shallow : term.depth ≤ environment.settings.unificationDepthLimit)
    {hint : TypeSet}
    (hintOpen : term.Open state.arena hint)
    {substitution : Substitution}
    (given : ∀ variable_ ∈ term.mentions, ∃ set,
      substitution.Gives environment.declarations state.arena variable_ set) :
    ∃ free replaced between seen before,
      (∀ fuel, environment.answer fuel (.freeVariables hint) state = .ok (free, state)) ∧
      (∀ variable_, variable_ ∈ free ↔ variable_ ∈ term.mentions) ∧
      (∀ fuel, environment.answer fuel (.substitute hint substitution) state =
        .ok (replaced, between)) ∧
      (∀ fuel, environment.answer fuel (.instances replaced) between = .ok (seen, before)) ∧
      (∀ fuel, environment.answer fuel (.unify hint seen) before = .error .outOfFuel ∨
        ∃ after, environment.answer fuel (.unify hint seen) before =
          .ok (substitution.restrict free, after)) ∧
      (environment.Evaluates base → ∃ enough after, ∀ fuel, enough ≤ fuel →
        environment.answer fuel (.unify hint seen) before =
          .ok (substitution.restrict free, after)) := by
  have admitted : (Judgement.immediate environment (.spanning base)).Admits state :=
    ⟨wellFormed, larger⟩
  obtain ⟨⟨free, _⟩, ⟨-, -, rfl, isFree⟩, finds⟩ :=
    Judgement.reaches_freeVariables admitted shallow hintOpen
  obtain ⟨⟨replaced, between⟩, ⟨betweenAdmitted, toBetween, filled⟩, substitutes⟩ :=
    Judgement.reaches_substitute admitted shallow transparent given hintOpen
  obtain ⟨⟨seen, before⟩, ⟨beforeAdmitted, toBefore, described⟩, instantiates⟩ :=
    Judgement.reaches_instances betweenAdmitted shallow transparent filled
  simp only [environment.stage_eq_engine] at finds substitutes instantiates
  have beforeOpen := hintOpen.mono (Arena.le_trans toBetween toBefore)
  have restricted : substitution.restrict free = substitution.restrict term.mentions :=
    substitution.restrict_congr fun variable_ => by simp [isFree]
  refine ⟨free, replaced, between, seen, before, finds, fun variable_ => by simp [isFree],
    substitutes, instantiates, fun fuel => ?_, fun evaluates => ?_⟩
  · have unified := (Judgement.recovers_unify (Judgement.faultless_reads provider fuel) shallow
      transparent).unifies before hint seen ⟨beforeAdmitted.wellFormed, beforeAdmitted.invariant⟩
      beforeOpen described fuel (Nat.le_refl _)
    simp only [environment.stage_eq_engine] at unified
    cases outcome : environment.answer fuel (.unify hint seen) before with
    | error fault => exact Or.inl (congrArg _ (unified.1 fault outcome))
    | ok result =>
      obtain ⟨⟨-, -, found⟩, -⟩ := unified.2 result outcome
      refine Or.inr ⟨result.2, ?_⟩
      rw [restricted, ← found]
  · have reads := Judgement.total_reads_of_evaluates provider evaluates
    obtain ⟨enough, result, ⟨-, -, found⟩, succeeds⟩ :=
      (Judgement.recovers_unify reads shallow transparent).unifies before hint seen
        ⟨beforeAdmitted.wellFormed, beforeAdmitted.invariant⟩ beforeOpen described
    simp only [environment.stage_eq_engine] at succeeds
    refine ⟨enough, result.2, ?_⟩
    rw [restricted, ← found]
    exact succeeds

/-- A class variable for a dictionary from tuples of any length to classes, if there are any. -/
def TypeTerm.registry : TypeTerm :=
  .applied (.ofForm .classVar)
    [.applied (.ofClass Builtin.dict)
      [.applied (.ofClass Builtin.tuple) [.typeVariable ⟨6⟩] true,
        .applied (.ofForm .optional) [.applied (.ofForm .type) [.typeVariable ⟨7⟩] false] false]
      false]
    false

/-- The arena every analysis starts from, with a registry and an annotation of a class. -/
def Arena.registry : Arena :=
  World.initial.arena.append
    [.special .type (.ofSlots [.singleton ⟨17⟩]),
      .special .optional (.ofSlots [.singleton ⟨19⟩]),
      .genericClass Builtin.tuple (.ofElement (.singleton ⟨16⟩)),
      .genericClass Builtin.dict (.ofSlots [.singleton ⟨21⟩, .singleton ⟨20⟩]),
      .special .classVar (.ofSlots [.singleton ⟨22⟩]),
      .exactly ⟨3⟩]

/-- Keys are integers or one class, and values are strings or iterables over strings. -/
def Substitution.registry : Substitution :=
  .ofList [⟨⟨6⟩, .ofList [⟨4⟩, ⟨24⟩]⟩, ⟨⟨7⟩, .ofList [⟨5⟩, ⟨6⟩]⟩]

/-- Unification finds out what a registry is a registry of. -/
theorem unify_recovers_substitution_of_registry :
    let environment : Environment :=
      { declarations := World.initial.declarations, provider := Tree.fixedProvider {} }
    let state := environment.start Arena.registry
    TypeTerm.registry.IsTransparent environment.declarations ∧
      TypeTerm.registry.Open state.arena (.singleton ⟨23⟩) ∧
      ∃ replaced between seen before enough after,
        (∀ fuel, environment.answer fuel (.substitute (.singleton ⟨23⟩) .registry) state =
          .ok (replaced, between)) ∧
        (∀ fuel, environment.answer fuel (.instances replaced) between = .ok (seen, before)) ∧
        ∀ fuel, enough ≤ fuel →
          environment.answer fuel (.unify (.singleton ⟨23⟩) seen) before =
            .ok (.registry, after) := by
  intro environment state
  have treeInScope : Tree.InScope environment.declarations Arena.registry.size {} :=
    ⟨fun _ => within_empty, fun _ _ found => by cases found⟩
  have wellFormed : World.WellFormed ⟨Arena.registry, environment.declarations⟩ :=
    .ofChecks (by decide +kernel) (by decide +kernel)
  have plain : environment.declarations.describesTypedDict Builtin.dict = false := by
    decide +kernel
  have proper : Builtin.dict ≠ Builtin.tuple ∧ Builtin.dict ≠ Builtin.iterable := by decide
  have transparent : TypeTerm.registry.IsTransparent environment.declarations := by
    simp [TypeTerm.registry, TypeTerm.IsTransparent, TypeTerm.AllTransparent,
      TypeTerm.Head.IsTransparent, plain, proper]
  have hintOpen : TypeTerm.registry.Open state.arena (.singleton ⟨23⟩) := by
    refine TypeTerm.written_applied.mpr ⟨_, [.singleton ⟨22⟩], rfl, by decide +kernel, .cons ?_ .nil⟩
    refine TypeTerm.written_applied.mpr
      ⟨_, [.singleton ⟨21⟩, .singleton ⟨20⟩], rfl, by decide +kernel, .cons ?_ (.cons ?_ .nil)⟩
    · refine TypeTerm.written_applied.mpr
        ⟨_, [.singleton ⟨16⟩], rfl, by decide +kernel, .cons ?_ .nil⟩
      exact ⟨_, rfl, by decide +kernel⟩
    · refine TypeTerm.written_applied.mpr
        ⟨_, [.singleton ⟨19⟩], rfl, by decide +kernel, .cons ?_ .nil⟩
      refine TypeTerm.written_applied.mpr
        ⟨_, [.singleton ⟨17⟩], rfl, by decide +kernel, .cons ?_ .nil⟩
      exact ⟨_, rfl, by decide +kernel⟩
  have given : ∀ variable_ ∈ TypeTerm.registry.mentions, ∃ set,
      Substitution.registry.Gives environment.declarations state.arena variable_ set := by
    have keys : state.arena.Canonical environment.declarations (.ofList [⟨4⟩, ⟨24⟩]) := by
      intro id member
      rcases List.mem_cons.mp member with rfl | member
      · have proper : Builtin.int ≠ Builtin.tuple := by decide
        exact ⟨.classObject Builtin.int, by decide +kernel, proper⟩
      · cases List.mem_singleton.mp member
        exact ⟨.exactly ⟨3⟩, by decide +kernel, .classObject Builtin.object, by decide +kernel, rfl⟩
    have values : state.arena.Canonical environment.declarations (.ofList [⟨5⟩, ⟨6⟩]) := by
      intro id member
      rcases List.mem_cons.mp member with rfl | member
      · have proper : Builtin.str ≠ Builtin.tuple := by decide
        exact ⟨.classObject Builtin.str, by decide +kernel, proper⟩
      · cases List.mem_singleton.mp member
        exact ⟨.genericClass Builtin.iterable (.ofSlots [.singleton ⟨5⟩]), by decide +kernel, rfl,
          by decide +kernel⟩
    intro variable_ mentioned
    rcases List.mem_cons.mp mentioned with rfl | mentioned
    · exact ⟨_, by decide +kernel, keys⟩
    · cases List.mem_singleton.mp mentioned
      exact ⟨_, by decide +kernel, values⟩
  obtain ⟨free, replaced, between, seen, before, -, isFree, substitutes, instantiates, -, unifies⟩ :=
    unify_recovers_substitution (treeInScope.fixedProvider rfl) (Nat.le_refl _)
      (State.WellFormed.ofWorld wellFormed _) transparent (by decide) hintOpen given
  obtain ⟨enough, after, succeeds⟩ :=
    unifies (Environment.evaluates_of_knows (treeInScope.knows rfl))
  have all : Substitution.registry.restrict free = .registry := by
    rw [Substitution.restrict_congr _ isFree]
    decide +kernel
  rw [all] at succeeds
  exact ⟨transparent, hintOpen, replaced, between, seen, before, enough, after, substitutes,
    instantiates, succeeds⟩

end TypeInference
