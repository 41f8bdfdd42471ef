import TypeInference.Proofs.Conservation
import TypeInference.Proofs.Judgement.Request
import TypeInference.Tree

/-!
# Variables that are not found are not replaced

The variables of a set are found and replaced by walks that look into the same type
arguments.  Type arguments that have been read are known from then on, so that the second
walk sees what the first one saw.  If a substitution gives nothing for the variables that
were found, then replacing them leaves the set and the state as they are.
-/

namespace TypeInference

open Inference

variable {after state : State} {found all : List TypeVariableId} {arguments : TypeArguments}
  {generics : Generics} {nested : TypeSet → Inference TypeSet} {set : TypeSet}

/-! ## Type arguments that have been read -/

/-- Values and type arguments go on to be known. -/
structure State.Retains (state later : State) : Prop where
  value : ∀ {id : ValueId} {stored : Value},
    state.arena.get? id = some stored → later.arena.get? id = some stored
  subscript : ∀ {node : NodeId} {arguments : TypeArguments},
    state.subscripts.get? node = some arguments → later.subscripts.get? node = some arguments

namespace State.Retains

variable {state between later : State}

theorem refl (state : State) : state.Retains state := ⟨id, id⟩

theorem trans (first : state.Retains between) (second : between.Retains later) :
    state.Retains later :=
  ⟨second.value ∘ first.value, second.subscript ∘ first.subscript⟩

theorem of_same (arena : later.arena = state.arena)
    (subscripts : later.subscripts = state.subscripts) :
    state.Retains later :=
  ⟨fun found => arena ▸ found, fun found => subscripts ▸ found⟩

theorem conserved : Conserved State.Retains where
  refl := refl
  trans := trans
  aside beside := of_same beside.arena beside.subscripts
  intern state stored := ⟨Arena.get?_of_le (Arena.le_intern state.arena stored), id⟩

/-- Type arguments that were not known before may be noted. -/
theorem note (retains : state.Retains later) (unknown : state.subscripts.get? node = none)
    (arena : after.arena = later.arena)
    (noted : after.subscripts = later.subscripts.insert node arguments) :
    state.Retains after where
  value found := arena ▸ retains.value found
  subscript {other known} found := by
    have different : other ≠ node := by
      rintro rfl
      rw [unknown] at found
      cases found
    rw [noted, Table.get?_insert_of_ne _ different _]
    exact retains.subscript found

end State.Retains

namespace Engine

variable {engine : Engine}
  (asks : ∀ {α : Type} (operation : Operation α), Conserves State.Retains (engine.ask operation))

include asks

theorem retains_inferNodeOnce (node : NodeId) :
    Conserves State.Retains (engine.inferNodeOnce node) := by
  intro state set after succeeds
  rcases guarded_cases succeeds with ⟨_, _, rfl⟩ | ⟨before, contained, rfl⟩
  · exact .of_same rfl rfl
  · have retains := State.Retains.conserved.run asks _ _ _ _ contained
    exact ⟨retains.value, retains.subscript⟩

theorem retains_readHint (node : NodeId) : Conserves State.Retains (engine.readHint node) :=
  State.Retains.conserved.readHint asks fun _ _ => .of_same rfl rfl

/-- The type arguments behind generics are known when they have been read. -/
theorem retains_typeArguments
    (succeeds : engine.typeArguments generics state = .ok (arguments, after)) :
    state.Retains after ∧
      ∀ node, generics = .lazy node → after.subscripts.get? node = some arguments := by
  cases generics with
  | resolved _ =>
    cases succeeds
    exact ⟨.refl _, fun _ isLazy => by cases isLazy⟩
  | lazy node =>
    have conserved := State.Retains.conserved
    obtain ⟨_, _, ⟨⟩, continued⟩ := bind_eq_ok_iff.mp succeeds
    cases known? : state.subscripts.get? node with
    | some known =>
      rw [known?] at continued
      cases continued
      refine ⟨.refl _, fun _ isLazy => ?_⟩
      cases isLazy
      exact known?
    | none =>
      rw [known?] at continued
      obtain ⟨slots, between, read, continued⟩ := bind_eq_ok_iff.mp continued
      obtain ⟨_, _, ⟨⟩, ⟨⟩⟩ := bind_eq_ok_iff.mp continued
      have retains := conserved.mapM (retains_readHint asks) _ _ _ _ read
      refine ⟨retains.note known? rfl rfl, fun _ isLazy => ?_⟩
      cases isLazy
      exact Table.get?_insert_self _ _ _

theorem abides_retains : engine.Abides State.Retains := by
  have reads : engine.Reads State.Retains :=
    ⟨asks, retains_readHint asks, fun _ _ _ _ succeeds => (retains_typeArguments asks succeeds).1⟩
  exact ⟨reads, retains_inferNodeOnce asks, conserves_returnType State.Retains.conserved reads
    fun arena _ subscripts _ => .of_same arena subscripts⟩

/-- Type arguments that have been read are read again without a change. -/
theorem typeArguments_again {other : Engine}
    (succeeds : engine.typeArguments generics state = .ok (arguments, after))
    (retains : after.Retains known) :
    other.typeArguments generics known = .ok (arguments, known) := by
  cases generics with
  | resolved _ =>
    cases succeeds
    rfl
  | lazy node =>
    have found := retains.subscript ((retains_typeArguments asks succeeds).2 node rfl)
    refine bind_eq_ok_iff.mpr ⟨known, known, rfl, ?_⟩
    rw [found]
    rfl

end Engine

/-! ## Finding variables -/

section Finding

variable {engine : Engine}
  (asks : ∀ {α : Type} (operation : Operation α), Conserves State.Retains (engine.ask operation))

/-- A walk that finds variables: what it has found and read it keeps. -/
def Finds {α : Type} (visit : List TypeVariableId → α → Inference (List TypeVariableId)) : Prop :=
  ∀ found item state all after, visit found item state = .ok (all, after) →
    found ⊆ all ∧ state.Retains after

/-- What one item contributes is still found, and what was read for it known, after the rest. -/
theorem Finds.foldlM {α : Type} {visit : List TypeVariableId → α → Inference (List TypeVariableId)}
    (finds : Finds visit) {items : List α}
    (ran : items.foldlM visit found state = .ok (all, after)) :
    (found ⊆ all ∧ state.Retains after) ∧
      ∀ item ∈ items, ∃ before start some end_, visit before item start = .ok (some, end_) ∧
        some ⊆ all ∧ end_.Retains after := by
  induction items generalizing found state with
  | nil =>
    cases ran
    exact ⟨⟨fun _ member => member, .refl _⟩, by simp⟩
  | cons item rest ih =>
    rw [List.foldlM_cons] at ran
    obtain ⟨first, between, started, finished⟩ := bind_eq_ok_iff.mp ran
    obtain ⟨more, retains⟩ := finds _ _ _ _ _ started
    obtain ⟨⟨others, retainsAfter⟩, each⟩ := ih finished
    refine ⟨⟨fun _ member => others (more member), retains.trans retainsAfter⟩, ?_⟩
    intro other member
    rcases List.mem_cons.mp member with rfl | inRest
    · exact ⟨_, _, _, _, started, others, retainsAfter⟩
    · exact each other inRest

include asks

theorem finds_collectValue
    {nested : List TypeVariableId → TypeSet → Inference (List TypeVariableId)}
    (nestedFinds : Finds nested) :
    Finds (engine.collectValue nested) := by
  intro found id state all after ran
  obtain ⟨stored, between, looked, continued⟩ := bind_eq_ok_iff.mp ran
  unfold value at looked
  split at looked <;> cases looked
  have nothing (done : (pure found : Inference _) state = .ok (all, after)) :
      found ⊆ all ∧ state.Retains after := by
    cases done
    exact ⟨fun _ member => member, .refl _⟩
  have arguments {generics : Generics}
      (done : (engine.typeArguments generics >>= fun arguments =>
        arguments.slots.foldlM nested found) state = .ok (all, after)) :
      found ⊆ all ∧ state.Retains after := by
    obtain ⟨arguments, read, started, finished⟩ := bind_eq_ok_iff.mp done
    obtain ⟨⟨more, retains⟩, _⟩ := nestedFinds.foldlM finished
    exact ⟨more, (engine.retains_typeArguments asks started).1.trans retains⟩
  cases stored with
  | typeVariable variable_ =>
    cases continued
    refine ⟨fun other member => ?_, .refl _⟩
    split
    · exact member
    · exact List.mem_append_left _ member
  | genericClass _ generics | special _ generics => exact arguments continued
  | typeList items => exact (nestedFinds.foldlM continued).1
  | _ => exact nothing continued

theorem finds_collectWithin (levels : Nat) : Finds (engine.collectWithin levels) := by
  induction levels with
  | zero =>
    rintro found set state _ _ ⟨⟩
    exact ⟨fun _ member => member, .refl _⟩
  | succ levels ih =>
    intro found set state all after ran
    exact ((finds_collectValue asks ih).foldlM ran).1

end Finding

/-! ## Replacing variables -/

section Replacing

variable {engine other : Engine} {substitution : Substitution} {known : State}
  (asks : ∀ {α : Type} (operation : Operation α), Conserves State.Retains (engine.ask operation))

/-- If nothing in some slots is replaced, then they stay as they are. -/
theorem substituteSlots_eq_none (each : ∀ slot ∈ slots, nested slot known = .ok (slot, known)) :
    Engine.substituteSlots nested slots known = .ok (none, known) := by
  have same : slots.mapM nested known = .ok (slots, known) := by
    induction slots with
    | nil => rfl
    | cons slot rest ih =>
      have restSame := ih fun other member => each other (by simp [member])
      rw [List.mapM_cons, bind_of_ok (each slot (by simp)), bind_of_ok restSame]
      rfl
  unfold Engine.substituteSlots
  rw [bind_of_ok same, if_pos rfl]
  rfl

/-- If none of the members is replaced, then the set stays as it is. -/
theorem unionOver_singletons {setOf : ValueId → Inference TypeSet}
    (each : ∀ id ∈ ids, setOf id known = .ok (.singleton id, known)) :
    ∃ set, unionOver setOf ids known = .ok (set, known) ∧ ∀ id, id ∈ set ↔ id ∈ ids := by
  induction ids with
  | nil => exact ⟨∅, rfl, by simp⟩
  | cons id rest ih =>
    obtain ⟨others, united, members⟩ := ih fun other member => each other (by simp [member])
    refine ⟨TypeSet.singleton id ∪ others, ?_, fun other => ?_⟩
    · show (setOf id >>= fun first => unionOver setOf rest >>= fun others => _) known = _
      rw [bind_of_ok (each id (by simp)), bind_of_ok united]
      rfl
    · rw [TypeSet.mem_union, TypeSet.mem_singleton, members, List.mem_cons]

include asks

/-- A walk that has seen a value and found nothing to replace in it. -/
theorem substituteValue_eq_none
    {collect : List TypeVariableId → TypeSet → Inference (List TypeVariableId)}
    (finds : Finds collect) {id : ValueId}
    (ran : engine.collectValue collect found id state = .ok (all, after))
    (retains : after.Retains known) (absent : ∀ variable_ ∈ all, substitution.get? variable_ = none)
    (each : ∀ before set start some end_, collect before set start = .ok (some, end_) →
      some ⊆ all → end_.Retains known → nested set known = .ok (set, known)) :
    other.substituteValue substitution nested id known = .ok (none, known) := by
  have keeps := (finds_collectValue asks finds) _ _ _ _ _ ran
  obtain ⟨stored, between, looked, continued⟩ := bind_eq_ok_iff.mp ran
  unfold value at looked
  split at looked <;> cases looked
  rename_i isStored
  have storedKnown := retains.value (keeps.2.value isStored)
  unfold Engine.substituteValue
  rw [bind_of_ok (value_of_get? storedKnown)]
  have slots {items : List TypeSet} {start : State}
      (done : items.foldlM collect found start = .ok (all, after)) :
      Engine.substituteSlots nested items known = .ok (none, known) := by
    refine substituteSlots_eq_none fun slot member => ?_
    obtain ⟨_, _, _, _, visited, more, retainsAfter⟩ := (finds.foldlM done).2 slot member
    exact each _ _ _ _ _ visited more (retainsAfter.trans retains)
  have generics {generics : Generics}
      (done : (engine.typeArguments generics >>= fun arguments =>
        arguments.slots.foldlM collect found) state = .ok (all, after)) :
      other.substituteGenerics nested generics known = .ok (none, known) := by
    obtain ⟨arguments, read, started, finished⟩ := bind_eq_ok_iff.mp done
    have again : other.typeArguments generics known = .ok (arguments, known) :=
      engine.typeArguments_again asks started ((finds.foldlM finished).1.2.trans retains)
    unfold Engine.substituteGenerics
    rw [bind_of_ok again, bind_of_ok (slots finished)]
    rfl
  cases stored with
  | typeVariable variable_ =>
    cases continued
    have isFound : variable_ ∈ (if variable_ ∈ found then found else found ++ [variable_]) := by
      split
      · assumption
      · simp
    simp only [absent variable_ isFound]
    rfl
  | genericClass _ _ | special _ _ =>
    dsimp only
    rw [bind_of_ok (generics continued)]
    rfl
  | typeList items =>
    dsimp only
    rw [bind_of_ok (slots continued)]
    rfl
  | _ => rfl

theorem substituteWithin_eq_self {levels : Nat}
    (ran : engine.collectWithin levels found set state = .ok (all, after))
    (retains : after.Retains known)
    (absent : ∀ variable_ ∈ all, substitution.get? variable_ = none) :
    other.substituteWithin substitution levels set known = .ok (set, known) := by
  induction levels generalizing set found all state after with
  | zero => rfl
  | succ levels ih =>
    have finds := finds_collectWithin asks levels
    have visits := ((finds_collectValue asks finds).foldlM ran).2
    have unchanged : ∀ id ∈ set.members, other.substituteValue substitution
        (other.substituteWithin substitution levels) id known = .ok (none, known) := by
      intro id member
      obtain ⟨_, _, _, _, visited, more, retainsAfter⟩ := visits id member
      refine substituteValue_eq_none asks finds visited (retainsAfter.trans retains)
        (fun variable_ isFound => absent variable_ (more isFound)) ?_
      intro _ _ _ _ _ collected some end_
      exact ih collected end_ fun variable_ isFound => absent variable_ (more (some isFound))
    have kept : ∀ id ∈ set.members, (do
        let replaced ← other.substituteValue substitution
          (other.substituteWithin substitution levels) id
        return replaced.getD (.singleton id) : Inference TypeSet) known =
          .ok (.singleton id, known) := by
      intro id member
      rw [bind_of_ok (unchanged id member)]
      rfl
    obtain ⟨united, unites, members⟩ := unionOver_singletons kept
    have same : united = set := TypeSet.ext_mem fun id => members id
    rw [same] at unites
    exact unites

/-- Replacing variables that a set was not found to mention changes nothing. -/
theorem substitute_eq_self (levels : other.levels = engine.levels)
    (ran : engine.freeVariables set state = .ok (found, after)) (retains : after.Retains known)
    (absent : ∀ variable_ ∈ found, substitution.get? variable_ = none) :
    other.substitute set substitution known = .ok (set, known) := by
  unfold Engine.substitute
  split
  · rfl
  · rw [levels]
    exact substituteWithin_eq_self asks ran retains absent

end Replacing

/-! ## Substitutions of other variables -/

theorem Environment.abides_retains (env : Environment) (fuel : Nat) :
    (env.stage fuel).Abides State.Retains :=
  env.abides_stage State.Retains.conserved (fun _ asks => Engine.abides_retains asks) fuel

/--
Whatever the tree and the limits are, a substitution leaves alone a set that it does not
concern.  If none of the variables that were found in the set is in its domain, then
replacing them next gives the very same set, and nothing else about the state changes.
-/
theorem substitute_of_disjoint_domain
    (environment : Environment)
    (fuel more : Nat)
    (set : TypeSet)
    (substitution : Substitution)
    (searches : environment.answer fuel (.freeVariables set) state = .ok (found, after))
    (disjoint : found.Disjoint substitution.domain) :
    environment.answer more (.substitute set substitution) after = .ok (set, after) := by
  rw [Environment.answer, ← environment.stage_eq_engine] at searches ⊢
  have levels : (environment.stage more).levels = (environment.stage fuel).levels := by
    rw [Engine.levels, Engine.levels, environment.stage_toEnvironment,
      environment.stage_toEnvironment]
  have absent : ∀ variable_ ∈ found, substitution.get? variable_ = none :=
    fun _ isFound => Substitution.get?_eq_none_of_not_mem_domain (disjoint isFound)
  exact substitute_eq_self (environment.abides_retains fuel).asks levels searches (.refl after)
    absent

/-- The arena every analysis starts from, with lists of what is optionally a key. -/
def Arena.optionalKeys : Arena :=
  World.initial.arena.append
    [.genericClass Builtin.list (.lazy ⟨0⟩), .special .optional (.ofSlots [.singleton ⟨16⟩])]

/-- The type argument of the lists is read from the tree. -/
def Tree.optionalKeys : Tree :=
  { nodes := #[.fixed (.singleton ⟨20⟩)] }

/-- Keys are found behind two kinds of type arguments, and replacing values leaves them alone. -/
theorem substitute_of_disjoint_domain_of_optionalKeys :
    let environment : Environment :=
      { declarations := World.initial.declarations, provider := Tree.optionalKeys.fixedProvider }
    let values : Substitution := .ofList [⟨⟨7⟩, .singleton ⟨4⟩⟩]
    ∃ after,
      environment.answer 1 (.freeVariables (.singleton ⟨19⟩))
          (environment.start Arena.optionalKeys) = .ok ([⟨6⟩], after) ∧
        environment.answer 1 (.substitute (.singleton ⟨19⟩) values) after =
          .ok (.singleton ⟨19⟩, after) := by
  intro environment values
  obtain ⟨after, searches⟩ : ∃ after,
      environment.answer 1 (.freeVariables (.singleton ⟨19⟩))
          (environment.start Arena.optionalKeys) = .ok ([⟨6⟩], after) := ⟨_, rfl⟩
  have disjoint : [⟨6⟩].Disjoint values.domain := by
    apply List.singleton_disjoint.mpr
    decide +kernel
  exact ⟨after, searches, substitute_of_disjoint_domain environment 1 1 _ values searches disjoint⟩

end TypeInference
