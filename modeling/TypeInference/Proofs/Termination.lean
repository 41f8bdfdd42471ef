import TypeInference.Proofs.Reachability
import TypeInference.Proofs.Substitution
import TypeInference.Proofs.Termination.FunctionCall

/-!
# Operations finish

Over a tree of fixed nodes without bodies, every operation finishes if the bare calls
finish that nothing guards: those of generic classes, and those of callables with
receivers.  Where there are no callables and only functions are bound to receivers,
there are no such calls, so that every operation finishes.
-/

namespace TypeInference

variable {α : Type} {operation : Operation α} {state : State} {id : ValueId}

def Declarations.HasNoConstructors (declarations : Declarations) : Prop :=
  ∀ class_ declaration, declarations.class? class_ = some declaration →
    declaration.methods.get? "__init__" = none

/-- From some fuel on, an operation has one and the same answer. -/
def Environment.Finishes {α : Type} (environment : Environment) (state : State)
    (operation : Operation α) : Prop :=
  ∃ enough answer, ∀ fuel, enough ≤ fuel → environment.answer fuel operation state = .ok answer

/--
An arena that may have callables only if they are to be matched, and methods of other
values than functions only if these are to be applied.
-/
structure Arena.Allows (matching applied : Prop) (arena : Arena) : Prop where
  callables : ∀ id stored, arena.get? id = some stored → stored.isCallable = true → matching
  methods : ∀ id callee receiver, arena.get? id = some (.boundMethod callee receiver) →
    applied ∨ ∃ stored, arena.get? callee = some stored ∧ stored.isFunction = true

namespace Arena

variable {initial arena : Arena} {matching applied : Prop} {remaining : Nat}
  {returns : Table Invocation Progress}

/-- An arena resumes itself, and at most those calls are missing that are. -/
theorem Allows.resumes (allows : arena.Allows matching applied)
    (returns : Table Invocation Progress) :
    arena.Resumes matching (returns.missing arena.bareInvocations) arena returns where
  continues := Arena.le_refl arena
  functions := fun _ _ found _ => found
  callables := allows.callables
  missing := Nat.le_refl _

theorem Allows.resume (allows : initial.Allows matching applied)
    (resumes : initial.Resumes matching remaining arena returns) :
    arena.Allows matching applied where
  callables := resumes.callables
  methods := by
    intro id callee receiver found
    rcases allows.methods id callee receiver (resumes.functions id _ found rfl) with
      isApplied | ⟨stored, calleeFound, isFunction⟩
    · exact Or.inl isApplied
    · exact Or.inr ⟨stored, Arena.get?_of_le resumes.continues calleeFound, isFunction⟩

/-- Whatever is interned is allowed if it is as an arena allows it to be. -/
theorem Allows.intern (allows : arena.Allows matching applied)
    (matched : value.isCallable = true → matching)
    (method : ∀ callee receiver, value = .boundMethod callee receiver →
      applied ∨ ∃ stored, arena.get? callee = some stored ∧ stored.isFunction = true) :
    (arena.intern value).2.Allows matching applied := by
  have continues := Arena.le_intern arena value
  have cases : ∀ id stored, (arena.intern value).2.get? id = some stored →
      arena.get? id = some stored ∨ stored = value := by
    intro id stored found
    rcases Arena.intern_cases arena value with ⟨other, interned, -⟩ | ⟨interned, -⟩
    · rw [interned] at found
      exact Or.inl found
    · rw [interned] at found
      exact (Arena.get?_push found).imp_right And.right
  refine ⟨fun id stored found isCallable => ?_, fun id callee receiver found => ?_⟩
  · rcases cases id stored found with earlier | rfl
    · exact allows.callables id stored earlier isCallable
    · exact matched isCallable
  · have allowed : applied ∨
        ∃ stored, arena.get? callee = some stored ∧ stored.isFunction = true := by
      rcases cases id _ found with earlier | same
      · exact allows.methods id callee receiver earlier
      · exact method callee receiver same.symm
    exact allowed.imp_right fun ⟨stored, calleeFound, isFunction⟩ =>
      ⟨stored, Arena.get?_of_le continues calleeFound, isFunction⟩

end Arena

/-- Arenas that continue an origin by what is allowed. -/
def Upkeep.allowing (origin : Arena) (matching applied : Prop) : Upkeep where
  Invariant := fun arena _ => origin ≤ arena ∧ arena.Allows matching applied
  Callee := fun _ => True
  Matching := matching
  met := fun invariant found =>
    ⟨fun _ => trivial, fun isCallable => invariant.2.callables _ _ found isCallable⟩
  interned := by
    intro arena returns value noFunction matched invariant
    refine ⟨Arena.le_trans invariant.1 (Arena.le_intern _ _), ?_⟩
    refine invariant.2.intern matched fun callee receiver same => ?_
    subst same
    cases noFunction

namespace Judgement

variable {env : Environment} {origin : Arena} {bound : Nat} {matching applied : Prop}
  (knows : env.provider.Knows env.declarations origin.size)

open Inference

/-! ## Operations that intern no functions -/

section Resuming

variable {initial : Arena} {remaining : Nat}
  (continues : origin ≤ initial)
  (wellFormed : World.WellFormed ⟨initial, env.declarations⟩)
  (allows : initial.Allows matching applied)
  (settles : Settles env initial matching applied)

include knows continues wellFormed allows settles

/-- All that is asked of a request that keeps to the functions of an arena is answered. -/
theorem resuming_serves : (total env (.resuming initial matching remaining)).Serves := by
  have spans := Arena.size_le_of_le continues
  have reads : (total env (.resuming initial matching remaining)).Reads :=
    total_reads knows (resuming_spans spans)
  have bodies : (total env (.resuming initial matching remaining)).Bodies :=
    bodies_of_knows knows (resuming_spans spans)
  obtain ⟨calls, matched⟩ :=
    resuming_calls_and_matches knows spans wellFormed allows.methods settles remaining
  -- As for bare calls, a bound method leads to a value that was interned before it.
  have values : ∀ limit bound id arguments, id.index < limit →
      env.Scopes bound id → env.Scopes bound arguments →
      (total env (.resuming initial matching remaining)).Yields bound fun fuel =>
        (env.stage fuel).executeValue arguments id := by
    intro limit
    induction limit with
    | zero => intro _ id _ below; omega
    | succ limit ih =>
      intro bound id arguments below idWithin within
      refine yields_executeValue reads calls matched ?_ ?_ within idWithin
      · intro later function larger functionWithin
        exact yields_returnType reads calls matched bodies Arena.Resumes.note functionWithin
          (within.grow larger)
      · intro later callee receiver larger calleeBelow receiverWithin
        have calleeWithin : env.Scopes later callee :=
          Nat.lt_trans calleeBelow (Nat.lt_of_lt_of_le idWithin larger)
        have argumentsWithin : env.Scopes later
            (Arguments.bound receiver arguments) := ⟨receiverWithin, within.grow larger⟩
        have answers : (total env (.resuming initial matching remaining)).Answers later
            (.execute (.singleton callee) (.bound receiver arguments)) fun fuel =>
              (env.stage fuel).ask (.execute (.singleton callee) (.bound receiver arguments)) := by
          refine total_asks fun _ => yields_unionOver fun other member => ?_
          cases List.mem_singleton.mp member
          exact ih later callee _ (by omega) calleeWithin argumentsWithin
        exact answers ⟨within_singleton calleeWithin, argumentsWithin⟩
  refine ⟨reads, bodies, Arena.Resumes.note, fun bound set arguments setWithin within => ?_⟩
  have answers : (total env (.resuming initial matching remaining)).Answers bound
      (.execute set arguments) fun fuel => (env.stage fuel).ask (.execute set arguments) :=
    total_asks fun _ => yields_unionOver fun id member =>
      values (id.index + 1) bound id arguments (Nat.lt_succ_self _) (setWithin id member) within
  exact answers ⟨setWithin, within⟩

theorem resuming_performs (internsNone : operation.internsFunctions = false) :
    (total env (.resuming initial matching remaining)).Answers bound operation fun fuel =>
      (env.stage fuel).perform operation :=
  (resuming_serves knows continues wellFormed allows settles).performs
    (fun _ node => yields_done (resuming_spans (Arena.size_le_of_le continues)) (knows.nodes node))
    internsNone bound

end Resuming

/-! ## Attributes -/

section Attributes

variable
  (settles : ∀ initial : Arena, World.WellFormed ⟨initial, env.declarations⟩ →
    origin ≤ initial → initial.Allows matching applied →
    Settles env initial matching applied)

/-- A step that keeps to the functions of any arena keeps to what is allowed. -/
theorem allowing_yields_of_resuming [Scoped α] {step : Nat → Inference α}
    (yields : ∀ (initial : Arena) (remaining : Nat),
      World.WellFormed ⟨initial, env.declarations⟩ → origin ≤ initial →
      initial.Allows matching applied →
      (total env (.resuming initial matching remaining)).Yields bound step) :
    (total env (.allowing origin matching applied)).Yields bound step := by
  intro state admitted larger
  obtain ⟨continues, allows⟩ : origin ≤ state.arena ∧ state.arena.Allows matching applied :=
    admitted.invariant
  have resumed := yields state.arena _ admitted.wellFormed.world continues allows state
    ⟨admitted.wellFormed, allows.resumes state.returns⟩ larger
  refine weaken resumed fun result holds => ?_
  obtain ⟨resultAdmitted, resultContinues, resultWithin⟩ := holds
  exact ⟨⟨resultAdmitted.wellFormed, Arena.le_trans continues resultContinues,
    allows.resume resultAdmitted.invariant⟩, resultContinues, resultWithin⟩

/-- Methods are interned before they are bound. -/
theorem allowing_interns : (total env (.allowing origin matching applied)).Interns := by
  intro arena returns group invariant
  obtain ⟨continues, allows⟩ : origin ≤ arena ∧ arena.Allows matching applied := invariant
  have grown : ∀ {arena : Arena} (stored : Value), origin ≤ arena →
      origin ≤ (arena.intern stored).2 :=
    fun _ continues => Arena.le_trans continues (Arena.le_intern _ _)
  have isFunction : group.callee.isFunction = true := by cases group <;> rfl
  have calleeAllows : (arena.intern group.callee).2.Allows matching applied := by
    refine allows.intern (fun isCallable => ?_) fun callee receiver same => ?_
    · cases group <;> cases isCallable
    · cases group <;> cases same
  refine ⟨⟨grown _ continues, calleeAllows⟩, fun receiver => ⟨grown _ (grown _ continues), ?_⟩⟩
  refine calleeAllows.intern (fun isCallable => nomatch isCallable) ?_
  rintro callee receiver ⟨⟩
  exact Or.inr ⟨group.callee, Arena.get?_intern arena group.callee, isFunction⟩

include knows settles

theorem allowing_readAttribute {set : TypeSet} (within : env.Scopes bound set) (name : String) :
    (total env (.allowing origin matching applied)).Yields bound fun fuel =>
      (env.stage fuel).readAttribute set name := by
  have reads : (total env (.allowing origin matching applied)).Reads :=
    total_reads knows fun invariant => Arena.size_le_of_le invariant.1
  refine yields_readAttribute reads allowing_interns ?_ within name
  intro later owner node ownerWithin
  refine allowing_yields_of_resuming fun initial remaining wellFormed continues allows => ?_
  have serves : (total env (.resuming initial matching remaining)).Serves :=
    resuming_serves knows continues wellFormed allows (settles initial wellFormed continues allows)
  exact yields_fieldValue serves.reads serves.calls ownerWithin node

end Attributes

/-! ## Operations -/

/-- A step that answers from some fuel on finishes. -/
theorem finishes_of_keepsAt (kept : (total env upkeep).KeepsAt state
      (fun fuel => (env.stage fuel).perform operation) post) :
    env.Finishes state operation := by
  obtain ⟨enough, answer, -, succeeds⟩ := kept
  simp only [env.stage_eq_engine] at succeeds
  exact ⟨enough, answer, succeeds⟩

include knows in
/-- Operations finish where the calls do that nothing guards. -/
theorem finishes_of_settles
    (settles : ∀ initial : Arena, World.WellFormed ⟨initial, env.declarations⟩ →
      origin ≤ initial → initial.Allows matching applied →
      Settles env initial matching applied)
    (wellFormed : state.WellFormed env.declarations) (continues : origin ≤ state.arena)
    (allows : state.arena.Allows matching applied)
    (inScope : operation.InScope env.declarations state.arena.size) :
    env.Finishes state operation := by
  cases internsFunctions : operation.internsFunctions with
  | false =>
    have performs := resuming_performs knows continues wellFormed.world allows
      (settles state.arena wellFormed.world continues allows) internsFunctions inScope state
      ⟨wellFormed, allows.resumes state.returns⟩ (Nat.le_refl _)
    exact finishes_of_keepsAt performs
  | true =>
    cases operation with
    | intern stored => exact ⟨0, _, fun _ _ => rfl⟩
    | readAttribute set name =>
      have performs := allowing_readAttribute knows settles inScope name state
        ⟨wellFormed, continues, allows⟩ (Nat.le_refl _)
      exact finishes_of_keepsAt performs
    | _ => cases internsFunctions

/-! ## Calls that nothing guards -/

section Unguarded

variable {initial : Arena} (continues : origin ≤ initial)

section Constructors

variable {judgement : Judgement env} (bare : env.declarations.HasNoConstructors)

include bare

theorem keeps_firstMember_of_hasNoConstructors (within : env.Scopes bound reached) :
    judgement.Keeps bound
      (fun fuel => (env.stage fuel).firstMember "__init__" reached)
      fun _ found => ∀ owner group, found ≠ some (owner, .method group) := by
  induction reached generalizing bound with
  | nil => exact keeps_pure fun _ _ _ _ => by simp
  | cons ancestor rest ih =>
    replace within := within_cons.mp within
    refine Keeps.bind (keeps_classDeclaration within.1.1) fun _ declaration larger declared => ?_
    cases found : declaration.member? "__init__" with
    | none => exact ih (within.2.grow larger)
    | some member =>
      simp only [ClassDeclaration.member?, bare _ _ declared.1] at found
      obtain ⟨node, -, rfl⟩ := Option.map_eq_some_iff.mp found
      exact keeps_pure fun _ _ _ _ => by simp

theorem keeps_constructor?_of_hasNoConstructors (reads : judgement.Reads)
    (within : env.Scopes bound id) :
    judgement.Keeps bound (fun fuel => (env.stage fuel).constructor? id)
      fun _ found => found = none := by
  have looked : judgement.Keeps bound
      (fun fuel => (env.stage fuel).lookUpMember id "__init__")
      fun _ found => ∀ owner group, found ≠ some (owner, .method group) :=
    Yields.bind (yields_ancestors reads within) fun _ _ _ reachedWithin =>
      keeps_firstMember_of_hasNoConstructors bare reachedWithin
  refine Keeps.bind looked fun _ found _ noMethod => ?_
  match found, noMethod with
  | none, _ => exact keeps_pure fun _ _ => rfl
  | some (owner, .field node), _ => exact keeps_pure fun _ _ => rfl
  | some (owner, .method group), noMethod => exact absurd rfl (noMethod owner group)

/-- Without constructors there is nothing that the call of a class could infer. -/
theorem yields_construct_of_hasNoConstructors (reads : judgement.Reads)
    (within : env.Scopes bound class_) (arguments : Arguments) :
    judgement.Stages bound (·.construct class_ arguments) := by
  refine Yields.bind (yields_classDeclaration within) fun later declaration larger _ => ?_
  have within := within.grow larger
  refine keeps_ite (fun _ => ?_) fun _ => yields_instantiate within within_nil
  have generics : judgement.Stages later (·.constructedGenerics class_ declaration arguments) := by
    have classYields : judgement.Yields later fun _ => intern (.classObject class_) :=
      yields_intern within rfl
    refine Yields.bind classYields fun _ id _ idWithin => ?_
    refine Keeps.bind (keeps_constructor?_of_hasNoConstructors bare reads idWithin)
      fun _ constructor _ none => ?_
    subst none
    exact yields_pure within_nil
  exact Yields.bind generics fun _ _ larger genericsWithin =>
    yields_instantiate (within.grow larger) genericsWithin

end Constructors

include knows continues

theorem settles_of_hasNoConstructors (bare : env.declarations.HasNoConstructors) :
    Settles env initial matching False := by
  intro remaining state id receivers stored admitted _ found isUnguarded reason
  obtain ⟨-, rfl⟩ := reason.resolve_left not_false
  refine keepsAt_value found ?_
  cases stored with
  | classObject class_ =>
    have within := admitted.wellFormed.world.within_of_get? found
    have reads : (total env (.resuming initial matching remaining)).Reads :=
      total_reads knows (resuming_spans (Arena.size_le_of_le continues))
    exact yields_construct_of_hasNoConstructors bare reads within _ state admitted (Nat.le_refl _)
  | callable generics => exact absurd rfl isUnguarded
  | _ => cases isUnguarded

/-- With any fuel, calls keep to the functions of an arena. -/
theorem faultless_resuming_executes (remaining limit : Nat) (set : TypeSet) (arguments : Arguments)
    (bound : Nat) :
    (faultless env (.resuming initial matching remaining) limit).Answers bound
      (.execute set arguments) fun fuel => (env.stage fuel).perform (.execute set arguments) := by
  have spans := Arena.size_le_of_le continues
  induction limit using Nat.strongRecOn generalizing bound set arguments with
  | ind limit ih =>
    have serves : (faultless env (.resuming initial matching remaining) limit).Serves :=
      { reads := reads_of_asks knows (resuming_spans spans) fun _ node =>
          faultless_asks fun _ _ => inferNode_of_knows knows (resuming_spans spans) node
        bodies := bodies_of_knows knows (resuming_spans spans)
        notes := Arena.Resumes.note
        executes := fun bound set arguments setWithin within =>
          faultless_asks (fun smaller below =>
            ih smaller below set arguments bound) ⟨setWithin, within⟩ }
    exact fun inScope => yields_executeSet serves inScope.1 inScope.2

/-- If calls that nothing guards finish, then they keep to the functions of an arena. -/
theorem settles_of_finishes (finishes : ∀ state : State, state.WellFormed env.declarations →
      origin ≤ state.arena → ∀ id receivers stored, state.arena.get? id = some stored →
      stored.IsUnguarded env.declarations receivers →
      env.Scopes state.arena.size receivers →
      env.Finishes state (.execute (.singleton id) (.ofReceivers receivers))) :
    Settles env initial matching applied := by
  intro remaining state id receivers stored admitted within found isUnguarded _
  have idWithin := Arena.lt_size_of_get? found
  have resumes : initial.Resumes matching remaining state.arena state.returns := admitted.invariant
  obtain ⟨enough, ⟨result, after⟩, succeeds⟩ := finishes state admitted.wellFormed
    (Arena.le_trans continues resumes.continues) id receivers stored found isUnguarded within
  have success : ∀ fuel, enough ≤ fuel →
      (env.stage fuel).executeValue (.ofReceivers receivers) id state = .ok (result, after) := by
    intro fuel large
    have called : ((env.stage fuel).executeSet (.singleton id) (.ofReceivers receivers))
        state = .ok (result, after) := by
      rw [env.stage_eq_engine]
      exact succeeds fuel large
    obtain ⟨first, between, firstCalled, rest⟩ := bind_eq_ok_iff.mp called
    obtain ⟨others, final, restCalled, united⟩ := bind_eq_ok_iff.mp rest
    cases restCalled
    cases united
    rw [firstCalled, TypeSet.union_empty]
  have inScope : (Operation.execute (.singleton id) (.ofReceivers receivers)).InScope
      env.declarations state.arena.size :=
    ⟨within_singleton idWithin, within_ofReceivers within⟩
  have kept := faultless_resuming_executes knows continues remaining enough _ _ state.arena.size
    inScope state ⟨admitted.wellFormed, admitted.invariant⟩ (Nat.le_refl _) enough (Nat.le_refl _)
  simp only [env.stage_eq_engine] at kept
  obtain ⟨⟨afterAdmitted, continues, resultWithin⟩, -⟩ :=
    kept.2 (result, after) (succeeds enough (Nat.le_refl _))
  exact ⟨enough, (result, after),
    ⟨⟨afterAdmitted.wellFormed, afterAdmitted.invariant⟩, continues, resultWithin⟩, success⟩

end Unguarded

end Judgement

/-! ## Trees of fixed nodes -/

/-- Methods are those of functions only. -/
def Arena.BindsFunctions (arena : Arena) : Prop :=
  ∀ id callee receiver, arena.get? id = some (.boundMethod callee receiver) →
    ∃ stored, arena.get? callee = some stored ∧ stored.isFunction = true

/-- There are no callables, and no annotations that describe them. -/
def Arena.HasNoCallables (arena : Arena) : Prop :=
  ∀ id stored, arena.get? id = some stored → stored.isCallable = false

/-- What a tree of fixed nodes without bodies knows it knows at once. -/
theorem Tree.InScope.knows {tree : Tree} (inScope : tree.InScope declarations base)
    (bodiless : tree.bodies = ∅) :
    tree.fixedProvider.Knows declarations base where
  nodes := fun node => ⟨_, rfl, inScope.nodes node⟩
  names := by
    intro name
    refine ⟨_, rfl, ?_⟩
    cases found : tree.names.get? name with
    | none => exact within_empty
    | some set => exact inScope.names name set found
  bodies := by
    intro execution
    refine ⟨∅, ?_, within_empty⟩
    show tree.bodyProgram execution = .done ∅
    unfold Tree.bodyProgram
    rw [bodiless]
    rfl

/--
Over a tree of fixed nodes without bodies, all operations of all requests finish if
and only if the bare calls finish that nothing guards, which are those of generic
classes and of callables with receivers.  Besides, all operations of a request finish
if it binds functions only and there are no callables, or else no constructors.
-/
theorem finishes_iff_unguarded_calls_finish
    {declarations : Declarations}
    {settings : Settings}
    {tree : Tree}
    {origin : Arena}
    (bodiless : tree.bodies = ∅)
    (treeInScope : tree.InScope declarations origin.size) :
    let environment : Environment :=
      { declarations := declarations, provider := tree.fixedProvider, settings := settings }
    ((∀ state : State, state.WellFormed declarations → origin ≤ state.arena →
        ∀ {α : Type} (operation : Operation α),
          operation.InScope declarations state.arena.size →
          environment.Finishes state operation) ↔
      ∀ state : State, state.WellFormed declarations → origin ≤ state.arena →
        ∀ id receivers stored, state.arena.get? id = some stored →
          stored.IsUnguarded declarations receivers →
          Within declarations state.arena.size receivers →
          environment.Finishes state (.execute (.singleton id) (.ofReceivers receivers))) ∧
    ∀ state : State, state.WellFormed declarations → origin ≤ state.arena →
      state.arena.BindsFunctions →
      state.arena.HasNoCallables ∨ declarations.HasNoConstructors →
      ∀ {α : Type} (operation : Operation α),
        operation.InScope declarations state.arena.size →
        environment.Finishes state operation := by
  intro environment
  have knows : environment.provider.Knows environment.declarations origin.size :=
    treeInScope.knows bodiless
  refine ⟨⟨fun finishes state wellFormed continues id receivers stored found _ within => ?_,
    fun finishes state wellFormed continues α operation inScope => ?_⟩,
    fun state wellFormed continues bindsFunctions unmatched α operation inScope => ?_⟩
  · exact finishes state wellFormed continues _
      ⟨within_singleton (Arena.lt_size_of_get? found), within_ofReceivers within⟩
  · have allows : state.arena.Allows True True :=
      ⟨fun _ _ _ _ => trivial, fun _ _ _ _ => Or.inl trivial⟩
    exact Judgement.finishes_of_settles knows
      (fun _ _ continues _ => Judgement.settles_of_finishes knows continues finishes)
      wellFormed continues allows inScope
  · rcases unmatched with noCallables | bare
    · have allows : state.arena.Allows False False :=
        ⟨fun id stored found isCallable => by simp [noCallables id stored found] at isCallable,
          fun id callee receiver found => Or.inr (bindsFunctions id callee receiver found)⟩
      refine Judgement.finishes_of_settles knows (fun _ _ _ _ => ?_) wellFormed continues allows
        inScope
      intro _ _ _ _ _ _ _ _ _ reason
      simp at reason
    · have allows : state.arena.Allows True False :=
        ⟨fun _ _ _ _ => trivial,
          fun id callee receiver found => Or.inr (bindsFunctions id callee receiver found)⟩
      exact Judgement.finishes_of_settles knows
        (fun _ _ continues _ => Judgement.settles_of_hasNoConstructors knows continues bare)
        wellFormed continues allows inScope

/-- What holds of all values of an arena holds of those that are found in it. -/
theorem Arena.forall_get? {arena : Arena} {property : Value → Prop}
    (holds : ∀ stored ∈ arena.values.toList, property stored)
    (found : arena.get? id = some stored) :
    property stored :=
  holds stored (Array.mem_toList_iff.mpr (Array.mem_of_getElem? found))

/-- A generic class whose constructor is given the class itself, if it is given nothing else. -/
def World.selfBuilding : World :=
  let (variable_, declared) := World.initial.declarations.addTypeVariable "T"
  let (class_, declared) := declared.addClass { name := "Box", typeParameters := [variable_] }
  let content : Parameter := { name := "content", hint := some ⟨0⟩, default := some ⟨1⟩ }
  let (_, declared) :=
    declared.addMethod class_ { name := "__init__", parameters := [{ name := "self" }, content] }
  { arena := World.initial.arena.append
      [.classObject class_, .typeVariable variable_,
        .special .type (.ofSlots [.singleton ⟨20⟩])]
    declarations := declared }

/-- Calling such a class without arguments finishes, since its constructor takes no callable. -/
theorem finishes_of_selfBuilding :
    let tree : Tree := { nodes := #[.fixed (.singleton ⟨21⟩), .fixed (.singleton ⟨19⟩)] }
    let environment : Environment :=
      { declarations := World.selfBuilding.declarations, provider := tree.fixedProvider }
    tree.bodies = ∅ ∧
      tree.InScope environment.declarations World.selfBuilding.arena.size ∧
      World.selfBuilding.WellFormed ∧
      World.selfBuilding.arena.HasNoCallables ∧
      environment.Finishes (environment.start World.selfBuilding.arena)
        (.execute (.singleton ⟨19⟩) .empty) := by
  intro tree environment
  have inScope : tree.InScope environment.declarations World.selfBuilding.arena.size := by
    refine ⟨fun node => ?_, fun _ _ found => nomatch found⟩
    match node with
    | ⟨0⟩ => decide +kernel
    | ⟨1⟩ => decide +kernel
    | ⟨_ + 2⟩ => exact within_empty
  have wellFormed : World.selfBuilding.WellFormed :=
    .ofChecks (by decide +kernel) (by decide +kernel)
  have plain : ∀ stored ∈ World.selfBuilding.arena.values.toList,
      stored.isFunction = false ∧ stored.isCallable = false := by decide +kernel
  have bindsFunctions : World.selfBuilding.arena.BindsFunctions := by
    intro id callee receiver found
    have noFunction := (Arena.forall_get? plain found).1
    cases noFunction
  have noCallables : World.selfBuilding.arena.HasNoCallables :=
    fun _ _ found => (Arena.forall_get? plain found).2
  have classWithin : Within environment.declarations World.selfBuilding.arena.size
      (TypeSet.singleton ⟨19⟩) := by decide +kernel
  refine ⟨rfl, inScope, wellFormed, noCallables, ?_⟩
  exact (finishes_iff_unguarded_calls_finish rfl inScope).2 _ (.ofWorld wellFormed _)
    (Arena.le_refl _) bindsFunctions (Or.inl noCallables) _ ⟨classWithin, within_nil⟩

end TypeInference
