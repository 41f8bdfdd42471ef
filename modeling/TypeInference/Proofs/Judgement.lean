import TypeInference.Engine.Run
import TypeInference.Proofs.WellFormed

/-!
# Judgements on steps

A step is run with every amount of fuel, and a judgement says which families of
outcomes are acceptable: that no outcome is a fault but for lack of fuel, say, or
that all outcomes agree from some fuel on.  Whatever the judgement, a step keeps a
request when it leads from well-formed requests to acceptable outcomes in which the
request is well formed again, its arena continues, and the answer is as promised.
The rules of this module say this of the ways in which steps are put together.
-/

namespace TypeInference

variable {α : Type} {stored : Value} {id : ValueId} {state : State} {change : State → State}
  {class_ : ClassId}

/-- The engine of an environment with some fuel, with its environment in plain sight. -/
def Environment.stage (environment : Environment) (fuel : Nat) : Engine :=
  { environment with ask := (environment.engine fuel).ask }

theorem Environment.stage_eq_engine (env : Environment) (fuel : Nat) :
    env.stage fuel = env.engine fuel := by
  cases fuel <;> rfl

/-- What refers to nothing beyond a bound and the declarations of an environment. -/
abbrev Environment.Scopes [Scoped α] (environment : Environment) : Nat → α → Prop :=
  Within environment.declarations

/-- Callables, and the annotations that describe them. -/
def Value.isCallable : Value → Bool
  | .callable _ | .special .callable _ => true
  | _ => false

/-- Values that are neither functions nor callables. -/
def Value.isPlain (stored : Value) : Bool :=
  !stored.isFunction && !stored.isCallable

/-- What a request keeps while it is worked on, besides being well formed. -/
structure Upkeep where
  /-- What is kept of the arena and of the known returns. -/
  Invariant : Arena → Table Invocation Progress → Prop
  /-- The functions that may be met. -/
  Callee : ValueId → Prop
  /-- Whether callables may be met. -/
  Matching : Prop
  /-- Only such functions and callables are met. -/
  met : ∀ {arena : Arena} {returns : Table Invocation Progress} {id : ValueId} {stored : Value},
    Invariant arena returns →
    arena.get? id = some stored →
    (stored.isFunction = true → Callee id) ∧ (stored.isCallable = true → Matching)
  /-- The invariant is kept when anything else is interned, and callables if they may be met. -/
  interned : ∀ {arena : Arena} {returns : Table Invocation Progress} {value : Value},
    value.isFunction = false →
    (value.isCallable = true → Matching) →
    Invariant arena returns →
    Invariant (arena.intern value).2 returns

/-- Which families of outcomes are acceptable, and what requests keep besides. -/
structure Judgement (environment : Environment) extends Upkeep where
  /-- The outcomes that a step has with each amount of fuel are acceptable. -/
  Accepts : {β : Type} → (Nat → Except Fault β) → (β → Prop) → Prop
  /-- A step that succeeds with every fuel is acceptable. -/
  ok : ∀ {β : Type} {answer : β} {post : β → Prop},
    post answer → Accepts (fun _ => .ok answer) post
  /-- Acceptable steps one after the other are acceptable. -/
  andThen : ∀ {β γ : Type} {first : Nat → Except Fault β} {next : Nat → β → Except Fault γ}
    {middle : β → Prop} {post : γ → Prop},
    Accepts first middle →
    (∀ answer, middle answer → Accepts (fun fuel => next fuel answer) post) →
    Accepts (fun fuel => first fuel >>= next fuel) post

namespace Judgement

variable {env : Environment} (judgement : Judgement env)

/-- A well-formed request that satisfies the invariant. -/
structure Admits (state : State) : Prop where
  wellFormed : state.WellFormed env.declarations
  invariant : judgement.Invariant state.arena state.returns

/-- A value that may be met in its place. -/
structure Meets (id : ValueId) (stored : Value) : Prop where
  within : Within env.declarations id.index stored
  callee : stored.isFunction = true → judgement.Callee id
  matching : stored.isCallable = true → judgement.Matching

/-- A step leads from one request to one that is admitted, and to a promised answer. -/
abbrev KeepsAt {α : Type} (state : State) (step : Nat → Inference α)
    (post : Nat → α → Prop) : Prop :=
  judgement.Accepts (fun fuel => step fuel state) fun result =>
    judgement.Admits result.2 ∧
      state.arena ≤ result.2.arena ∧
      post result.2.arena.size result.1

/-- A step leads from requests that are admitted to such requests, and to a promised answer. -/
def Keeps {α : Type} (bound : Nat) (step : Nat → Inference α) (post : Nat → α → Prop) : Prop :=
  ∀ state : State,
    judgement.Admits state →
    bound ≤ state.arena.size →
    judgement.KeepsAt state step post

/-- A step that is kept and whose answer is within the scope. -/
def Yields {α : Type} [Scoped α] (bound : Nat) (step : Nat → Inference α) : Prop :=
  judgement.Keeps bound step (Within env.declarations)

/-- A step that yields an answer at every stage. -/
abbrev Stages {α : Type} [Scoped α] (bound : Nat) (step : Engine → Inference α) : Prop :=
  judgement.Yields bound fun fuel => step (env.stage fuel)

/-- A step that yields an answer whatever within the scope it is applied to. -/
def YieldsFor {α β : Type} [Scoped α] [Scoped β] (bound : Nat)
    (step : Nat → α → Inference β) : Prop :=
  ∀ later item, bound ≤ later → Within env.declarations later item →
    judgement.Yields later fun fuel => step fuel item

variable {judgement}

/-! ## Sequences -/

section Sequences

variable {α β : Type} {bound later : Nat}

theorem weaken (accepted : judgement.Accepts outcomes post)
    (implies : ∀ answer, post answer → weaker answer) :
    judgement.Accepts outcomes weaker := by
  have sequence := judgement.andThen accepted fun answer holds =>
    judgement.ok (implies answer holds)
  have same : (fun fuel => outcomes fuel >>= fun answer => Except.ok answer) = outcomes := by
    funext fuel
    cases outcomes fuel <;> rfl
  rwa [same] at sequence

variable {post : Nat → α → Prop} {step first : Nat → Inference α} {answer : α}
  {next : Nat → α → Inference β}

theorem Keeps.grow (kept : judgement.Keeps bound step post) (larger : bound ≤ later) :
    judgement.Keeps later step post :=
  fun state admitted within => kept state admitted (Nat.le_trans larger within)

theorem Keeps.imp (kept : judgement.Keeps bound step post)
    (implies : ∀ later answer, bound ≤ later → post later answer → weaker later answer) :
    judgement.Keeps bound step weaker := by
  intro state admitted within
  refine weaken (kept state admitted within) fun result holds => ?_
  obtain ⟨resultAdmitted, continues, promised⟩ := holds
  have larger := Nat.le_trans within (Arena.size_le_of_le continues)
  exact ⟨resultAdmitted, continues, implies _ _ larger promised⟩

theorem keeps_pure (holds : ∀ later, bound ≤ later → post later answer) :
    judgement.Keeps bound (fun _ => pure answer) post :=
  fun state admitted within => judgement.ok ⟨admitted, Arena.le_refl state.arena, holds _ within⟩

theorem Keeps.bind {middle : Nat → α → Prop} {post : Nat → β → Prop}
    (firstKept : judgement.Keeps bound first middle)
    (nextKept : ∀ later answer, bound ≤ later → middle later answer →
      judgement.Keeps later (fun fuel => next fuel answer) post) :
    judgement.Keeps bound (fun fuel => first fuel >>= next fuel) post := by
  intro state admitted within
  show judgement.Accepts
    (fun fuel => first fuel state >>= fun result => next fuel result.1 result.2) _
  refine judgement.andThen (firstKept state admitted within) fun result holds => ?_
  obtain ⟨resultAdmitted, continues, promised⟩ := holds
  have larger := Nat.le_trans within (Arena.size_le_of_le continues)
  refine weaken
    (nextKept _ result.1 larger promised result.2 resultAdmitted (Nat.le_refl _))
    fun final finalHolds => ?_
  exact ⟨finalHolds.1, Arena.le_trans continues finalHolds.2.1, finalHolds.2.2⟩

theorem yields_pure [Scoped α] (within : env.Scopes bound answer) :
    judgement.Yields bound fun _ => pure answer :=
  keeps_pure fun _ larger => within.grow larger

theorem yields_empty : judgement.Yields bound fun _ => pure (∅ : TypeSet) :=
  yields_pure within_empty

theorem yields_noBindings : judgement.Yields bound fun _ => pure (∅ : Substitution) :=
  yields_pure within_emptySubstitution

theorem Yields.grow [Scoped α] (yields : judgement.Yields bound step) (larger : bound ≤ later) :
    judgement.Yields later step :=
  Keeps.grow yields larger

theorem YieldsFor.grow [Scoped α] [Scoped β] {step : Nat → α → Inference β}
    (yields : judgement.YieldsFor bound step) (larger : bound ≤ later) :
    judgement.YieldsFor later step :=
  fun final item largest within => yields final item (Nat.le_trans larger largest) within

theorem Yields.bind [Scoped α] {post : Nat → β → Prop} (firstYields : judgement.Yields bound first)
    (nextKept : ∀ later answer, bound ≤ later → env.Scopes later answer →
      judgement.Keeps later (fun fuel => next fuel answer) post) :
    judgement.Keeps bound (fun fuel => first fuel >>= next fuel) post :=
  Keeps.bind firstYields nextKept

theorem Yields.map [Scoped α] [Scoped β] {wrap : α → β} (yields : judgement.Yields bound step)
    (within : ∀ {later answer}, env.Scopes later answer → env.Scopes later (wrap answer)) :
    judgement.Yields bound fun fuel => step fuel >>= fun answer => pure (wrap answer) :=
  yields.bind fun _ _ _ answerWithin => yields_pure (within answerWithin)

/-- A step may rely on the request on which it is taken. -/
theorem keeps_of_admitted
    (kept : ∀ state : State, judgement.Admits state → bound ≤ state.arena.size →
      judgement.Keeps state.arena.size step post) :
    judgement.Keeps bound step post :=
  fun state admitted within => kept state admitted within state admitted (Nat.le_refl _)

/-- A step may rely on the world in which it is taken. -/
theorem keeps_of_world (kept : ∀ arena : Arena, bound ≤ arena.size →
      World.WellFormed ⟨arena, env.declarations⟩ →
      judgement.Keeps arena.size step post) :
    judgement.Keeps bound step post :=
  keeps_of_admitted fun state admitted within => kept state.arena within admitted.wellFormed.world

theorem keeps_ite {decision : Nat → Decidable condition}
    (trueKept : condition → judgement.Keeps bound whenTrue post)
    (falseKept : ¬condition → judgement.Keeps bound whenFalse post) :
    judgement.Keeps bound
      (fun fuel => @ite _ condition (decision fuel) (whenTrue fuel) (whenFalse fuel)) post := by
  by_cases holds : condition
  · simp only [if_pos holds]
    exact trueKept holds
  · simp only [if_neg holds]
    exact falseKept holds

end Sequences

/-! ## Single steps -/

section Steps

open Inference

variable {bound : Nat}

/-- What is seen of the request at some moment is within the scope of that moment. -/
theorem keeps_get :
    judgement.Keeps bound (fun _ => (get : Inference State)) fun later state =>
      state.WellFormed env.declarations ∧ state.arena.size ≤ later :=
  fun state admitted _ =>
    judgement.ok ⟨admitted, Arena.le_refl state.arena, admitted.wellFormed, Nat.le_refl _⟩

variable {post : Nat → α → Prop}

/-- In one request it is known what is got. -/
theorem keepsAt_get {next : Nat → State → Inference α}
    (kept : judgement.KeepsAt state (fun fuel => next fuel state) post) :
    judgement.KeepsAt state (fun fuel => get >>= next fuel) post :=
  kept

theorem yields_modify (kept : ∀ state, judgement.Admits state → bound ≤ state.arena.size →
      judgement.Admits (change state) ∧ (change state).arena = state.arena) :
    judgement.Yields bound fun _ => (modify change : Inference Unit) := by
  intro state admitted within
  obtain ⟨changeAdmitted, same⟩ := kept state admitted within
  exact judgement.ok ⟨changeAdmitted, same ▸ Arena.le_refl _, trivial⟩

/-- A change of what nothing is looked up in. -/
theorem yields_modify_aside
    (aside : ∀ state, (change state).arena = state.arena ∧ (change state).hints = state.hints ∧
      (change state).subscripts = state.subscripts ∧ (change state).returns = state.returns ∧
      (change state).cells = state.cells) :
    judgement.Yields bound fun _ => (modify change : Inference Unit) := by
  refine yields_modify fun state admitted _ => ?_
  obtain ⟨arena, hints, subscripts, returns, cells⟩ := aside state
  obtain ⟨wellFormed, invariant⟩ := admitted
  refine ⟨⟨⟨?_, ?_, ?_, ?_, ?_⟩, ?_⟩, arena⟩
  · rw [arena]
    exact wellFormed.world
  · rw [arena, hints]
    exact wellFormed.hints
  · rw [arena, subscripts]
    exact wellFormed.subscripts
  · rw [arena, returns]
    exact wellFormed.returns
  · rw [arena, cells]
    exact wellFormed.cells
  · rw [arena, returns]
    exact invariant

theorem yields_emit (event : Event) : judgement.Yields bound fun _ => emit event :=
  yields_modify_aside fun _ => ⟨rfl, rfl, rfl, rfl, rfl⟩

theorem yields_emit_pure [Scoped α] {answer : α} (event : Event)
    (within : env.Scopes bound answer) :
    judgement.Yields bound fun _ => emit event >>= fun _ => pure answer :=
  Yields.bind (yields_emit event) fun _ _ larger _ => yields_pure (within.grow larger)

theorem yields_count (change : Counters → Counters) :
    judgement.Yields bound fun _ => count change :=
  yields_modify_aside fun _ => ⟨rfl, rfl, rfl, rfl, rfl⟩

/-- A step may leave a mark before it is taken. -/
theorem keeps_marked (noted : Mark) (kept : judgement.Keeps bound step post) :
    judgement.Keeps bound (fun fuel => mark noted >>= fun _ => step fuel) post :=
  Yields.bind (yields_modify_aside fun _ => ⟨rfl, rfl, rfl, rfl, rfl⟩) fun _ _ larger _ =>
    kept.grow larger

/-- A value only refers to what was interned before it. -/
theorem keeps_value (within : env.Scopes bound id) :
    judgement.Keeps bound (fun _ => value id) fun _ stored => judgement.Meets id stored := by
  intro state admitted larger
  obtain ⟨stored, found⟩ := Arena.exists_get? (Nat.lt_of_lt_of_le within larger)
  have outcome : value id state = .ok (stored, state) := by simp [value, found]
  simp only [KeepsAt, outcome]
  have met := judgement.met admitted.invariant found
  exact judgement.ok
    ⟨admitted, Arena.le_refl _, admitted.wellFormed.world.descending id stored found, met.1, met.2⟩

/-- In one request it is known what value is looked at. -/
theorem keepsAt_value (found : state.arena.get? id = some stored) {next : Nat → Value → Inference α}
    (kept : judgement.KeepsAt state (fun fuel => next fuel stored) post) :
    judgement.KeepsAt state (fun fuel => value id >>= next fuel) post := by
  have outcome : ∀ fuel, (value id >>= next fuel) state = next fuel stored state := by
    intro fuel
    show (value id state >>= fun result => next fuel result.1 result.2) = _
    simp [value, found, bind, Except.bind]
  simpa only [KeepsAt, outcome] using kept

theorem Meets.grow (meets : judgement.Meets id stored) (within : env.Scopes bound id) :
    env.Scopes bound stored :=
  meets.within.grow (Nat.le_of_lt within)

theorem yields_value (within : env.Scopes bound id) : judgement.Yields bound fun _ => value id :=
  (keeps_value within).imp fun _ _ larger meets => meets.grow (within.grow larger)

section

variable (within : env.Scopes bound stored)

include within

/-- Anything may be interned whose interning keeps the invariant. -/
theorem yields_intern_of_invariant (kept : ∀ {arena returns}, judgement.Invariant arena returns →
      judgement.Invariant (arena.intern stored).2 returns) :
    judgement.Yields bound fun _ => intern stored := by
  intro state admitted larger
  have interned := admitted.wellFormed.intern (within.grow larger)
  refine judgement.ok ⟨⟨interned, kept admitted.invariant⟩, Arena.le_intern _ _, ?_⟩
  exact Arena.lt_size_of_get? (Arena.get?_intern state.arena stored)

theorem yields_intern (plain : stored.isPlain = true) :
    judgement.Yields bound fun _ => intern stored := by
  simp only [Value.isPlain, Bool.and_eq_true, Bool.not_eq_true'] at plain
  refine yields_intern_of_invariant within (judgement.interned plain.1 fun callable => ?_)
  simp [plain.2] at callable

theorem yields_internSet (plain : stored.isPlain = true) :
    judgement.Yields bound fun _ => internSet stored :=
  (yields_intern within plain).map within_singleton

/-- The set of a callable, if callables may be met. -/
theorem yields_internSet_of_matching (noFunction : stored.isFunction = false)
    (matching : stored.isCallable = true → judgement.Matching) :
    judgement.Yields bound fun _ => internSet stored :=
  (yields_intern_of_invariant within (judgement.interned noFunction matching)).map within_singleton

end

theorem yields_freshCell : judgement.Yields bound fun _ => freshCell :=
  fun state admitted _ =>
    judgement.ok
      ⟨⟨admitted.wellFormed.pushCell, admitted.invariant⟩, Arena.le_refl state.arena, trivial⟩

theorem yields_cellAnswer? (cell : CellId) : judgement.Yields bound fun _ => cellAnswer? cell := by
  intro state admitted _
  refine judgement.ok ⟨admitted, Arena.le_refl state.arena, ?_⟩
  intro answer found
  refine admitted.wellFormed.cells cell.index answer ?_
  exact Option.join_eq_some_iff.mp found

theorem yields_fillCell (within : env.Scopes bound answer) (cell : CellId) :
    judgement.Yields bound fun _ => fillCell cell answer :=
  yields_modify fun _ admitted larger =>
    ⟨⟨admitted.wellFormed.fillCell (within.grow larger) cell, admitted.invariant⟩, rfl⟩

theorem classDeclaration_stage (declared : env.declarations.class? class_ = some declaration)
    (fuel : Nat) : (env.stage fuel).classDeclaration class_ = pure declaration := by
  simp [Engine.classDeclaration, Environment.stage, declared]

theorem keeps_classDeclaration (declared : class_.Declared env.declarations) :
    judgement.Keeps bound (fun fuel => (env.stage fuel).classDeclaration class_)
      fun later declaration => env.declarations.class? class_ = some declaration ∧
        env.Scopes later declaration := by
  intro state admitted _
  have found : env.declarations.class? class_ = some (env.declarations.classes[class_.index]) :=
    Array.getElem?_eq_getElem declared
  simp only [KeepsAt, classDeclaration_stage found]
  exact judgement.ok
    ⟨admitted, Arena.le_refl state.arena, found,
      admitted.wellFormed.world.declared.classes class_ _ found⟩

theorem yields_classDeclaration (declared : class_.Declared env.declarations) :
    judgement.Stages bound (·.classDeclaration class_) :=
  (keeps_classDeclaration declared).imp fun _ _ _ found => found.2

theorem yields_functionDeclaration (declared : function.Declared env.declarations) :
    judgement.Stages bound (·.functionDeclaration function) := by
  intro state admitted _
  have found : env.declarations.function? function =
      some (env.declarations.functions[function.index]) :=
    Array.getElem?_eq_getElem declared
  have outcome : ∀ fuel, (env.stage fuel).functionDeclaration function state =
      .ok (env.declarations.functions[function.index], state) := by
    intro fuel
    simp [Engine.functionDeclaration, Environment.stage, found]
    rfl
  simp only [KeepsAt, outcome]
  exact judgement.ok ⟨admitted, Arena.le_refl state.arena, trivial⟩

end Steps

/-! ## Loops -/

section Loops

open Inference

variable {α β : Type} {bound : Nat}

variable {items : List α} {test : Nat → α → Inference Bool}

theorem yields_unionOver {setOf : Nat → α → Inference TypeSet}
    (each : ∀ item ∈ items, judgement.Yields bound fun fuel => setOf fuel item) :
    judgement.Yields bound fun fuel => unionOver (setOf fuel) items := by
  induction items with
  | nil => exact yields_empty
  | cons item rest ih =>
    have restYields := ih fun other member => each other (by simp [member])
    refine Yields.bind (each item (by simp)) fun _ first larger firstWithin => ?_
    refine Yields.bind (restYields.grow larger) fun _ others largest othersWithin => ?_
    exact yields_pure (within_union (firstWithin.grow largest) othersWithin)

theorem yields_mergeOver {bindingsOf : Nat → α → Inference Substitution}
    (each : ∀ item ∈ items, judgement.Yields bound fun fuel => bindingsOf fuel item) :
    judgement.Yields bound fun fuel => mergeOver (bindingsOf fuel) items := by
  induction items with
  | nil => exact yields_noBindings
  | cons item rest ih =>
    have restYields := ih fun other member => each other (by simp [member])
    refine Yields.bind (each item (by simp)) fun _ first larger firstWithin => ?_
    refine Yields.bind (restYields.grow larger) fun _ others largest othersWithin => ?_
    exact yields_pure (within_merge (firstWithin.grow largest) othersWithin)

theorem yields_anyOf (each : ∀ item ∈ items, judgement.Yields bound fun fuel => test fuel item) :
    judgement.Yields bound fun fuel => anyOf (test fuel) items := by
  induction items with
  | nil => exact yields_pure trivial
  | cons item rest ih =>
    have restYields := ih fun other member => each other (by simp [member])
    refine Yields.bind (each item (by simp)) fun _ passed larger _ => ?_
    exact keeps_ite (fun _ => yields_pure trivial) fun _ => restYields.grow larger

theorem yields_allOf (each : ∀ item ∈ items, judgement.Yields bound fun fuel => test fuel item) :
    judgement.Yields bound fun fuel => allOf (test fuel) items := by
  induction items with
  | nil => exact yields_pure trivial
  | cons item rest ih =>
    have restYields := ih fun other member => each other (by simp [member])
    refine Yields.bind (each item (by simp)) fun _ passed larger _ => ?_
    exact keeps_ite (fun _ => restYields.grow larger) fun _ => yields_pure trivial

theorem yields_filterMapOver [Scoped β] {answer? : Nat → α → Inference (Option β)}
    (each : ∀ item ∈ items, judgement.Yields bound fun fuel => answer? fuel item) :
    judgement.Yields bound fun fuel => filterMapOver (answer? fuel) items := by
  induction items with
  | nil => exact yields_pure within_nil
  | cons item rest ih =>
    have restYields := ih fun other member => each other (by simp [member])
    refine Yields.bind (each item (by simp)) fun _ first larger firstWithin => ?_
    refine Yields.bind (restYields.grow larger) fun _ others largest othersWithin => ?_
    refine yields_pure (within_append.mpr ⟨?_, othersWithin⟩)
    intro answer member
    exact (firstWithin answer (Option.mem_toList.mp member)).grow largest

theorem yields_throughSink [Scoped β] {visit : Nat → α → Diagnostics → Inference (β × Diagnostics)}
    (each : ∀ item ∈ items, ∀ sink, judgement.Yields bound fun fuel => visit fuel item sink)
    (sink : Diagnostics) :
    judgement.Yields bound fun fuel => throughSink (visit fuel) items sink := by
  induction items generalizing bound sink with
  | nil => exact yields_pure ⟨within_nil, trivial⟩
  | cons item rest ih =>
    refine Yields.bind (each item (by simp) sink) fun _ first larger firstWithin => ?_
    have restYields := ih
      (fun other member sink => (each other (by simp [member]) sink).grow larger) first.2
    refine Yields.bind restYields fun _ others largest othersWithin => ?_
    exact yields_pure ⟨within_cons.mpr ⟨firstWithin.1.grow largest, othersWithin.1⟩, trivial⟩

theorem yields_mapM [Scoped β] {visit : Nat → α → Inference β}
    (each : ∀ item ∈ items, judgement.Yields bound fun fuel => visit fuel item) :
    judgement.Yields bound fun fuel => items.mapM (visit fuel) := by
  induction items with
  | nil =>
    simp only [List.mapM_nil]
    exact yields_pure within_nil
  | cons item rest ih =>
    have restYields := ih fun other member => each other (by simp [member])
    simp only [List.mapM_cons]
    refine Yields.bind (each item (by simp)) fun _ first larger firstWithin => ?_
    refine Yields.bind (restYields.grow larger) fun _ others largest othersWithin => ?_
    exact yields_pure (within_cons.mpr ⟨firstWithin.grow largest, othersWithin⟩)

/-- A fold whose accumulator satisfies an invariant that survives the growth of the scope. -/
theorem keeps_foldlM {visit : Nat → β → α → Inference β}
    (survives : ∀ {bound later accumulated}, bound ≤ later → holds bound accumulated →
      holds later accumulated)
    (start : holds bound initial)
    (each : ∀ item ∈ items, ∀ later accumulated, bound ≤ later → holds later accumulated →
      judgement.Keeps later (fun fuel => visit fuel accumulated item) holds) :
    judgement.Keeps bound (fun fuel => items.foldlM (visit fuel) initial) holds := by
  induction items generalizing bound initial with
  | nil =>
    simp only [List.foldlM_nil]
    exact keeps_pure fun _ larger => survives larger start
  | cons item rest ih =>
    simp only [List.foldlM_cons]
    refine Keeps.bind (each item (by simp) bound initial (Nat.le_refl _) start)
      fun later accumulated larger accumulatedHolds => ?_
    refine ih accumulatedHolds ?_
    intro other member final next largest nextHolds
    exact each other (by simp [member]) final next (Nat.le_trans larger largest) nextHolds

end Loops

end Judgement

end TypeInference
