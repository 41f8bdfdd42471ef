import TypeInference.Proofs.Pairing.Fuel
import TypeInference.Proofs.Replay.Lockstep
import TypeInference.Proofs.Watch.Returns

/-!
# Operations that are performed twice

A step leads from what is known to more of it.  It can be done again if, from any state that
knows all that it left behind, it answers the same and adds nothing.  What a call returns is
computed once, by steps that need not be done again themselves: from then on the call is
known.  Hence every operation over a tree of fixed nodes can be done again, and an operation
that a request performs a second time answers the same and adds nothing to what is known.
-/

namespace TypeInference

open Inference

variable {α : Type} {state after : State} {content : Inference TypeSet} {invocation : Invocation}
  {result : TypeSet} {fuel more : Nat} {known? : Option State} {world : Partners}
  {step other : Inference α}

/-! ## Steps that are done again -/

/-- Where no node is being inferred, more is known, and cells below a bound are as they were. -/
structure State.Learns (bound : Nat) (state after : State) : Prop
    extends state.Proceeds after where
  extends_ : state.nodeGuard.active = [] → state.Extends after
  kept : state.nodeGuard.active = [] →
    ∀ position < bound, after.cells[position]? = state.cells[position]?

namespace State.Learns

variable {bound : Nat} {state between after : State}

theorem trans (first : state.Learns bound between) (second : between.Learns bound after) :
    state.Learns bound after where
  toProceeds := first.toProceeds.trans second.toProceeds
  extends_ idle := (first.extends_ idle).trans (second.extends_ (first.nodeGuard ▸ idle))
  kept idle position below :=
    (second.kept (first.nodeGuard ▸ idle) position below).trans (first.kept idle position below)

theorem of_beside (beside : state.Beside after)
    (kept : ∀ position < bound, after.cells[position]? = state.cells[position]?) :
    state.Learns bound after :=
  ⟨.of_beside beside,
    fun _ => .of_same beside.arena beside.hints beside.subscripts beside.returns, fun _ => kept⟩

theorem of_le (learns : state.Learns larger after) (below : bound ≤ larger) :
    state.Learns bound after :=
  { learns with kept := fun idle position inside => learns.kept idle position (by omega) }

theorem keepsCells (learns : state.Learns state.cells.size after)
    (idle : state.nodeGuard.active = []) : state.KeepsCells after :=
  fun _ _ held => (learns.kept idle _ (Array.getElem?_eq_some_iff.mp held).1).trans held

end State.Learns

/-- Where no node is being inferred, a step adds to what is known and leaves cells as they are. -/
def Inference.Learns (step : Inference α) : Prop :=
  ∀ {state after : State} {answer : α}, step state = .ok (answer, after) →
    state.Learns state.cells.size after

/-- Another step repeats what a step did, wherever all that it left behind is known. -/
structure Repeats (step other : Inference α) : Prop where
  learns : step.Learns
  again : ∀ {state after known : State} {answer : α}, state.nodeGuard.active = [] →
    step state = .ok (answer, after) → after.Extends known → known.nodeGuard.active = [] →
    ∃ knownAfter, other known = .ok (answer, knownAfter) ∧ known.Quiet knownAfter ∧
      known.KeepsCells knownAfter

/-- The bond of a run and another one that starts from what is known after the first. -/
def rerun (known? : Option State) : Bond where
  Holds state other := state.nodeGuard.active = [] ∧ other.nodeGuard.active = [] ∧
    ∀ known ∈ known?, known.Quiet other
  Goes := State.Learns
  Admits after := after.nodeGuard.active = [] ∧ ∃ known ∈ known?, after.Extends known
  Allows _ := True
  limited := False
  aside := by
    rintro state other after otherAfter ⟨idle, otherIdle, quiets⟩ beside otherBeside undisturbed
    exact ⟨beside.nodeGuard ▸ idle, otherBeside.nodeGuard ▸ otherIdle, fun known isKnown =>
      (quiets known isKnown).trans ⟨undisturbed, otherBeside.arena, otherBeside.hints,
        otherBeside.subscripts⟩⟩
  goes_trans := .trans
  goes_aside := .of_beside
  proceeds learns := learns.toProceeds
  admits := by
    rintro _ state after learns ⟨idle, known, isKnown, extends_⟩
    rw [learns.nodeGuard] at idle
    exact ⟨idle, known, isKnown, (learns.extends_ idle).trans extends_⟩
  allows _ _ := trivial
  allows_of_none _ := trivial
  allows_of_unlimited _ _ := trivial

/-- A step that is repeated is tracked in any rerun. -/
theorem tracks_of_repeats (repeats : Repeats step other) :
    (rerun known?).Tracks world Same step other := by
  refine .of_goes (fun inside succeeds => (repeats.learns succeeds).of_le inside) False.elim ?_
  intro state otherState after answer joins succeeds ⟨afterIdle, known, isKnown, extends_⟩ _
  obtain ⟨idle, otherIdle, quiets⟩ := joins.holds
  obtain ⟨otherAfter, again, quiet, otherKept⟩ := repeats.again idle succeeds
    (extends_.trans (quiets known isKnown).extends) otherIdle
  have holds : (rerun known?).Holds after otherAfter := ⟨afterIdle, quiet.nodeGuard ▸ otherIdle,
    fun known isKnown => (quiets known isKnown).trans quiet⟩
  obtain ⟨later, larger, afterJoins⟩ :=
    joins.later holds ((repeats.learns succeeds).keepsCells idle) otherKept
  exact ⟨later, answer, otherAfter, larger, again, afterJoins, rfl⟩

/-- That a step learns takes a rerun from which nothing is known. -/
theorem learns_of_tracks (tracks : ∀ world, (rerun none).Tracks world Same step other) :
    step.Learns :=
  fun {state _ _} succeeds => ((tracks (.none state.cells #[])).leads _ _ _ rfl succeeds).1

/-- A step that is tracked in every rerun is repeated. -/
theorem repeats_of_tracks (tracks : ∀ known? world, (rerun known?).Tracks world Same step other) :
    Repeats step other where
  learns := learns_of_tracks (tracks none)
  again {state after known answer} idle succeeds remembers knownIdle := by
    have joins : (rerun (some known)).Joins (.none state.cells known.cells) state known :=
      ⟨⟨idle, knownIdle, fun _ same => Option.some.inj same ▸ .refl known⟩, rfl, rfl, False.elim,
        id, id⟩
    have afterIdle : after.nodeGuard.active = [] :=
      (learns_of_tracks (tracks none) succeeds).nodeGuard ▸ idle
    obtain ⟨later, _, knownAfter, larger, again, afterJoins, rfl⟩ :=
      (tracks (some known) _).follows joins succeeds ⟨afterIdle, known, rfl, remembers⟩ trivial
    exact ⟨knownAfter, again, afterJoins.holds.2.2 known rfl,
      fun _ _ held => afterJoins.otherKept (larger.otherCells ▸ held)⟩

namespace Repeats

theorem value (id : ValueId) : Repeats (value id) (value id) where
  learns succeeds := by
    obtain ⟨_, rfl⟩ := value_eq_ok_iff.mp succeeds
    exact .of_beside (.refl _) fun _ _ => rfl
  again _ succeeds remembers _ := by
    obtain ⟨found, rfl⟩ := value_eq_ok_iff.mp succeeds
    exact ⟨_, value_eq_ok_iff.mpr ⟨remembers.value found, rfl⟩, .refl _, .of_eq rfl⟩

theorem intern (stored : Value) : Repeats (intern stored) (intern stored) where
  learns {state _ _} succeeds := by
    cases succeeds
    exact ⟨.intern state stored, fun _ => .intern state stored, fun _ _ _ => rfl⟩
  again {state after known id} _ succeeds remembers _ := by
    cases succeeds
    refine ⟨known, ?_, .refl known, .of_eq rfl⟩
    unfold Inference.intern
    rw [Arena.intern_of_find? (remembers.interned (Arena.find?_intern state.arena stored))]
    rfl

/-- An answer that was looked up or noted is looked up again. -/
theorem cached {stored? : State → Option α} {find : Inference β} {answerOf : β → α}
    {noted : β → State → State}
    (caches : step.Caches stored? find answerOf noted)
    (otherCaches : other.Caches stored? otherFind answerOf noted) (finds : find.Learns)
    (remembers : ∀ {state known answer}, state.Extends known → stored? state = some answer →
      stored? known = some answer)
    (noted_known : ∀ reply state, stored? (noted reply state) = some (answerOf reply))
    (notes : ∀ {bound reply state between}, stored? state = none → state.Learns bound between →
      state.Learns bound (noted reply between)) :
    Repeats step other := by
  have knows {state after : State} {answer : α} (succeeds : step state = .ok (answer, after)) :
      state.Learns state.cells.size after ∧ stored? after = some answer := by
    cases recalled : stored? state with
    | some present =>
      cases (caches.known recalled).symm.trans succeeds
      exact ⟨.of_beside (.refl state) fun _ _ => rfl, recalled⟩
    | none =>
      rw [caches.unknown recalled] at succeeds
      obtain ⟨⟨reply, between⟩, found, ⟨⟩⟩ := Except.map_eq_ok_iff.mp succeeds
      exact ⟨notes recalled (finds found), noted_known reply between⟩
  refine ⟨fun succeeds => (knows succeeds).1, fun {_ _ known _} _ succeeds extends_ _ => ?_⟩
  exact ⟨known, otherCaches.known (remembers extends_ (knows succeeds).2), .refl known, .of_eq rfl⟩

end Repeats

/-! ## Calls -/

/-- A call that was unknown is known after it was computed, and all else as before. -/
theorem State.Learns.finishCall (unknown : state.returns.get? invocation = none)
    (learns : (state.startCall invocation).Learns bound before) :
    state.Learns bound (before.finishCall invocation result) := by
  have proceeds : state.Proceeds (before.finishCall invocation result) :=
    learns.toProceeds.finishCall unknown
  refine ⟨proceeds, fun idle => ?_, learns.kept⟩
  have extends_ := learns.extends_ idle
  refine ⟨extends_.value, extends_.interned, extends_.hint, extends_.subscript,
    fun {other known} found => ?_, proceeds.running⟩
  refine (Table.get?_insert_of_absent unknown found _ _).trans (extends_.finished ?_)
  exact (Table.get?_insert_of_absent unknown found _ _).trans found

/-- What a call returned is known, unless it is being computed further up. -/
theorem finished_of_remembered (idle : state.returns.get? invocation ≠ some .running)
    (succeeds : remembered invocation again content state = .ok (result, after)) :
    after.returns.get? invocation = some (.finished result) := by
  rcases remembered_cases succeeds with ⟨_, _, _, rfl⟩ | ⟨running, _⟩ | ⟨known, rfl⟩
  · exact Table.get?_insert_self _ _ _
  · exact absurd running idle
  · exact known

/-- A call is done again from what is known of it. -/
theorem Repeats.remembered (agains : Repeats told otherTold) (learns : content.Learns) :
    Repeats (remembered invocation told content)
      (remembered invocation otherTold otherContent) where
  learns {state after result} succeeds := by
    rcases remembered_cases succeeds with
      ⟨unknown, before, contained, rfl⟩ | ⟨_, succeeds⟩ | ⟨_, rfl⟩
    · exact (learns contained).finishCall unknown
    · exact agains.learns succeeds
    · exact .of_beside (.count state (Nat.le_refl _)) fun _ _ => rfl
  again {state after known result} idle succeeds extends_ knownIdle := by
    rw [remembered_eq _ _ _ known]
    by_cases running : state.returns.get? invocation = some .running
    · rw [remembered_eq, running] at succeeds
      have stillRunning : known.returns.get? invocation = some .running := by
        rw [extends_.running, (agains.learns succeeds).running, running]
      rw [stillRunning]
      exact agains.again idle succeeds extends_ knownIdle
    · rw [extends_.finished (finished_of_remembered running succeeds)]
      exact ⟨_, rfl, ⟨⟨rfl, rfl, rfl, rfl, rfl, rfl⟩, rfl, rfl, rfl⟩, .of_eq rfl⟩

/-! ## Engines -/

/-- An engine over a tree, and another one that repeats the answers that it is given. -/
structure Engine.Rehearsed (engine : Engine) (tree : Tree)
    (otherAsk : {α : Type} → Operation α → Inference α) : Prop where
  provider : { engine.provider with inferNode := tree.nodeProgram } = tree.provider
  answers : ∀ {α : Type} {operation : Operation α}, operation.isRepeatable = true →
    Repeats (engine.ask operation) (otherAsk operation)
  resolves : ∀ {known? : Option State} {world : Partners} {deferred partner : Deferred},
    world.Alike deferred partner → (rerun known?).Tracks world Same
      (engine.ask (.resolve deferred)) (otherAsk (.resolve partner))

namespace Engine.Rehearsed

variable {tree : Tree} {engine : Engine} {otherAsk : {α : Type} → Operation α → Inference α}
  (rehearsed : engine.Rehearsed tree otherAsk)

include rehearsed

theorem asks (known? : Option State) : (rerun known?).Asks tree engine otherAsk :=
  ⟨rehearsed.provider, fun _ id => tracks_of_repeats (.value id),
    fun _ stored => tracks_of_repeats (.intern stored),
    fun _ repeatable => tracks_of_repeats (rehearsed.answers repeatable), rehearsed.resolves⟩

/-- An annotation is looked up once it was read. -/
theorem repeats_readHint (node : NodeId) :
    Repeats (engine.readHint node) ((engine.asking otherAsk).readHint node) := by
  refine .cached (engine.caches_readHint node) (caches_readHint _ node)
    (learns_of_tracks fun world => (rehearsed.asks none).evaluateHint world node) (·.hint)
    (fun _ _ => Table.get?_insert_self _ _ _) fun {_ _ state between} unknown learns => ?_
  refine ⟨learns.toProceeds.trans (.note between _ _), fun idle => ?_, learns.kept⟩
  have extends_ := learns.extends_ idle
  exact { extends_ with hint := fun found =>
    (Table.get?_insert_of_absent unknown found _ _).trans (extends_.hint found) }

/-- Type arguments are looked up once they were read. -/
theorem repeats_typeArguments (generics : Generics) :
    Repeats (engine.typeArguments generics) ((engine.asking otherAsk).typeArguments generics) := by
  cases generics with
  | resolved arguments => exact repeats_of_tracks fun _ _ => .pure rfl
  | lazy node =>
    refine .cached (engine.caches_typeArguments node) (caches_typeArguments _ node)
      (learns_of_tracks fun world => .mapM_same (fun _ node => tracks_of_repeats
        (rehearsed.repeats_readHint node)) _) (·.subscript)
      (fun _ _ => Table.get?_insert_self _ _ _) fun {_ slots state between} unknown learns => ?_
    refine ⟨learns.toProceeds.trans (.trans (.of_beside (.emit between _)) (.note _ _ _)),
      fun idle => ?_, learns.kept⟩
    have extends_ := learns.extends_ idle
    exact { extends_ with subscript := fun found =>
      (Table.get?_insert_of_absent unknown found _ _).trans (extends_.subscript found) }

theorem suits (known? : Option State) : (rerun known?).Suits tree engine otherAsk :=
  { rehearsed.asks known? with
    hints := fun _ node => tracks_of_repeats (rehearsed.repeats_readHint node)
    subscripts := fun _ generics => tracks_of_repeats (rehearsed.repeats_typeArguments generics) }

theorem repeats_of_fits (fits : ∀ known?, (rehearsed.suits known?).pairing.Fits step other) :
    Repeats step other :=
  repeats_of_tracks fits

/-- What a call returns is found again. -/
theorem repeats_returnType (function : FunctionId) (arguments : Arguments) :
    Repeats (engine.returnType function arguments)
      ((engine.asking otherAsk).returnType function arguments) := by
  -- how a body is executed is not done again, so that it may be refused in one run only
  have budgets {world : Partners} {content other : Inference TypeSet} (settings : Settings)
      (function : FunctionId) (builtin : Bool)
      (tracks : (rerun none).Tracks world Same content other) :
      (rerun none).Tracks world Same (budgeted settings function builtin content)
        (budgeted settings function builtin other) :=
    ⟨tracks.leads.budgeted ⟨∅, rfl⟩ _ _ _, False.elim, fun _ _ admits => nomatch admits.2⟩
  rw [Engine.returnType_eq_remembered, Engine.returnType_eq_remembered]
  exact .remembered
    (rehearsed.repeats_of_fits fun _ => Pairing.fits_recursiveReturn function)
    (learns_of_tracks ((rehearsed.suits none).fits_declaredReturn budgets function arguments))

/-- Operations that neither take nor give deferred values can be performed again. -/
theorem repeats_perform (nodes : ∀ node, Repeats (engine.inferNodeOnce node)
      ((engine.asking otherAsk).inferNodeOnce node))
    (operation : Operation α) (repeatable : operation.isRepeatable = true) :
    Repeats (engine.perform operation) ((engine.asking otherAsk).perform operation) :=
  rehearsed.repeats_of_fits fun known? => Pairing.fits_perform (rehearsed.suits known?).discarding
    (fun function arguments _ =>
      tracks_of_repeats (rehearsed.repeats_returnType function arguments))
    (fun node _ => tracks_of_repeats (nodes node)) operation repeatable

end Engine.Rehearsed

/-! ## Every fuel -/

namespace Environment

variable {env : Environment} {tree : Tree} (provider : env.provider = tree.fixedProvider)

include provider

/-- Where no node is being inferred, a fixed node answers what the tree fixes for it. -/
theorem inferNodeOnce_eq (fuel : Nat) (node : NodeId) (idle : state.nodeGuard.active = []) :
    (env.stage fuel).inferNodeOnce node state = .ok (tree.fixedSet node, state.askNode) := by
  have inactive : node ∉ state.nodeGuard.active := by simp [idle]
  have fixed : (env.stage fuel).provider.inferNode node = .done (tree.fixedSet node) := by
    rw [env.stage_toEnvironment, provider]
    rfl
  rw [Engine.inferNodeOnce_eq_guarded, guarded_of_not_active inactive, fixed]
  rfl

/-- A fixed node does nothing but to be counted. -/
theorem repeats_inferNodeOnce (fuel more : Nat) (node : NodeId) :
    Repeats ((env.stage fuel).inferNodeOnce node) ((env.stage more).inferNodeOnce node) where
  learns {state after set} succeeds := by
    have asks (idle : state.nodeGuard.active = []) : after = state.askNode := by
      cases (inferNodeOnce_eq provider fuel node idle).symm.trans succeeds
      rfl
    exact ⟨(env.abides_proceeds fuel).nodes node _ _ _ succeeds,
      fun idle => asks idle ▸ .of_same rfl rfl rfl rfl, fun idle _ _ => asks idle ▸ rfl⟩
  again {state _ known _} idle succeeds _ knownIdle := by
    cases (inferNodeOnce_eq provider fuel node idle).symm.trans succeeds
    exact ⟨_, inferNodeOnce_eq provider more node knownIdle,
      ⟨⟨rfl, rfl, rfl, rfl, rfl, rfl⟩, rfl, rfl, rfl⟩, .of_eq rfl⟩

/-- What an engine answers is repeated by one of more fuel. -/
theorem rehearsed_of_le (larger : fuel ≤ more) :
    (env.stage fuel).Rehearsed tree (env.stage more).ask := by
  have names : { env.provider with inferNode := tree.nodeProgram } = tree.provider := by
    rw [provider]
    rfl
  induction fuel generalizing more with
  | zero =>
    exact ⟨names, fun _ => ⟨nofun, nofun⟩, fun _ => .of_goes nofun False.elim nofun⟩
  | succ fuel ih =>
    obtain ⟨less, rfl⟩ : ∃ less, more = less + 1 := ⟨more - 1, by omega⟩
    have rehearsed := ih (Nat.le_of_succ_le_succ larger)
    refine ⟨names, fun repeatable => ?_, fun {known? _ _ _} alike => ?_⟩
    · rw [env.ask_stage_succ, env.ask_stage_succ]
      exact rehearsed.repeats_perform (repeats_inferNodeOnce provider fuel less) _ repeatable
    · rw [env.ask_stage_succ, env.ask_stage_succ]
      have asks := rehearsed.asks known?
      exact .resolve asks.interns (fun world _ => asks.asks world rfl) alike

/-- With more fuel, whatever an engine performs can be performed again. -/
theorem repeats_perform (larger : fuel ≤ more) (operation : Operation α)
    (repeatable : operation.isRepeatable = true) :
    Repeats ((env.stage fuel).perform operation) ((env.stage more).perform operation) :=
  (rehearsed_of_le provider larger).repeats_perform (repeats_inferNodeOnce provider fuel more)
    operation repeatable

end Environment

/--
Over a tree of fixed nodes, whatever a request was asked for before, an operation that
completes answers the same when it is performed again, and adds nothing to what is known.
What a call returned is looked up, and nothing else happens.
-/
theorem answers_again_from_what_is_known
    {environment : Environment}
    {tree : Tree}
    (provider : environment.provider = tree.fixedProvider)
    {arena : Arena}
    {spent : Nat}
    {β : Type}
    {history : Program β}
    {reply : β}
    {state : State}
    (reached : environment.run spent history (environment.start arena) = .ok (reply, state)) :
    (∀ {α : Type} (operation : Operation α) (fuel more : Nat) (answer : α) (after : State),
      operation.isRepeatable = true → fuel < more →
      environment.answer fuel operation state = .ok (answer, after) →
      environment.answer more operation state = .ok (answer, after) ∧
        ∃ again, environment.answer more operation after = .ok (answer, again) ∧
          after.Quiet again) ∧
    ∀ (function : FunctionId) (arguments : Arguments) (fuel more : Nat) (result : TypeSet)
      (after : State),
      environment.answer fuel (.returnType function arguments) state = .ok (result, after) →
      environment.answer more (.returnType function arguments) after =
        .ok (result, { after with
          counters := { after.counters with memoHits := after.counters.memoHits + 1 } }) := by
  have restored := environment.restores_run reached
  constructor
  · intro α operation fuel more answer after repeatable larger completed
    have idle : state.nodeGuard.active = [] := by rw [restored.nodeGuard]; rfl
    refine ⟨environment.answer_refines (Nat.le_of_lt larger) operation _ _ completed, ?_⟩
    simp only [Environment.answer, ← environment.stage_eq_engine] at completed ⊢
    have repeats := Environment.repeats_perform provider (Nat.le_of_lt larger) operation repeatable
    obtain ⟨again, repeated, quiet, _⟩ := repeats.again idle completed (.refl after)
      ((repeats.learns completed).nodeGuard ▸ idle)
    exact ⟨again, repeated, quiet⟩
  · intro function arguments fuel more result after completed
    have settled : state.returns.get? ⟨function, arguments⟩ ≠ some .running := fun running => by
      cases (restored.running _).mp running
    change (environment.engine fuel).returnType function arguments state = _ at completed
    rw [Engine.returnType_eq_remembered] at completed
    exact (environment.remembers more).recalls after function arguments result
      (finished_of_remembered settled completed)

/-- The body of a function that packs what it is given with what it returns itself. -/
def Tree.selfPacking : Tree :=
  { bodies := ⟨[(⟨0⟩,
      .packedTuple [.parameter "items", .call (.set (.listed [.function ⟨0⟩])) .same])]⟩ }

def Environment.selfPacking : Environment where
  declarations :=
    { functions := #[{ name := "pack", parameters := [{ name := "items", kind := .starred }] }] }
  provider := Tree.selfPacking.fixedProvider

/-- The call packs two values, and returns the same when it is performed again. -/
theorem answers_again_from_what_is_known_of_selfPacking :
    ∃ after again,
      Environment.selfPacking.answer 3 (.returnType ⟨0⟩ (.values [.singleton ⟨0⟩]))
        (Environment.selfPacking.start .initial) = .ok (.singleton ⟨5⟩, after) ∧
      after.arena.size = 6 ∧
      Environment.selfPacking.answer 4 (.returnType ⟨0⟩ (.values [.singleton ⟨0⟩])) after =
        .ok (.singleton ⟨5⟩, again) ∧
      after.Quiet again ∧
      again.counters.memoHits = after.counters.memoHits + 1 := by
  have outcome : ((Environment.selfPacking.answer 3
      (.returnType ⟨0⟩ (.values [.singleton ⟨0⟩]))
      (Environment.selfPacking.start .initial)).toOption.map
        fun result => (result.1, result.2.arena.size)) = some (.singleton ⟨5⟩, 6) := by
    decide +kernel
  obtain ⟨⟨result, after⟩, completed, same⟩ := Option.map_eq_some_iff.mp outcome
  obtain ⟨rfl, size⟩ := Prod.mk.injEq .. ▸ same
  have completed := Except.eq_ok_of_toOption completed
  have provider : Environment.selfPacking.provider = Tree.selfPacking.fixedProvider := rfl
  have reached : Environment.selfPacking.run 0 (.done ())
      (Environment.selfPacking.start .initial) =
        .ok ((), Environment.selfPacking.start .initial) := rfl
  obtain ⟨replayed, recalled⟩ := answers_again_from_what_is_known provider reached
  obtain ⟨_, again, repeated, quiet⟩ := replayed _ 3 4 _ after rfl (by decide) completed
  cases (recalled _ _ 3 4 _ after completed).symm.trans repeated
  exact ⟨after, _, completed, size, repeated, quiet, rfl⟩

end TypeInference
