import TypeInference.Proofs.Transparency.Trust

/-!
# The engine that asks an oracle

An engine whose questions go to the oracle of a frame, and which interns nothing new, reads
annotations as the oracle leads to, whatever it has read before.
-/

namespace TypeInference

open Inference

variable {α β : Type} {node : NodeId} {scene : Scene}

/-! ## What the engine comes to -/

/-- At the start, an answer is found. -/
theorem Inference.Caches.conclude {env : Environment} {arena : Arena} {step : Inference β}
    {find : Inference α} (caches : step.Caches known? find answerOf noted)
    (fresh : known? (env.start arena) = none) :
    env.conclude arena step = (env.conclude arena find).map answerOf := by
  unfold Environment.conclude
  rw [caches.unknown fresh]
  cases find (env.start arena) <;> rfl

namespace Frame

/-- The engine that asks the oracle of a frame. -/
abbrev reader (frame : Frame scene) : Engine :=
  scene.environment.consulting frame.oracle

/-- What an operation comes to by the oracle of a frame. -/
abbrev settle? (frame : Frame scene) {α : Type} (operation : Operation α) : Option α :=
  scene.environment.settle scene.arena frame.oracle operation

/-- A state in which everything was found by asking the oracle of a frame. -/
structure Plain (frame : Frame scene) (state : State) : Prop where
  arena : state.arena = scene.arena
  hint : ∀ {node : NodeId} {set : TypeSet}, state.hints.get? node = some set →
    frame.settle? (.readHint node) = some set
  subscript : ∀ {node : NodeId} {arguments : TypeArguments},
    state.subscripts.get? node = some arguments →
    frame.settle? (.typeArguments (.lazy node)) = some arguments

/-- A step of the engine that asks the oracle, and what it comes to. -/
structure Computes (frame : Frame scene) {α : Type} (step : Inference α) (answer? : Option α) :
    Prop where
  found : ∀ {state : State} {answer : α}, frame.Plain state → answer? = some answer →
    ∃ after, step state = .ok (answer, after) ∧ frame.Plain after ∧ after.cells = state.cells
  only : ∀ {state after : State} {answer : α}, frame.Plain state →
    step state = .ok (answer, after) → answer? = some answer

variable {frame : Frame scene} {state after : State}

theorem Plain.of_beside (plain : frame.Plain state) (beside : state.Beside after) :
    frame.Plain after :=
  ⟨beside.arena.trans plain.arena, fun found => plain.hint (beside.hints ▸ found),
    fun found => plain.subscript (beside.subscripts ▸ found)⟩

/-- Nothing has been found at the start. -/
theorem plain_start (frame : Frame scene) :
    frame.Plain (scene.environment.start scene.arena) :=
  ⟨rfl, (by cases ·), (by cases ·)⟩

namespace Computes

theorem pure (answer : α) : frame.Computes (pure answer) (some answer) where
  found plain same := by
    cases same
    exact ⟨_, rfl, plain, rfl⟩
  only _ succeeds := by
    cases succeeds
    rfl

theorem bind (firstComputes : frame.Computes first first?)
    (nextComputes : ∀ answer, frame.Computes (next answer) (next? answer)) :
    frame.Computes (first >>= next) (first?.bind next?) where
  found plain same := by
    obtain ⟨middle, started, finished⟩ := Option.bind_eq_some_iff.mp same
    obtain ⟨between, starts, betweenPlain, kept⟩ := firstComputes.found plain started
    obtain ⟨after, finishes, afterPlain, keptAfter⟩ :=
      (nextComputes middle).found betweenPlain finished
    exact ⟨after, bind_eq_ok_iff.mpr ⟨middle, between, starts, finishes⟩, afterPlain,
      keptAfter.trans kept⟩
  only plain succeeds := by
    obtain ⟨middle, between, starts, finishes⟩ := bind_eq_ok_iff.mp succeeds
    have started := firstComputes.only plain starts
    obtain ⟨_, again, betweenPlain, _⟩ := firstComputes.found plain started
    cases starts.symm.trans again
    exact Option.bind_eq_some_iff.mpr
      ⟨middle, started, (nextComputes middle).only betweenPlain finishes⟩

theorem mapM (each : ∀ item, frame.Computes (step item) (answer? item)) (items : List α) :
    frame.Computes (items.mapM step) (items.mapM answer?) := by
  induction items with
  | nil => exact .pure []
  | cons item rest ih =>
    rw [List.mapM_cons, List.mapM_cons]
    exact .bind (each item) fun _ => .bind ih fun _ => .pure _

/-- The engine asks the oracle for all that carries no deferred values. -/
theorem ask (repeatable : operation.isRepeatable = true) :
    frame.Computes (frame.reader.ask operation) (frame.oracle.answer? operation) := by
  have asks : frame.reader.ask operation = frame.oracle.ask operation := if_pos repeatable
  rw [asks]
  exact ⟨fun plain answered => ⟨_, Oracle.ask_eq_ok_iff.mpr ⟨answered, rfl⟩, plain, rfl⟩,
    fun _ succeeds => (Oracle.ask_eq_ok_iff.mp succeeds).1⟩

theorem value (id : ValueId) : frame.Computes (value id) (scene.arena.get? id) where
  found plain looked := ⟨_, value_eq_ok_iff.mpr ⟨plain.arena ▸ looked, rfl⟩, plain, rfl⟩
  only plain succeeds := plain.arena ▸ (value_eq_ok_iff.mp succeeds).1

theorem emit (event : Event) : frame.Computes (emit event) (some ()) where
  found {state _} plain _ := ⟨_, rfl, plain.of_beside (.emit state event), rfl⟩
  only _ _ := rfl

/-- What is computed in every state is what is concluded at the start. -/
theorem conclude (computes : frame.Computes step answer?) :
    scene.environment.conclude scene.arena step = answer? := by
  unfold Environment.conclude
  cases ran : step (scene.environment.start scene.arena) with
  | ok result => exact (computes.only frame.plain_start ran).symm
  | error fault =>
    cases answer? with
    | none => rfl
    | some answer =>
      obtain ⟨_, found, _⟩ := computes.found frame.plain_start rfl
      cases ran.symm.trans found

/-- An answer that was found before is the one that would be found now. -/
theorem cached {step : Inference β} {find : Inference α}
    (caches : step.Caches known? find answerOf noted) (finds : frame.Computes find found?)
    (settled : answer? = found?.map answerOf)
    (known : ∀ {state answer}, frame.Plain state → known? state = some answer →
      answer? = some answer)
    (notes : ∀ {state reply}, frame.Plain state → answer? = some (answerOf reply) →
      frame.Plain (noted reply state) ∧ (noted reply state).cells = state.cells) :
    frame.Computes step answer? where
  found {state answer} plain answered := by
    cases recalled : known? state with
    | some present =>
      cases (known plain recalled).symm.trans answered
      exact ⟨state, caches.known recalled, plain, rfl⟩
    | none =>
      obtain ⟨reply, replied, rfl⟩ := Option.map_eq_some_iff.mp (settled.symm.trans answered)
      obtain ⟨between, found, betweenPlain, kept⟩ := finds.found plain replied
      obtain ⟨afterPlain, keptAfter⟩ := notes betweenPlain answered
      exact ⟨_, by rw [caches.unknown recalled, found]; rfl, afterPlain, keptAfter.trans kept⟩
  only {state after answer} plain succeeds := by
    cases recalled : known? state with
    | some present =>
      cases (caches.known recalled).symm.trans succeeds
      exact known plain recalled
    | none =>
      rw [caches.unknown recalled] at succeeds
      obtain ⟨result, found, ⟨⟩⟩ := Except.map_eq_ok_iff.mp succeeds
      rw [settled, finds.only plain found]
      rfl

end Computes

/-- A step that comes to the same in every state. -/
def Steady (frame : Frame scene) {α : Type} (step : Inference α) : Prop :=
  ∃ answer?, frame.Computes step answer?

theorem Steady.bind (firstSteady : frame.Steady first)
    (nextSteady : ∀ answer, frame.Steady (next answer)) : frame.Steady (first >>= next) := by
  obtain ⟨first?, computes⟩ := firstSteady
  choose next? nextComputes using nextSteady
  exact ⟨_, computes.bind nextComputes⟩

/-- Whatever was read before, an annotation is evaluated to the same. -/
theorem steady_evaluateHint (node : NodeId) : frame.Steady (frame.reader.evaluateHint node) := by
  have provider : frame.reader.provider = scene.tree.provider := scene.provider
  refine .bind ⟨_, .ask rfl⟩ fun values => .bind ?_ fun source? => ?_
  · unfold Engine.literal?
    cases values.single? with
    | none => exact ⟨_, .pure _⟩
    | some id =>
      refine .bind ⟨_, .value id⟩ fun stored => ?_
      cases stored <;> exact ⟨_, .pure _⟩
  · cases source? with
    | none => exact ⟨_, .pure _⟩
    | some source =>
      simp only [Engine.followReference, provider]
      cases scene.tree.provider.forwardReference? source with
      | some target => exact ⟨_, .ask rfl⟩
      | none =>
        refine .bind ⟨_, .pure _⟩ fun resolved => ?_
        split
        · exact .bind ⟨_, .emit _⟩ fun _ => ⟨_, .pure _⟩
        · exact ⟨_, .pure _⟩

/-- What an annotation comes to is what it is evaluated to. -/
theorem settle?_readHint (frame : Frame scene) (node : NodeId) :
    frame.settle? (.readHint node) =
      (scene.environment.conclude scene.arena (frame.reader.evaluateHint node)).map id :=
  (frame.reader.caches_readHint node).conclude rfl

/-- What a subscript comes to is what its annotations are read as. -/
theorem settle?_typeArguments (frame : Frame scene) (node : NodeId) :
    frame.settle? (.typeArguments (.lazy node)) =
      (scene.environment.conclude scene.arena
        (((frame.reader.provider.subscript? node).getD [node]).mapM frame.reader.readHint)).map
          .ofSubscript :=
  (frame.reader.caches_typeArguments node).conclude rfl

/-- The engine reads what an annotation comes to. -/
theorem computes_readHint (frame : Frame scene) (node : NodeId) :
    frame.Computes (frame.reader.readHint node) (frame.settle? (.readHint node)) := by
  obtain ⟨_, finds⟩ := steady_evaluateHint node
  refine .cached (frame.reader.caches_readHint node) finds
    (finds.conclude ▸ frame.settle?_readHint node) (fun plain known => plain.hint known)
    fun plain settled => ⟨⟨plain.arena, fun known => ?_, plain.subscript⟩, rfl⟩
  rcases Table.eq_or_get?_of_get?_insert known with ⟨rfl, rfl⟩ | known
  · exact settled
  · exact plain.hint known

theorem computes_typeArguments (frame : Frame scene) (generics : Generics) :
    frame.Computes (frame.reader.typeArguments generics)
      (frame.settle? (.typeArguments generics)) := by
  cases generics with
  | resolved arguments => exact .pure arguments
  | lazy node =>
    have finds := Computes.mapM frame.computes_readHint
      ((frame.reader.provider.subscript? node).getD [node])
    refine .cached (frame.reader.caches_typeArguments node) finds
      (finds.conclude ▸ frame.settle?_typeArguments node) (fun plain known => plain.subscript known)
      fun plain settled => ⟨⟨plain.arena, plain.hint, fun known => ?_⟩, rfl⟩
    rcases Table.eq_or_get?_of_get?_insert known with ⟨rfl, rfl⟩ | known
    · exact settled
    · exact plain.subscript known

end Frame

end TypeInference
