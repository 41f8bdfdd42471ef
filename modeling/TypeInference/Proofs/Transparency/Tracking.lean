import TypeInference.Proofs.Transparency.Plain

/-!
# Following an oracle

The engine of a request and the engine that asks an oracle go through the same steps.
As long as the second one can go on, or as long as nothing is cut short, they give the same
answers, and the caches of the request can be trusted.
-/

namespace TypeInference

open Inference

/-- Requests proceed, and refuse nothing. -/
def Scene.course (scene : Scene) : Course where
  Goes _ := State.Proceeds
  Admits := scene.Admits
  goes_trans := .trans
  goes_aside beside _ := .of_beside beside
  proceeds := id
  admits proceeds admits := admits.of_proceeds proceeds

namespace Frame

variable {scene : Scene} {α : Type}

/-- What the engine of a request and the engine that asks an oracle have in common. -/
def bond (frame : Frame scene) (past : State) : Bond where
  toCourse := scene.course
  Holds state plain := scene.Trusts state ∧ scene.Spares past state ∧
    state.pending = frame.blocked ∧ frame.Plain plain
  Allows after? := scene.strict ∨ after?.isSome = true
  limited := False
  aside := by
    rintro state plain after plainAfter ⟨trusts, spares, pending, isPlain⟩ beside plainBeside _
    exact ⟨trusts.of_same beside.hints beside.subscripts beside.returns,
      spares.trans (.of_same beside.hints beside.subscripts beside.returns),
      (State.Proceeds.of_beside beside).pending.trans pending, isPlain.of_beside plainBeside⟩
  allows _ _ := .inr rfl
  allows_of_none _ := .inr rfl
  allows_of_unlimited _ _ := .inr rfl

variable {frame : Frame scene} {past : State} {world : Partners} {step other : Inference α}

/-! ## Steps with answers that the oracle leads to -/

/-- Steps that come to the same. -/
theorem tracks_of_gives (gives : frame.Gives step answer?)
    (computes : frame.Computes other answer?) :
    (frame.bond past).Tracks world Same step other := by
  refine .of_goes (fun _ => gives.proceeds _ _ _) False.elim ?_
  intro state plain after answer joins succeeds admits allows
  obtain ⟨trusts, spares, pending, isPlain⟩ := joins.holds
  have hoped : scene.strict ∨ answer?.isSome = true := by
    refine allows.imp_right fun goesOn => ?_
    unfold end? at goesOn
    cases goes : other plain with
    | error fault =>
      rw [goes] at goesOn
      cases goesOn
    | ok result => exact Option.isSome_iff_exists.mpr ⟨_, computes.only isPlain goes⟩
  obtain ⟨found, leaves⟩ := gives.gives trusts pending succeeds admits hoped
  obtain ⟨plainAfter, goes, afterPlain, kept⟩ := computes.found isPlain found
  obtain ⟨later, larger, afterJoins⟩ := joins.later
    ⟨leaves.trusts, spares.trans leaves.spares,
      (gives.proceeds _ _ _ succeeds).pending.trans pending, afterPlain⟩
    leaves.cells (.of_eq kept)
  exact ⟨later, answer, plainAfter, larger, goes, afterJoins, rfl⟩

/-- A step gives what a step of the engine that asks the oracle concludes. -/
theorem gives_of_tracks (tracks : ∀ past world, (frame.bond past).Tracks world Same step other) :
    frame.Gives step (scene.environment.conclude scene.arena other) where
  proceeds state answer after succeeds :=
    ((tracks state (.none state.cells #[])).leads _ _ _ rfl succeeds).1
  gives {state after answer} trusts pending succeeds admits hoped := by
    have joins : (frame.bond state).Joins (.none state.cells #[]) state
        (scene.environment.start scene.arena) :=
      ⟨⟨trusts, .of_same rfl rfl rfl, pending, frame.plain_start⟩, rfl, rfl, False.elim, id, id⟩
    have goesOn : scene.strict ∨
        (other.end? (scene.environment.start scene.arena)).isSome = true := by
      rwa [Environment.conclude, Option.isSome_map, ← Option.isSome_map] at hoped
    obtain ⟨later, _, plainAfter, larger, goes, afterJoins, same⟩ :=
      (tracks state _).follows joins succeeds admits goesOn
    cases same
    obtain ⟨afterTrusts, spares, _⟩ := afterJoins.holds
    refine ⟨?_, afterTrusts, spares, fun _ _ held => afterJoins.kept (larger.cells ▸ held)⟩
    rw [Environment.conclude, goes]
    rfl

/-- An answer that is looked up is the one that would be found. -/
theorem Gives.cached {β : Type} {operation : Operation β} {step : Inference β} {find : Inference α}
    {known? : State → Option β} {answerOf : α → β} {noted : α → State → State}
    (caches : step.Caches known? find answerOf noted)
    (proceeds : Conserves State.Proceeds step) (finds : frame.Gives find found?)
    (settled : frame.settle? operation = found?.map answerOf)
    (known : ∀ {state answer}, scene.Trusts state → known? state = some answer →
      scene.Vouches operation answer)
    (goesOn : ∀ (reply : α) (state : State), state.Proceeds (noted reply state))
    (notes : ∀ {state reply}, scene.Settles ∅ operation (answerOf reply) → scene.Trusts state →
      scene.Leaves state (noted reply state)) :
    frame.Gives step (frame.settle? operation) where
  proceeds := proceeds
  gives {state after answer} trusts pending succeeds admits hoped := by
    cases recalled : known? state with
    | some present =>
      cases (caches.known recalled).symm.trans succeeds
      exact ⟨frame.settle_of_vouches (known trusts recalled) hoped, trusts, .of_same rfl rfl rfl,
        .of_eq rfl⟩
    | none =>
      rw [caches.unknown recalled] at succeeds
      obtain ⟨⟨reply, between⟩, found, ⟨⟩⟩ := Except.map_eq_ok_iff.mp succeeds
      rw [settled, Option.isSome_map] at hoped
      obtain ⟨replied, leaves⟩ := finds.gives trusts pending found
        (admits.of_proceeds (goesOn reply between)) hoped
      have answered : frame.settle? operation = some (answerOf reply) := by
        rw [settled, replied]
        rfl
      have left := notes (frame.settles answered) leaves.trusts
      exact ⟨answered, left.trusts, leaves.spares.trans left.spares, leaves.cells.trans left.cells⟩

/-- Every value of a request is in the arena of the scene. -/
theorem tracks_value (id : ValueId) :
    (frame.bond past).Tracks world Same (value id) (value id) := by
  refine tracks_of_gives ⟨State.Proceeds.conserved.value id, ?_⟩ (.value id)
  intro state after stored trusts _ succeeds admits _
  obtain ⟨found, rfl⟩ := value_eq_ok_iff.mp succeeds
  exact ⟨admits.covers.value found, trusts, .of_same rfl rfl rfl, .of_eq rfl⟩

/-- A value that is interned is found by the engine that asks the oracle. -/
theorem tracks_intern (stored : Value) :
    (frame.bond past).Tracks world Same (intern stored) (intern stored) := by
  refine .of_goes ?_ False.elim ?_
  · rintro state _ _ _ ⟨⟩
    exact .intern state stored
  · rintro state plain _ _ joins ⟨⟩ admits _
    obtain ⟨trusts, spares, pending, isPlain⟩ := joins.holds
    have found := admits.covers.interned (Arena.find?_intern state.arena stored)
    have holds : (frame.bond past).Holds
        { state with arena := (state.arena.intern stored).2 } plain :=
      ⟨trusts.of_same rfl rfl rfl, spares.trans (.of_same rfl rfl rfl), pending, isPlain⟩
    obtain ⟨later, larger, afterJoins⟩ := joins.later holds (.of_eq rfl) (.of_eq rfl)
    refine ⟨later, _, plain, larger, ?_, afterJoins, rfl⟩
    unfold Inference.intern
    rw [isPlain.arena, Arena.intern_of_find? found, ← isPlain.arena]
    rfl

/-! ## Engines -/

/-- An engine whose answers are those of the oracle of a frame. -/
structure Serves (frame : Frame scene) (fuel : Nat) : Prop where
  answers : ∀ {α : Type} {operation : Operation α}, operation.isRepeatable = true →
    frame.Gives ((scene.environment.stage fuel).ask operation) (frame.oracle.answer? operation)
  resolves : ∀ {past : State} {world : Partners} {deferred partner : Deferred},
    world.Alike deferred partner →
    (frame.bond past).Tracks world Same ((scene.environment.stage fuel).ask (.resolve deferred))
      (frame.reader.ask (.resolve partner))

namespace Serves

variable {fuel : Nat} (serves : frame.Serves fuel)

include serves

theorem asks (past : State) :
    (frame.bond past).Asks scene.tree (scene.environment.stage fuel) frame.reader.ask where
  provider := scene.named
  values _ := tracks_value
  interns _ := tracks_intern
  asks _ repeatable := tracks_of_gives (serves.answers repeatable) (.ask repeatable)
  resolves := serves.resolves

/-- An annotation is read as the oracle leads to, be it remembered or evaluated. -/
theorem gives_readHint (node : NodeId) :
    frame.Gives ((scene.environment.stage fuel).readHint node)
      (frame.settle? (.readHint node)) :=
  .cached (Engine.caches_readHint _ node) ((scene.environment.abides_proceeds fuel).hints node)
    (gives_of_tracks fun past world => (serves.asks past).evaluateHint world node)
    (frame.settle?_readHint node) (fun trusts known => trusts.hint known)
    (fun _ state => .note state _ _)
    fun settles trusts => ⟨trusts.noteHint (Scene.vouches_of_settles settles),
      .noteHint _ ⟨_, settles⟩, .of_eq rfl⟩

theorem tracks_readHint (world : Partners) (node : NodeId) :
    (frame.bond past).Tracks world Same ((scene.environment.stage fuel).readHint node)
      (frame.reader.readHint node) :=
  tracks_of_gives (serves.gives_readHint node) (frame.computes_readHint node)

theorem gives_typeArguments (generics : Generics) :
    frame.Gives ((scene.environment.stage fuel).typeArguments generics)
      (frame.settle? (.typeArguments generics)) := by
  have proceeds := (scene.environment.abides_proceeds fuel).subscripts generics
  cases generics with
  | resolved arguments =>
    refine ⟨proceeds, fun trusts _ succeeds _ _ => ?_⟩
    cases succeeds
    exact ⟨rfl, trusts, .of_same rfl rfl rfl, .of_eq rfl⟩
  | lazy node =>
    refine .cached (Engine.caches_typeArguments _ node) proceeds
      (gives_of_tracks fun past world => ?_) (frame.settle?_typeArguments node)
      (fun trusts known => trusts.subscript known)
      (fun _ state => (State.Proceeds.of_beside (.emit state _)).trans (.note _ _ _))
      fun {state _} settles trusts => ⟨?_, ?_, .of_eq rfl⟩
    · exact .mapM_same serves.tracks_readHint _
    · exact (trusts.noteSubscript (Scene.vouches_of_settles settles)).of_same rfl rfl rfl
    · exact (Scene.Spares.noteSubscript state ⟨_, settles⟩).trans (.of_same rfl rfl rfl)

theorem suits (past : State) :
    (frame.bond past).Suits scene.tree (scene.environment.stage fuel) frame.reader.ask :=
  { serves.asks past with
    hints := serves.tracks_readHint
    subscripts := fun _ generics => tracks_of_gives (serves.gives_typeArguments generics)
      (frame.computes_typeArguments generics) }

end Serves

end Frame

end TypeInference
