import TypeInference.Proofs.Transparency.Tracking

/-!
# Settled operations are answered by what they come to

Whatever fuel an engine has: if the caches of a request can be trusted, an operation that
is settled without what is being computed is answered by what it comes to, and so is every
operation if nothing is cut short.  Nodes and calls are computed in frames of their own, in
which they do not ask for themselves.
-/

namespace TypeInference

open Inference

variable {α : Type} {scene : Scene} {operation : Operation α} {step : Inference α}

/-! ## Frames for settled operations -/

namespace Scene

variable {blocked : Set Question}

/-- All that is settled, where nothing is cut short. -/
noncomputable def strictFrame (strict : scene.strict) (blocked : Set Question) : Frame scene where
  oracle := scene.environment.settlement scene.arena
  blocked := blocked
  sound := Environment.answer?_settlement_iff.mp
  apart := .inl strict
  full _ := Environment.answer?_settlement_iff.mpr

/-- Answers that are settled without what is being computed. -/
def looseFrame (loose : ¬scene.strict) (oracle : Oracle)
    (sound : ∀ {β : Type} (asked : Operation β) (reply : β), oracle.answer? asked = some reply →
      scene.Settles blocked asked reply) : Frame scene where
  oracle := oracle
  blocked := blocked
  sound found := (sound _ _ found).of_subset (Set.empty_subset _)
  apart := .inr (sound _ _)
  full strict := absurd strict loose

/-- What is settled is found in a frame. -/
theorem exists_frame (hoped : scene.strict ∨ ∃ answer, scene.Settles blocked operation answer) :
    ∃ frame : Frame scene, frame.blocked = blocked ∧
      (scene.strict ∨ (frame.settle? operation).isSome = true) := by
  by_cases strict : scene.strict
  · exact ⟨strictFrame strict blocked, rfl, .inl strict⟩
  · obtain ⟨answer, oracle, _, sound, found⟩ := hoped.resolve_left strict
    exact ⟨looseFrame strict oracle sound, rfl, .inr (Option.isSome_iff_exists.mpr ⟨answer, found⟩)⟩

/-- What is settled is found in a frame in which it is not asked for. -/
theorem exists_inner_frame
    (hoped : scene.strict ∨ ∃ answer, scene.Settles blocked operation answer) :
    ∃ frame : Frame scene, frame.blocked = insert ⟨α, operation⟩ blocked ∧
      (scene.strict ∨ (frame.settle? operation).isSome = true) := by
  by_cases strict : scene.strict
  · exact ⟨strictFrame strict _, rfl, .inl strict⟩
  · obtain ⟨answer, settles⟩ := hoped.resolve_left strict
    obtain ⟨oracle, sound, found⟩ := settles.exists_loopless
    exact ⟨looseFrame strict oracle sound, rfl, .inr (Option.isSome_iff_exists.mpr ⟨answer, found⟩)⟩

/-- A step that answers an operation by what it comes to, if it is settled. -/
def Confirms (scene : Scene) {α : Type} (step : Inference α) (operation : Operation α) : Prop :=
  ∀ state after answer, scene.Trusts state → step state = .ok (answer, after) →
    scene.Admits after →
    (scene.strict ∨ ∃ settled, scene.Settles state.pending operation settled) →
    scene.Settles ∅ operation answer ∧ scene.Leaves state after

/-- Where an oracle knows the answer, it is what the step answers. -/
theorem Confirms.gives {frame : Frame scene} (confirms : scene.Confirms step operation)
    (proceeds : Conserves State.Proceeds step) :
    frame.Gives step (frame.oracle.answer? operation) where
  proceeds := proceeds
  gives {state after answer} trusts pending succeeds admits hoped := by
    have settled : scene.strict ∨ ∃ settled, scene.Settles state.pending operation settled := by
      rcases frame.apart with strict | apart
      · exact .inl strict
      · refine hoped.imp_right fun isSome => ?_
        obtain ⟨known, answered⟩ := Option.isSome_iff_exists.mp isSome
        exact ⟨known, pending ▸ apart answered⟩
    obtain ⟨settles, leaves⟩ := confirms _ _ _ trusts succeeds admits settled
    refine ⟨?_, leaves⟩
    rcases hoped with strict | isSome
    · exact frame.full strict settles
    · obtain ⟨known, answered⟩ := Option.isSome_iff_exists.mp isSome
      rw [answered, (frame.sound answered).unique settles]

/-- A step that gives in every frame what its oracle leads to. -/
theorem confirms_of_gives (gives : ∀ frame : Frame scene, frame.Gives step
      (frame.settle? operation)) :
    scene.Confirms step operation := by
  intro state after answer trusts succeeds admits hoped
  obtain ⟨frame, blocked, found⟩ := scene.exists_frame hoped
  obtain ⟨found, leaves⟩ := (gives frame).gives trusts blocked.symm succeeds admits found
  exact ⟨frame.settles found, leaves⟩

end Scene

/-! ## Every operation -/

namespace Frame.Serves

variable {frame : Frame scene} {fuel : Nat} (serves : frame.Serves fuel)

include serves

/-- A node gives what its program comes to. -/
theorem gives_runProgram (node : NodeId) :
    frame.Gives
      ((scene.environment.stage fuel).runProgram (scene.environment.provider.inferNode node))
      (frame.settle? (.inferNode node)) := by
  refine gives_of_tracks fun past world => ?_
  have together : (scene.environment.provider.inferNode node).Matches world.Alike
      (scene.environment.provider.inferNode node) := by
    rw [scene.provider]
    exact scene.tree.together_nodeProgram node
  exact (serves.asks past).run together le_rfl

/-- A call gives what its declaration comes to. -/
theorem gives_declaredReturn (function : FunctionId) (arguments : Arguments) :
    frame.Gives ((scene.environment.stage fuel).declaredReturn function arguments)
      (frame.settle? (.returnType function arguments)) := by
  refine gives_of_tracks fun past => Pairing.fits_returnBy (serves.suits past).discarding ?_ _ _
  rw [Engine.bodyType_eq_budgeted]
  refine (Pairing.fits_functionDeclaration function).bind fun declaration world => ?_
  exact Bond.Tracks.budgeted ((serves.suits past).fits_inferBody function arguments world)
    (fun admits => admits.refusals) _ _ _

end Frame.Serves

namespace Environment

variable {fuel : Nat} (serves : ∀ frame : Frame scene, frame.Serves fuel)

section Perform

include serves

theorem confirms_inferNodeOnce (node : NodeId) :
    scene.Confirms ((scene.environment.stage fuel).inferNodeOnce node) (.inferNode node) := by
  intro state after set trusts succeeds admits hoped
  rcases guarded_cases succeeds with ⟨active, _, rfl⟩ | ⟨before, contained, rfl⟩
  · rcases hoped with strict | ⟨_, _, open_, _⟩
    · cases admits.whole strict (.nodeRecursion node) (Array.mem_push_self ..)
    · exact absurd (State.inferNode_mem_pending.mpr active) open_
  · obtain ⟨frame, blocked, hoped⟩ := scene.exists_inner_frame hoped
    have entered : scene.Trusts (state.askNode.enterNode node) := trusts.of_same rfl rfl rfl
    have pending := (state.pending_enterNode node).trans blocked.symm
    obtain ⟨found, trusts, spares, cells⟩ := ((serves frame).gives_runProgram node).gives entered
      pending contained ⟨admits.covers, admits.refusals, admits.whole⟩ hoped
    exact ⟨frame.settles found, trusts.of_same rfl rfl rfl,
      ⟨spares.hint, spares.subscript, spares.call⟩, cells⟩

theorem confirms_returnType (function : FunctionId) (arguments : Arguments) :
    scene.Confirms ((scene.environment.stage fuel).returnType function arguments)
      (.returnType function arguments) := by
  intro state after result trusts succeeds admits hoped
  rw [Engine.returnType_eq_remembered] at succeeds
  rcases remembered_cases succeeds with
    ⟨_, before, contained, rfl⟩ | ⟨running, succeeds⟩ | ⟨known, rfl⟩
  · obtain ⟨frame, blocked, hoped⟩ := scene.exists_inner_frame hoped
    have pending := (state.pending_startCall function arguments).trans blocked.symm
    obtain ⟨found, beforeTrusts, spares, cells⟩ :=
      ((serves frame).gives_declaredReturn function arguments).gives (trusts.startCall _) pending
        contained ⟨admits.covers, admits.refusals, admits.whole⟩ hoped
    have settles := frame.settles found
    have noted (progress : Progress) (state : State) :=
      Scene.Spares.noteCall state ⟨_, settles⟩ progress
    refine ⟨settles, beforeTrusts.finishCall (Scene.vouches_of_settles settles), ?_, cells⟩
    exact (noted .running state).trans (.trans ⟨spares.hint, spares.subscript, spares.call⟩
      ((noted (.finished result) before).trans (.of_same rfl rfl rfl)))
  · obtain ⟨declaration, between, _, emitted⟩ := bind_eq_ok_iff.mp succeeds
    cases emitted
    rcases hoped with strict | ⟨_, _, open_, _⟩
    · cases admits.whole strict (.recursiveReturn declaration.name) (Array.mem_push_self ..)
    · exact absurd (State.returnType_mem_pending.mpr running) open_
  · refine ⟨?_, trusts.of_same rfl rfl rfl, .of_same rfl rfl rfl, .of_eq rfl⟩
    rcases hoped with strict | ⟨settled, settles⟩
    · exact (trusts.finished known).1 strict
    · have settles := settles.of_subset (Set.empty_subset _)
      exact (trusts.finished known).2 settled settles ▸ settles

/-- Operations that are settled are answered by what they come to. -/
theorem confirms_perform (repeatable : operation.isRepeatable = true) :
    scene.Confirms ((scene.environment.stage fuel).perform operation) operation := by
  cases operation with
  | inferNode node => exact confirms_inferNodeOnce serves node
  | returnType function arguments => exact confirms_returnType serves function arguments
  | execute set arguments =>
    refine Scene.confirms_of_gives fun frame => Frame.gives_of_tracks fun past => ?_
    have suits := (serves frame).suits past
    have returns (function : FunctionId) : suits.pairing.Fits
        ((scene.environment.stage fuel).returnType function arguments)
        (frame.reader.ask (.returnType function arguments)) := fun _ =>
      Frame.tracks_of_gives ((confirms_returnType serves function arguments).gives
        ((scene.environment.abides_proceeds fuel).returns function arguments)) (.ask rfl)
    exact Pairing.fits_unionOver
      (fun id => Pairing.fits_callValue suits.discarding returns arguments id) set.members
  | readHint node => exact Scene.confirms_of_gives fun frame => (serves frame).gives_readHint node
  | typeArguments generics =>
    exact Scene.confirms_of_gives fun frame => (serves frame).gives_typeArguments generics
  | elements | iterate | unpack | bind | accepts | resolve => cases repeatable
  | _ =>
    refine Scene.confirms_of_gives fun frame => Frame.gives_of_tracks fun past => ?_
    exact Pairing.fits_unguarded ((serves frame).suits past).discarding _ repeatable rfl

end Perform

/-- Whatever its fuel, the engine of a request answers as the oracle of every frame does. -/
theorem serves_stage (scene : Scene) (fuel : Nat) (frame : Frame scene) : frame.Serves fuel := by
  have proceeds (fuel : Nat) {α : Type} (operation : Operation α) :
      Conserves State.Proceeds ((scene.environment.stage fuel).ask operation) :=
    (scene.environment.abides_proceeds fuel).asks operation
  induction fuel generalizing frame with
  | zero =>
    exact ⟨fun _ => ⟨proceeds 0 _, fun _ _ fails => by cases fails⟩,
      fun _ => .of_goes nofun False.elim nofun⟩
  | succ fuel ih =>
    refine ⟨fun repeatable => ?_, fun {past world deferred partner} alike => ?_⟩
    · refine Scene.Confirms.gives ?_ (proceeds (fuel + 1) _)
      rw [scene.environment.ask_stage_succ]
      exact confirms_perform ih repeatable
    · rw [scene.environment.ask_stage_succ]
      have nodes (world : Partners) (node : NodeId) : (frame.bond past).Tracks world Same
          ((scene.environment.stage fuel).inferNode node)
          (({ scene.environment with ask := frame.oracle.ask } : Engine).inferNode node) := by
        have asked : frame.Computes (frame.reader.ask (.inferNode node)) _ := .ask rfl
        exact Frame.tracks_of_gives ((ih frame).answers rfl) asked
      exact .resolve (fun _ => Frame.tracks_intern) nodes alike

/-- An engine answers what is settled by what it comes to. -/
theorem confirms_stage (scene : Scene) (fuel : Nat) (operation : Operation α)
    (repeatable : operation.isRepeatable = true) :
    scene.Confirms ((scene.environment.stage fuel).perform operation) operation :=
  confirms_perform (serves_stage scene fuel) repeatable

end Environment

end TypeInference
