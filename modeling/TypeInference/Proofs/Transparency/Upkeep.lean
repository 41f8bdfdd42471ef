import TypeInference.Proofs.Transparency.Confirmation

/-!
# Caches stay trusted

Whatever a request is asked for, its caches can be trusted afterwards if they could be
before.  What is settled is answered by what it comes to, and an entry for anything else
contradicts nothing.
-/

namespace TypeInference

open Inference

variable {α : Type}

namespace Scene

variable {scene : Scene} {state between after : State}

/-- Nothing that is being computed is settled. -/
def Idles (scene : Scene) (state : State) : Prop :=
  ∀ question ∈ state.pending, ∀ reply, ¬scene.Settles ∅ question.2 reply

/--
A step that keeps caches trusted, if nothing is cut short or nothing that is being computed
is settled.
-/
structure Upholds (scene : Scene) (state after : State) : Prop where
  proceeds : state.Proceeds after
  upholds : scene.strict ∨ scene.Idles state → scene.Admits after →
    scene.Trusts state → scene.Trusts after

theorem Idles.of_proceeds (idles : scene.Idles state) (proceeds : state.Proceeds after) :
    scene.Idles after := by
  unfold Idles
  rw [proceeds.pending]
  exact idles

theorem upholds_conserved (scene : Scene) : Conserved scene.Upholds where
  refl state := ⟨.refl state, fun _ _ => id⟩
  trans first second :=
    ⟨first.proceeds.trans second.proceeds, fun idles admits trusts =>
      second.upholds (idles.imp_right fun idles => idles.of_proceeds first.proceeds) admits
        (first.upholds idles (admits.of_proceeds second.proceeds) trusts)⟩
  aside beside := ⟨.of_beside beside, fun _ _ trusts =>
    trusts.of_same beside.hints beside.subscripts beside.returns⟩
  intern state stored := ⟨.intern state stored, fun _ _ trusts => trusts.of_same rfl rfl rfl⟩

/-- An operation that is not settled, where something may be cut short. -/
def IsLoose (scene : Scene) {α : Type} (operation : Operation α) : Prop :=
  ¬scene.strict ∧ ¬scene.IsSettled operation

variable {operation : Operation α}

/-- Whatever is remembered of an operation that is not settled contradicts nothing. -/
theorem IsLoose.vouches (loose : scene.IsLoose operation) (answer : α) :
    scene.Vouches operation answer :=
  ⟨fun strict => absurd strict loose.1, fun other settles => absurd ⟨other, settles⟩ loose.2⟩

/-- An operation that is not settled may be computed where nothing else is settled. -/
theorem Idles.inside (idles : scene.Idles state) (loose : scene.IsLoose operation)
    (pending : after.pending = insert ⟨α, operation⟩ state.pending) :
    scene.Idles after := by
  intro question member
  rw [pending] at member
  rcases member with rfl | member
  · exact fun reply settles => loose.2 ⟨reply, settles⟩
  · exact idles question member

/-- What is settled is settled without what is being computed. -/
theorem hoped_of_not_loose (idles : scene.strict ∨ scene.Idles state)
    (tight : ¬scene.IsLoose operation) :
    scene.strict ∨ ∃ settled, scene.Settles state.pending operation settled := by
  by_cases strict : scene.strict
  · exact .inl strict
  · obtain ⟨answer, settles⟩ := not_not.mp fun loose => tight ⟨strict, loose⟩
    exact .inr ⟨answer, settles.avoid (idles.resolve_left strict)⟩

/-- A step that answers an operation keeps caches trusted if it does so for loose operations. -/
theorem conserves_of_confirms (proceeds : Conserves State.Proceeds step)
    (confirms : scene.Confirms step operation)
    (conserves : scene.IsLoose operation → Conserves scene.Upholds step) :
    Conserves scene.Upholds step := by
  by_cases loose : scene.IsLoose operation
  · exact conserves loose
  · exact fun state answer after succeeds => ⟨proceeds _ _ _ succeeds, fun idles admits trusts =>
      (confirms _ _ _ trusts succeeds admits (hoped_of_not_loose idles loose)).2.trusts⟩

section Engines

variable {fuel : Nat}
  (asks : ∀ {α : Type} (operation : Operation α),
    Conserves scene.Upholds ((scene.environment.stage fuel).ask operation))

include asks

theorem upholds_readHint (node : NodeId) :
    Conserves scene.Upholds ((scene.environment.stage fuel).readHint node) := by
  refine conserves_of_confirms ((scene.environment.abides_proceeds fuel).hints node)
    (Environment.confirms_stage scene fuel (.readHint node) rfl) fun loose => ?_
  exact scene.upholds_conserved.readHint asks fun state result =>
    ⟨.note state _ _, fun _ _ trusts => trusts.noteHint (loose.vouches result)⟩

theorem upholds_typeArguments (generics : Generics) :
    Conserves scene.Upholds ((scene.environment.stage fuel).typeArguments generics) := by
  cases generics with
  | resolved arguments => exact scene.upholds_conserved.pure arguments
  | lazy node =>
    refine conserves_of_confirms ((scene.environment.abides_proceeds fuel).subscripts (.lazy node))
      (Environment.confirms_stage scene fuel (.typeArguments (.lazy node)) rfl)
      fun loose => ?_
    exact scene.upholds_conserved.typeArguments (upholds_readHint asks) fun state arguments =>
      ⟨.note state _ _, fun _ _ trusts => trusts.noteSubscript (loose.vouches arguments)⟩

theorem upholds_inferNodeOnce (node : NodeId) :
    Conserves scene.Upholds ((scene.environment.stage fuel).inferNodeOnce node) := by
  have proceeds := (scene.environment.abides_proceeds fuel).nodes node
  refine conserves_of_confirms proceeds
    (Environment.confirms_stage scene fuel (.inferNode node) rfl) fun loose => ?_
  intro state set after succeeds
  refine ⟨proceeds _ _ _ succeeds, fun idles admits trusts => ?_⟩
  rcases guarded_cases succeeds with ⟨_, _, rfl⟩ | ⟨before, contained, rfl⟩
  · exact trusts.of_same rfl rfl rfl
  · have inner := scene.upholds_conserved.run asks _ _ _ _ contained
    have entered : scene.Trusts (state.askNode.enterNode node) := trusts.of_same rfl rfl rfl
    have idlesInside := (idles.resolve_left loose.1).inside loose (state.pending_enterNode node)
    have beforeAdmits : scene.Admits before := ⟨admits.covers, admits.refusals, admits.whole⟩
    exact (inner.upholds (.inr idlesInside) beforeAdmits entered).of_same rfl rfl rfl

theorem upholds_returnType (function : FunctionId) (arguments : Arguments) :
    Conserves scene.Upholds ((scene.environment.stage fuel).returnType function arguments) := by
  have conserved := scene.upholds_conserved
  have proceeds := (scene.environment.abides_proceeds fuel).returns function arguments
  refine conserves_of_confirms proceeds
    (Environment.confirms_stage scene fuel (.returnType function arguments) rfl)
    fun loose => ?_
  intro state result after succeeds
  refine ⟨proceeds _ _ _ succeeds, fun idles admits trusts => ?_⟩
  rw [Engine.returnType_eq_remembered] at succeeds
  rcases remembered_cases succeeds with
    ⟨_, before, contained, rfl⟩ | ⟨_, succeeds⟩ | ⟨_, rfl⟩
  · have inner := conserves_declaredReturn conserved
      ⟨asks, upholds_readHint asks, upholds_typeArguments asks⟩ function arguments _ _ _ contained
    have idlesInside :=
      (idles.resolve_left loose.1).inside loose (state.pending_startCall function arguments)
    have beforeAdmits : scene.Admits before := ⟨admits.covers, admits.refusals, admits.whole⟩
    exact (inner.upholds (.inr idlesInside) beforeAdmits (trusts.startCall _)).finishCall
      (loose.vouches result)
  · obtain ⟨declaration, between, declared, emitted⟩ := bind_eq_ok_iff.mp succeeds
    cases emitted
    exact (conserved.trans
      (conserved.functionDeclaration _ function _ _ _ declared)
      (conserved.aside (.emit between _))).upholds idles admits trusts
  · exact trusts.of_same rfl rfl rfl

end Engines

/-- Whatever an engine performs keeps caches trusted. -/
theorem abides_upholds (scene : Scene) (fuel : Nat) :
    (scene.environment.stage fuel).Abides scene.Upholds :=
  scene.environment.abides_stage scene.upholds_conserved
    (fun _ asks => ⟨⟨asks, upholds_readHint asks, upholds_typeArguments asks⟩,
      upholds_inferNodeOnce asks, upholds_returnType asks⟩) fuel

end Scene

end TypeInference
