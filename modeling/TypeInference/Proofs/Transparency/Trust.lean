import TypeInference.Proofs.Table
import TypeInference.Proofs.Transparency.Settlement

/-!
# Trusted states

The caches of a request can be trusted if they hold nothing that contradicts what is
settled: an entry for an operation that is settled is what it comes to.  Where nothing was
cut short, every entry is settled.

A step of a request is compared with the answer that an oracle leads to.  If the caches can
be trusted, and everything that the step comes across is answered by the oracle, then it
answers what the oracle leads to, and the caches can be trusted afterwards.
-/

namespace TypeInference

open Inference

variable {node : NodeId} {function : FunctionId} {arguments : Arguments} {set : TypeSet}

/-! ## What is being computed -/

/-- The nodes and calls that are being computed. -/
def State.pending (state : State) : Set Question :=
  {question |
    (∃ node ∈ state.nodeGuard.active, question = ⟨_, .inferNode node⟩) ∨
    ∃ function arguments, state.returns.get? ⟨function, arguments⟩ = some .running ∧
      question = ⟨_, .returnType function arguments⟩}

namespace State

variable {state after : State}

theorem inferNode_mem_pending :
    ⟨_, .inferNode node⟩ ∈ state.pending ↔ node ∈ state.nodeGuard.active := by
  simp [pending]

theorem returnType_mem_pending :
    ⟨_, .returnType function arguments⟩ ∈ state.pending ↔
      state.returns.get? ⟨function, arguments⟩ = some .running := by
  simp [pending]

theorem Proceeds.pending (proceeds : state.Proceeds after) : after.pending = state.pending := by
  unfold State.pending
  simp only [proceeds.nodeGuard, proceeds.running]

/-- A node that is entered is being computed. -/
theorem pending_enterNode (state : State) (node : NodeId) :
    (state.askNode.enterNode node).pending = insert ⟨_, .inferNode node⟩ state.pending := by
  ext question
  have active : (state.askNode.enterNode node).nodeGuard.active =
      node :: state.nodeGuard.active := rfl
  have returns : (state.askNode.enterNode node).returns = state.returns := rfl
  simp only [pending, active, returns, Set.mem_insert_iff, Set.mem_ofPred_eq, List.mem_cons,
    exists_eq_or_imp, or_assoc]

/-- A call that is started is being computed. -/
theorem pending_startCall (state : State) (function : FunctionId) (arguments : Arguments) :
    (state.startCall ⟨function, arguments⟩).pending =
      insert ⟨_, .returnType function arguments⟩ state.pending := by
  have started : (state.startCall ⟨function, arguments⟩).returns.get? ⟨function, arguments⟩ =
      some .running := Table.get?_insert_self _ _ _
  have kept {other : Invocation} (different : other ≠ ⟨function, arguments⟩) :
      (state.startCall ⟨function, arguments⟩).returns.get? other = state.returns.get? other :=
    Table.get?_insert_of_ne _ different _
  ext question
  constructor
  · rintro (⟨node, active, rfl⟩ | ⟨other, given, running, rfl⟩)
    · exact .inr (inferNode_mem_pending.mpr active)
    · by_cases same : (⟨other, given⟩ : Invocation) = ⟨function, arguments⟩
      · cases same
        exact .inl rfl
      · exact .inr (returnType_mem_pending.mpr ((kept same).symm.trans running))
  · rintro (rfl | ⟨node, active, rfl⟩ | ⟨other, given, running, rfl⟩)
    · exact returnType_mem_pending.mpr started
    · exact inferNode_mem_pending.mpr active
    · by_cases same : (⟨other, given⟩ : Invocation) = ⟨function, arguments⟩
      · cases same
        exact returnType_mem_pending.mpr started
      · exact returnType_mem_pending.mpr ((kept same).trans running)

end State

/-! ## Scenes -/

/-- Whether a node or a call was cut short because it was being computed already. -/
def Event.cutsShort : Event → Bool
  | nodeRecursion _ | recursiveReturn _ => true
  | _ => false

/-- Requests over a tree that intern nothing beyond an arena. -/
structure Scene where
  environment : Environment
  tree : Tree
  provider : environment.provider = tree.provider
  /-- Everything that is ever interned. -/
  arena : Arena
  /-- Whether nothing is ever cut short. -/
  strict : Prop

namespace Scene

variable (scene : Scene)

/-- Names and bodies are those of the tree. -/
theorem named : { scene.environment.provider with inferNode := scene.tree.nodeProgram } =
    scene.tree.provider := by
  rw [scene.provider]
  rfl

abbrev Settles (blocked : Set Question) {α : Type} (operation : Operation α) (answer : α) : Prop :=
  scene.environment.Settles scene.arena blocked operation answer

/-- An operation that has an answer of its own. -/
def IsSettled {α : Type} (operation : Operation α) : Prop :=
  ∃ answer, scene.Settles ∅ operation answer

/-- An answer that does not contradict what is settled. -/
def Vouches {α : Type} (operation : Operation α) (answer : α) : Prop :=
  (scene.strict → scene.Settles ∅ operation answer) ∧
    ∀ other, scene.Settles ∅ operation other → other = answer

/-- A state whose caches can be trusted. -/
structure Trusts (state : State) : Prop where
  hint : ∀ {node : NodeId} {set : TypeSet}, state.hints.get? node = some set →
    scene.Vouches (.readHint node) set
  subscript : ∀ {node : NodeId} {arguments : TypeArguments},
    state.subscripts.get? node = some arguments →
    scene.Vouches (.typeArguments (.lazy node)) arguments
  finished : ∀ {function : FunctionId} {arguments : Arguments} {result : TypeSet},
    state.returns.get? ⟨function, arguments⟩ = some (.finished result) →
    scene.Vouches (.returnType function arguments) result

/-- Caches that agree on all that is not settled. -/
structure Spares (state after : State) : Prop where
  hint : ∀ {node : NodeId}, ¬scene.IsSettled (.readHint node) →
    after.hints.get? node = state.hints.get? node
  subscript : ∀ {node : NodeId}, ¬scene.IsSettled (.typeArguments (.lazy node)) →
    after.subscripts.get? node = state.subscripts.get? node
  call : ∀ {function : FunctionId} {arguments : Arguments},
    ¬scene.IsSettled (.returnType function arguments) →
    after.returns.get? ⟨function, arguments⟩ = state.returns.get? ⟨function, arguments⟩

/-- A step left nothing behind but what is settled. -/
structure Leaves (state after : State) : Prop where
  trusts : scene.Trusts after
  spares : scene.Spares state after
  cells : state.KeepsCells after

/-- Nothing was refused, and nothing was cut short if nothing may be. -/
structure Admits (state : State) : Prop where
  covers : scene.arena.Covers state.arena
  refusals : state.counters.refusals = 0
  whole : scene.strict → ∀ event ∈ state.events, event.cutsShort = false

variable {scene} {state after : State}

theorem vouches_of_settles (settles : scene.Settles ∅ operation answer) :
    scene.Vouches operation answer :=
  ⟨fun _ => settles, fun _ otherSettles => otherSettles.unique settles⟩

/-- What is admitted was admitted before, since refusals and events only grow. -/
theorem Admits.of_proceeds (admits : scene.Admits after) (proceeds : state.Proceeds after) :
    scene.Admits state where
  covers := admits.covers.trans proceeds.arena
  refusals := Nat.le_zero.mp (admits.refusals ▸ proceeds.refusals)
  whole strict event member := admits.whole strict event (proceeds.events event member)

section

variable (trusts : scene.Trusts state)

include trusts

/-- Changes that do not touch caches. -/
theorem Trusts.of_same (hints : after.hints = state.hints)
    (subscripts : after.subscripts = state.subscripts) (returns : after.returns = state.returns) :
    scene.Trusts after :=
  ⟨fun found => trusts.hint (hints ▸ found), fun found => trusts.subscript (subscripts ▸ found),
    fun found => trusts.finished (returns ▸ found)⟩

theorem Trusts.noteHint (vouches : scene.Vouches (.readHint node) set) :
    scene.Trusts { state with hints := state.hints.insert node set } := by
  refine ⟨fun found => ?_, trusts.subscript, trusts.finished⟩
  rcases Table.eq_or_get?_of_get?_insert found with ⟨rfl, rfl⟩ | found
  · exact vouches
  · exact trusts.hint found

theorem Trusts.noteSubscript {arguments : TypeArguments}
    (vouches : scene.Vouches (.typeArguments (.lazy node)) arguments) :
    scene.Trusts { state with subscripts := state.subscripts.insert node arguments } := by
  refine ⟨trusts.hint, fun found => ?_, trusts.finished⟩
  rcases Table.eq_or_get?_of_get?_insert found with ⟨rfl, rfl⟩ | found
  · exact vouches
  · exact trusts.subscript found

/-- A call that is started is not answered from the caches. -/
theorem Trusts.startCall (invocation : Invocation) :
    scene.Trusts (state.startCall invocation) := by
  refine ⟨trusts.hint, trusts.subscript, fun found => ?_⟩
  rcases Table.eq_or_get?_of_get?_insert found with ⟨_, ⟨⟩⟩ | found
  exact trusts.finished found

theorem Trusts.finishCall (vouches : scene.Vouches (.returnType function arguments) result) :
    scene.Trusts (state.finishCall ⟨function, arguments⟩ result) := by
  refine ⟨trusts.hint, trusts.subscript, fun found => ?_⟩
  rcases Table.eq_or_get?_of_get?_insert found with ⟨same, ⟨⟩⟩ | found
  · cases same
    exact vouches
  · exact trusts.finished found

end

namespace Spares

theorem of_same (hints : after.hints = state.hints)
    (subscripts : after.subscripts = state.subscripts) (returns : after.returns = state.returns) :
    scene.Spares state after :=
  ⟨fun _ => by rw [hints], fun _ => by rw [subscripts], fun _ => by rw [returns]⟩

theorem trans (first : scene.Spares state between) (second : scene.Spares between after) :
    scene.Spares state after :=
  ⟨fun loose => (second.hint loose).trans (first.hint loose),
    fun loose => (second.subscript loose).trans (first.subscript loose),
    fun loose => (second.call loose).trans (first.call loose)⟩

theorem symm (spares : scene.Spares state after) : scene.Spares after state :=
  ⟨fun loose => (spares.hint loose).symm, fun loose => (spares.subscript loose).symm,
    fun loose => (spares.call loose).symm⟩

variable (state)

theorem noteHint (settled : scene.IsSettled (.readHint node)) :
    scene.Spares state { state with hints := state.hints.insert node set } :=
  ⟨fun loose => Table.get?_insert_of_ne _ (by rintro rfl; exact loose settled) _, fun _ => rfl,
    fun _ => rfl⟩

theorem noteSubscript {arguments : TypeArguments}
    (settled : scene.IsSettled (.typeArguments (.lazy node))) :
    scene.Spares state { state with subscripts := state.subscripts.insert node arguments } :=
  ⟨fun _ => rfl, fun loose => Table.get?_insert_of_ne _ (by rintro rfl; exact loose settled) _,
    fun _ => rfl⟩

theorem noteCall (settled : scene.IsSettled (.returnType function arguments))
    (progress : Progress) :
    scene.Spares state
      { state with returns := state.returns.insert ⟨function, arguments⟩ progress } :=
  ⟨fun _ => rfl, fun _ => rfl,
    fun loose => Table.get?_insert_of_ne _ (by rintro ⟨⟩; exact loose settled) _⟩

end Spares

end Scene

/-! ## Frames -/

/--
What a node or a call is computed from: settled answers, none of which is for what is being
computed, or all that is settled if nothing is cut short.
-/
structure Frame (scene : Scene) where
  oracle : Oracle
  /-- What is being computed. -/
  blocked : Set Question
  sound : ∀ {α : Type} {operation : Operation α} {answer : α},
    oracle.answer? operation = some answer → scene.Settles ∅ operation answer
  /-- Answers are settled without what is being computed. -/
  apart : scene.strict ∨ ∀ {α : Type} {operation : Operation α} {answer : α},
    oracle.answer? operation = some answer → scene.Settles blocked operation answer
  /-- Where nothing is cut short, all settled answers are known. -/
  full : scene.strict → ∀ {α : Type} {operation : Operation α} {answer : α},
    scene.Settles ∅ operation answer → oracle.answer? operation = some answer

/-- A step that gives an answer, if there is one or if nothing is cut short. -/
structure Frame.Gives {scene : Scene} (frame : Frame scene) {α : Type} (step : Inference α)
    (answer? : Option α) : Prop where
  proceeds : Conserves State.Proceeds step
  gives : ∀ {state after : State} {answer : α}, scene.Trusts state →
    state.pending = frame.blocked → step state = .ok (answer, after) → scene.Admits after →
    scene.strict ∨ answer?.isSome = true → answer? = some answer ∧ scene.Leaves state after

namespace Frame

variable {scene : Scene} {α : Type} {operation : Operation α} {answer : α}

/-- What the oracle leads to is settled. -/
theorem settles (frame : Frame scene)
    (found : scene.environment.settle scene.arena frame.oracle operation = some answer) :
    scene.Settles ∅ operation answer :=
  .intro frame.oracle (Set.notMem_empty _) (fun _ _ => frame.sound) found

/-- A remembered answer is what the oracle leads to. -/
theorem settle_of_vouches (frame : Frame scene) (vouches : scene.Vouches operation answer)
    (hoped : scene.strict ∨
      (scene.environment.settle scene.arena frame.oracle operation).isSome = true) :
    scene.environment.settle scene.arena frame.oracle operation = some answer := by
  rcases hoped with strict | hoped
  · obtain ⟨oracle, _, sound, found⟩ := vouches.1 strict
    exact Environment.settle_of_le (fun _ _ known => frame.full strict (sound _ _ known)) found
  · obtain ⟨other, found⟩ := Option.isSome_iff_exists.mp hoped
    cases vouches.2 other (frame.settles found)
    exact found

end Frame

end TypeInference
