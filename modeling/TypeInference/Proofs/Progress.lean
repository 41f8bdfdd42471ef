import TypeInference.Proofs.Conservation
import TypeInference.Proofs.Replay

/-!
# How a request proceeds

Whatever a request is asked for, values keep their identifiers, cells, refusals and events
are only added, and the nodes and calls that are being computed at the end are those that
were being computed at the start.
-/

namespace TypeInference

open Inference

/-! ## Arenas -/

/-- An arena in which everything is found where an earlier one has it. -/
structure Arena.Covers (arena earlier : Arena) : Prop where
  value : ∀ {id : ValueId} {stored : Value},
    earlier.get? id = some stored → arena.get? id = some stored
  interned : ∀ {stored : Value} {id : ValueId},
    earlier.find? stored = some id → arena.find? stored = some id

namespace Arena.Covers

variable {arena between earlier : Arena}

theorem refl (arena : Arena) : arena.Covers arena := ⟨id, id⟩

theorem trans (second : arena.Covers between) (first : between.Covers earlier) :
    arena.Covers earlier :=
  ⟨second.value ∘ first.value, second.interned ∘ first.interned⟩

theorem intern (arena : Arena) (stored : Value) : (arena.intern stored).2.Covers arena :=
  ⟨Arena.get?_of_le (Arena.le_intern arena stored), Arena.find?_of_find?_intern⟩

end Arena.Covers

/-! ## States -/

/-- Everything is kept, and the same nodes and calls are being computed. -/
structure State.Proceeds (state after : State) : Prop where
  arena : after.arena.Covers state.arena
  nodeGuard : after.nodeGuard = state.nodeGuard
  running : ∀ invocation, after.returns.get? invocation = some .running ↔
    state.returns.get? invocation = some .running
  cells : state.cells.size ≤ after.cells.size
  refusals : state.counters.refusals ≤ after.counters.refusals
  events : ∀ event ∈ state.events, event ∈ after.events

namespace State.Proceeds

variable {state between after : State}

theorem refl (state : State) : state.Proceeds state :=
  ⟨.refl _, rfl, fun _ => Iff.rfl, Nat.le_refl _, Nat.le_refl _, fun _ member => member⟩

theorem trans (first : state.Proceeds between) (second : between.Proceeds after) :
    state.Proceeds after where
  arena := second.arena.trans first.arena
  nodeGuard := second.nodeGuard.trans first.nodeGuard
  running invocation := (second.running invocation).trans (first.running invocation)
  cells := Nat.le_trans first.cells second.cells
  refusals := Nat.le_trans first.refusals second.refusals
  events event member := second.events event (first.events event member)

theorem intern (state : State) (stored : Value) :
    state.Proceeds { state with arena := (state.arena.intern stored).2 } :=
  ⟨.intern _ _, rfl, fun _ => Iff.rfl, Nat.le_refl _, Nat.le_refl _, fun _ member => member⟩

/-- What is done beside the point is progress. -/
theorem of_beside (beside : state.Beside after) : state.Proceeds after where
  arena := beside.arena ▸ .refl _
  nodeGuard := beside.nodeGuard
  running _ := by rw [beside.returns]
  cells := beside.cells
  refusals := beside.refusals
  events := beside.events

theorem conserved : Conserved State.Proceeds := ⟨refl, trans, of_beside, intern⟩

/-- Annotations that are noted change nothing of this. -/
theorem note (state : State) (hints : Table NodeId TypeSet)
    (subscripts : Table NodeId TypeArguments) :
    state.Proceeds { state with hints := hints, subscripts := subscripts } :=
  ⟨.refl _, rfl, fun _ => Iff.rfl, Nat.le_refl _, Nat.le_refl _, fun _ member => member⟩

/-- Between entering and leaving a node, nothing is entered for good. -/
theorem leaveNode (proceeds : (state.askNode.enterNode node).Proceeds between) :
    state.Proceeds between.leaveNode where
  arena := proceeds.arena
  nodeGuard := by
    show between.nodeGuard.leave = state.nodeGuard
    rw [proceeds.nodeGuard]
    rfl
  running := proceeds.running
  cells := proceeds.cells
  refusals := proceeds.refusals
  events := proceeds.events

/-- A call that was started and finished is not being computed any more. -/
theorem finishCall (unknown : state.returns.get? invocation = none)
    (proceeds : (state.startCall invocation).Proceeds between) :
    state.Proceeds (between.finishCall invocation result) where
  arena := proceeds.arena
  nodeGuard := proceeds.nodeGuard
  running other := by
    by_cases same : other = invocation
    · subst same
      have known : (between.finishCall other result).returns.get? other =
          some (.finished result) := Table.get?_insert_self _ _ _
      simp [known, unknown]
    · have finished : (between.finishCall invocation result).returns.get? other =
          between.returns.get? other := Table.get?_insert_of_ne _ same _
      have started : (state.startCall invocation).returns.get? other =
          state.returns.get? other := Table.get?_insert_of_ne _ same _
      rw [finished, proceeds.running, started]
  cells := proceeds.cells
  refusals := proceeds.refusals
  events := proceeds.events

end State.Proceeds

/-! ## Engines -/

section Engines

variable {engine : Engine}
  (asks : ∀ {α : Type} (operation : Operation α), Conserves State.Proceeds (engine.ask operation))

include asks

theorem proceeds_readHint (node : NodeId) : Conserves State.Proceeds (engine.readHint node) :=
  State.Proceeds.conserved.readHint asks fun state _ => .note state _ _

theorem proceeds_typeArguments (generics : Generics) :
    Conserves State.Proceeds (engine.typeArguments generics) := by
  cases generics with
  | resolved arguments => exact State.Proceeds.conserved.pure arguments
  | lazy node =>
    exact State.Proceeds.conserved.typeArguments (proceeds_readHint asks)
      fun state _ => .note state _ _

/-- A node is left again once it was entered. -/
theorem proceeds_inferNodeOnce (node : NodeId) :
    Conserves State.Proceeds (engine.inferNodeOnce node) := by
  intro state set after succeeds
  rcases guarded_cases succeeds with ⟨_, _, rfl⟩ | ⟨before, contained, rfl⟩
  · exact .of_beside ⟨rfl, rfl, rfl, rfl, rfl, Nat.le_refl _, Nat.le_refl _,
      fun _ member => Array.mem_push_of_mem _ member⟩
  · exact .leaveNode (State.Proceeds.conserved.run asks _ _ _ _ contained)

/-- A call is finished again once it was started. -/
theorem proceeds_returnType (function : FunctionId) (arguments : Arguments) :
    Conserves State.Proceeds (engine.returnType function arguments) := by
  have conserved := State.Proceeds.conserved
  have reads : engine.Reads State.Proceeds :=
    ⟨asks, proceeds_readHint asks, proceeds_typeArguments asks⟩
  intro state result after succeeds
  rw [Engine.returnType_eq_remembered] at succeeds
  rcases remembered_cases succeeds with
    ⟨unknown, before, contained, rfl⟩ | ⟨_, succeeds⟩ | ⟨_, rfl⟩
  · exact .finishCall unknown
      (conserves_declaredReturn conserved reads function arguments _ _ _ contained)
  · refine conserved.bind (conserved.functionDeclaration engine function)
      (fun declaration => ?_) _ _ _ succeeds
    exact conserved.bind (conserved.emit _) fun _ => conserved.pure ∅
  · exact .of_beside (.count state (Nat.le_refl _))

end Engines

/-- Whatever an engine performs, a request proceeds. -/
theorem Environment.abides_proceeds (env : Environment) (fuel : Nat) :
    (env.stage fuel).Abides State.Proceeds :=
  env.abides_stage State.Proceeds.conserved
    (fun _ asks => ⟨⟨asks, proceeds_readHint asks, proceeds_typeArguments asks⟩,
      proceeds_inferNodeOnce asks, proceeds_returnType asks⟩) fuel

/-- Whatever a request performs is progress. -/
theorem Environment.proceeds_perform (env : Environment) (fuel : Nat) {α : Type}
    (operation : Operation α) :
    Conserves State.Proceeds ((env.stage fuel).perform operation) :=
  (env.abides_proceeds fuel).conserves_perform State.Proceeds.conserved operation

end TypeInference
