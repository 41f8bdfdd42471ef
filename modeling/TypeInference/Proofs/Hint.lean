import TypeInference.Engine.Hint

/-!
# Annotations that are remembered

An annotation node is evaluated once, and what it evaluates to is noted.  So are the type
arguments of a subscript node.
-/

namespace TypeInference

open Inference

theorem Inference.get_bind (next : State → Inference α) (state : State) :
    ((get : Inference State) >>= next) state = next state state := rfl

/-- Look at a part of the request. -/
def Inference.look {α : Type} (part : State → α) : Inference α :=
  fun state => .ok (part state, state)

namespace Engine

/-- What an annotation node evaluates to, whatever is remembered of it. -/
def evaluateHint (engine : Engine) (node : NodeId) : Inference TypeSet := do
  let values ← engine.inferNode node
  match ← literal? values with
  | some source => engine.followReference node source
  | none => pure values

def noteHint (node : NodeId) (result : TypeSet) : Inference TypeSet := do
  modify fun state => { state with hints := state.hints.insert node result }
  return result

/-- Remember the type arguments of a subscript node. -/
def noteSubscript (node : NodeId) (slots : List TypeSet) : Inference TypeArguments := do
  let arguments := TypeArguments.ofSubscript slots
  emit (.subscriptResolved node arguments.size)
  modify fun state => { state with subscripts := state.subscripts.insert node arguments }
  return arguments

variable {engine : Engine} {node : NodeId} {state : State}

theorem readHint_of_known (known? : state.hints.get? node = some known) :
    engine.readHint node state = .ok (known, state) := by
  refine bind_eq_ok_iff.mpr ⟨state, state, rfl, ?_⟩
  rw [known?]
  rfl

theorem readHint_of_unknown (unknown : state.hints.get? node = none) :
    engine.readHint node state = (engine.evaluateHint node >>= noteHint node) state := by
  rw [readHint, get_bind, unknown]
  unfold evaluateHint
  simp only [bind_assoc]
  refine congrArg (fun step : Inference TypeSet => step state) ?_
  refine bind_congr fun values => bind_congr fun text? => ?_
  cases text? <;> rfl

/-- An annotation node is looked up before it is evaluated. -/
theorem readHint_eq (engine : Engine) (node : NodeId) :
    engine.readHint node = (do
      let known? ← look fun state => state.hints.get? node
      known?.elim (engine.evaluateHint node >>= noteHint node) pure) := by
  funext state
  show _ = (state.hints.get? node).elim (engine.evaluateHint node >>= noteHint node) pure state
  cases known? : state.hints.get? node with
  | some known => exact readHint_of_known known?
  | none => exact readHint_of_unknown known?

theorem typeArguments_of_known (known? : state.subscripts.get? node = some known) :
    engine.typeArguments (.lazy node) state = .ok (known, state) := by
  refine bind_eq_ok_iff.mpr ⟨state, state, rfl, ?_⟩
  rw [known?]
  rfl

theorem typeArguments_of_unknown (unknown : state.subscripts.get? node = none) :
    engine.typeArguments (.lazy node) state =
      (((engine.provider.subscript? node).getD [node]).mapM engine.readHint >>=
        noteSubscript node) state := by
  rw [typeArguments, get_bind, unknown]
  rfl

/-- A subscript node is looked up before its elements are read. -/
theorem typeArguments_lazy_eq (engine : Engine) (node : NodeId) :
    engine.typeArguments (.lazy node) = (do
      let known? ← look fun state => state.subscripts.get? node
      known?.elim (((engine.provider.subscript? node).getD [node]).mapM engine.readHint >>=
        noteSubscript node) pure) := by
  funext state
  show _ = (state.subscripts.get? node).elim
    (((engine.provider.subscript? node).getD [node]).mapM engine.readHint >>=
      noteSubscript node) pure state
  cases known? : state.subscripts.get? node with
  | some known => exact typeArguments_of_known known?
  | none => exact typeArguments_of_unknown known?

end Engine

/-! ## Answers that are looked up -/

/-- A step that looks an answer up before it finds and notes it. -/
structure Inference.Caches {α β : Type} (step : Inference β) (known? : State → Option β)
    (find : Inference α) (answerOf : α → β) (noted : α → State → State) : Prop where
  known : ∀ {state answer}, known? state = some answer → step state = .ok (answer, state)
  unknown : ∀ {state}, known? state = none →
    step state = (find state).map fun result => (answerOf result.1, noted result.1 result.2)

theorem Engine.caches_readHint (engine : Engine) (node : NodeId) :
    (engine.readHint node).Caches (·.hints.get? node) (engine.evaluateHint node) id
      fun set state => { state with hints := state.hints.insert node set } where
  known := readHint_of_known
  unknown {state} unknown := by
    rw [readHint_of_unknown unknown]
    show (engine.evaluateHint node state >>= fun result => noteHint node result.1 result.2) = _
    cases engine.evaluateHint node state <;> rfl

theorem Engine.caches_typeArguments (engine : Engine) (node : NodeId) :
    (engine.typeArguments (.lazy node)).Caches (·.subscripts.get? node)
      (((engine.provider.subscript? node).getD [node]).mapM engine.readHint)
      TypeArguments.ofSubscript fun slots state =>
        { state with
          events := state.events.push (.subscriptResolved node
            (TypeArguments.ofSubscript slots).size)
          subscripts := state.subscripts.insert node (TypeArguments.ofSubscript slots) } where
  known := typeArguments_of_known
  unknown {state} unknown := by
    rw [typeArguments_of_unknown unknown]
    show (List.mapM engine.readHint _ state >>= fun result =>
      noteSubscript node result.1 result.2) = _
    cases List.mapM engine.readHint _ state <;> rfl

end TypeInference
