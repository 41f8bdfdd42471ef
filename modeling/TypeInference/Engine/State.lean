import TypeInference.Call.Arguments
import TypeInference.Event
import TypeInference.Guard.Node
import TypeInference.Value.Arena

/-!
# The state of one request

A request owns the arena, three caches, two guards, the cells of its deferred
values, its counters, its events and a journal.  An inference is a step on that state that
may end early: because its fuel ran out, or because it met an identifier that
belongs to nothing.
-/

namespace TypeInference

/-- A function together with the arguments of one call. -/
structure Invocation where
  function : FunctionId
  arguments : Arguments
deriving DecidableEq

/-- How far the return values of a call are known. -/
inductive Progress where
  /-- They are being computed further up. -/
  | running
  | finished (result : TypeSet)
deriving DecidableEq

/-- What a request does about calls and bodies, for the record. -/
inductive Mark where
  | bodyAsked (function : FunctionId)
  | bodyEntered (function : FunctionId)
  | bodyLeft (function : FunctionId)
  | returnComputed (invocation : Invocation)
  | callNoted (invocation : Invocation) (progress : Progress)

/-- The state of one request. -/
structure State where
  arena : Arena
  /-- What annotation nodes evaluate to. -/
  hints : Table NodeId TypeSet := ∅
  /-- The type arguments of subscript nodes. -/
  subscripts : Table NodeId TypeArguments := ∅
  returns : Table Invocation Progress := ∅
  nodeGuard : NodeGuard := {}
  budget : ExecutionBudget := {}
  /-- The answers of deferred values. -/
  cells : Array (Option TypeSet) := #[]
  counters : Counters := {}
  events : Array Event := #[]
  /-- What was done about calls and bodies, latest first.  No answer depends on it. -/
  journal : List Mark := []
deriving Inhabited

/-- Why an inference ends early. -/
inductive Fault where
  | outOfFuel
  | unknownValue (id : ValueId)
  | unknownClass (id : ClassId)
  | unknownFunction (id : FunctionId)
deriving DecidableEq

/-- A step on the state of a request. -/
abbrev Inference := StateT State (Except Fault)

namespace Inference

theorem bind_eq_ok_iff {α β : Type} {first : Inference α} {next : α → Inference β}
    {state after : State} {answer : β} :
    (first >>= next) state = .ok (answer, after) ↔
      ∃ middle between, first state = .ok (middle, between) ∧
        next middle between = .ok (answer, after) := by
  show (first state >>= fun pair => next pair.1 pair.2) = _ ↔ _
  cases first state with
  | error fault => simp [bind, Except.bind]
  | ok pair =>
    constructor
    · intro finished
      exact ⟨pair.1, pair.2, rfl, finished⟩
    · rintro ⟨middle, between, started, finished⟩
      cases started
      exact finished

/-! ## Values -/

def value (id : ValueId) : Inference Value := fun state =>
  match state.arena.get? id with
  | some value => .ok (value, state)
  | none => .error (.unknownValue id)

theorem value_eq_ok_iff {id : ValueId} {state after : State} {stored : Value} :
    value id state = .ok (stored, after) ↔ state.arena.get? id = some stored ∧ after = state := by
  unfold value
  cases state.arena.get? id with
  | none => simp
  | some found => simp [eq_comm]

def intern (value : Value) : Inference ValueId := fun state =>
  let (id, arena) := state.arena.intern value
  .ok (id, { state with arena := arena })

def internSet (value : Value) : Inference TypeSet :=
  return .singleton (← intern value)

/-! ## Events and counters -/

def emit (event : Event) : Inference Unit :=
  modify fun state => { state with events := state.events.push event }

def count (change : Counters → Counters) : Inference Unit :=
  modify fun state => { state with counters := change state.counters }

def mark (mark : Mark) : Inference Unit :=
  modify fun state => { state with journal := mark :: state.journal }

/-! ## Cells -/

def freshCell : Inference CellId := fun state =>
  .ok (⟨state.cells.size⟩, { state with cells := state.cells.push none })

def cellAnswer? (cell : CellId) : Inference (Option TypeSet) := fun state =>
  .ok ((state.cells[cell.index]?).join, state)

/-- Put an answer into a cell that has none. -/
def fillCell (cell : CellId) (answer : TypeSet) : Inference Unit :=
  modify fun state =>
    { state with cells := state.cells.modify cell.index (fun present => present.or (some answer)) }

/-! ## Loops over sets and lists -/

/-- The union of the sets of all items, visited in order. -/
def unionOver {α : Type} (setOf : α → Inference TypeSet) : List α → Inference TypeSet
  | [] => pure ∅
  | item :: rest => do
    let first ← setOf item
    let others ← unionOver setOf rest
    return first ∪ others

/-- The merge of the substitutions of all items, visited in order. -/
def mergeOver {α : Type} (bindingsOf : α → Inference Substitution) :
    List α → Inference Substitution
  | [] => pure ∅
  | item :: rest => do
    let first ← bindingsOf item
    let others ← mergeOver bindingsOf rest
    return first.merge others

theorem unionOver_eq (setOf : α → Inference TypeSet) (items : List α) :
    unionOver setOf items = (do return (← items.mapM setOf).foldr (· ∪ ·) ∅) := by
  induction items with
  | nil => rfl
  | cons item rest ih => simp [unionOver, ih]

theorem mergeOver_eq (bindingsOf : α → Inference Substitution) (items : List α) :
    mergeOver bindingsOf items = (do return (← items.mapM bindingsOf).foldr .merge ∅) := by
  induction items with
  | nil => rfl
  | cons item rest ih => simp [mergeOver, ih]

/-- Whether some item passes a test; later items are not tested. -/
def anyOf {α : Type} (test : α → Inference Bool) : List α → Inference Bool
  | [] => pure false
  | item :: rest => do
    if ← test item then return true
    anyOf test rest

/-- Whether all items pass a test; items after one that fails are not tested. -/
def allOf {α : Type} (test : α → Inference Bool) : List α → Inference Bool
  | [] => pure true
  | item :: rest => do
    if ← test item then allOf test rest else return false

/-- The answers of the items that have one. -/
def filterMapOver {α β : Type} (answer? : α → Inference (Option β)) : List α → Inference (List β)
  | [] => pure []
  | item :: rest => do
    let first ← answer? item
    let others ← filterMapOver answer? rest
    return first.toList ++ others

/-- Visit all items with a sink that each of them may add to. -/
def throughSink {α β : Type} (visit : α → Diagnostics → Inference (β × Diagnostics)) :
    List α → Diagnostics → Inference (List β × Diagnostics)
  | [], sink => pure ([], sink)
  | item :: rest, sink => do
    let (first, sink) ← visit item sink
    let (others, sink) ← throughSink visit rest sink
    return (first :: others, sink)

end Inference

end TypeInference
