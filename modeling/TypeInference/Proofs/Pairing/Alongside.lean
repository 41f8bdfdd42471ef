import TypeInference.Proofs.Pairing.Accord

/-!
# Runs alongside each other

Two runs start from states that are alike, and they go on alongside each other if they are
alike whenever both have taken the same step.  It is enough that the states hold the same
values, annotations and cells, and that they stay alike when these change in the same way:
then every operation goes on alongside itself that asks for nothing else.
-/

namespace TypeInference

open Inference

section Outcomes

variable (shared : Prop) (likeness : State → State → Prop) {α : Type} (related : α → α → Prop)

/-- Related answers in states that are alike, or a fault, which may have to be shared. -/
inductive Outcome : Except Fault (α × State) → Except Fault (α × State) → Prop where
  | answer {answer other : α} {state otherState : State} :
    related answer other → likeness state otherState →
    Outcome (.ok (answer, state)) (.ok (other, otherState))
  | fault {fault : Fault} {other : Except Fault (α × State)} :
    (shared → other = .error fault) → Outcome (.error fault) other

/-- From states that are alike, two steps come to outcomes that go together. -/
def Alongside (step other : Inference α) : Prop :=
  ∀ state otherState, likeness state otherState →
    Outcome shared likeness related (step state) (other otherState)

end Outcomes

/-- The values, annotations and cells of a request. -/
structure State.Stock where
  arena : Arena
  hints : Table NodeId TypeSet
  subscripts : Table NodeId TypeArguments
  cells : Array (Option TypeSet)

def State.stock (state : State) : Stock :=
  ⟨state.arena, state.hints, state.subscripts, state.cells⟩

def State.restock (state : State) (stock : Stock) : State :=
  { state with
    arena := stock.arena
    hints := stock.hints
    subscripts := stock.subscripts
    cells := stock.cells }

/-- States that are alike have the same in stock, and stay alike when that changes alike. -/
structure Likeness (likeness : State → State → Prop) : Prop where
  stock : ∀ {state other}, likeness state other → other.stock = state.stock
  restock : ∀ {state other}, likeness state other → ∀ stock,
    likeness (state.restock stock) (other.restock stock)
  depth : ∀ {state other}, likeness state other → other.budget.depth = state.budget.depth
  emit : ∀ {state other}, likeness state other → ∀ event,
    likeness { state with events := state.events.push event }
      { other with events := other.events.push event }
  askNode : ∀ {state other}, likeness state other → likeness state.askNode other.askNode
  unify : ∀ {state other}, likeness state other →
    likeness
      { state with
        counters := { state.counters with unifications := state.counters.unifications + 1 } }
      { other with
        counters := { other.counters with unifications := other.counters.unifications + 1 } }

/-- What is in stock changes alike. -/
theorem Likeness.change (alike : Likeness likeness) (holds : likeness state other)
    (change : State.Stock → State.Stock) :
    likeness (state.restock (change state.stock)) (other.restock (change other.stock)) := by
  rw [alike.stock holds]
  exact alike.restock holds _

/-- What is seen of the stock is the same. -/
theorem Likeness.sees (alike : Likeness likeness) (part : State.Stock → α)
    (holds : likeness state other) :
    part other.stock = part state.stock := by
  rw [alike.stock holds]

/-- States that are alike have the same active nodes, and go on having them. -/
structure LikeNodes (likeness : State → State → Prop) : Prop extends Likeness likeness where
  nodeGuard : ∀ {state other}, likeness state other → other.nodeGuard = state.nodeGuard
  guard : ∀ {state other}, likeness state other → ∀ change : NodeGuard → NodeGuard,
    likeness { state with nodeGuard := change state.nodeGuard }
      { other with nodeGuard := change other.nodeGuard }

/-- States that are alike have the same calls, and go on having them. -/
structure LikeCalls (likeness : State → State → Prop) : Prop where
  returns : ∀ {state other}, likeness state other → other.returns = state.returns
  note : ∀ {state other}, likeness state other → ∀ invocation progress marks,
    likeness
      { state with
        returns := state.returns.insert invocation progress
        journal := marks ++ state.journal }
      { other with
        returns := other.returns.insert invocation progress
        journal := marks ++ other.journal }
  count : ∀ {state other}, likeness state other → ∀ change : Counters → Counters,
    likeness { state with counters := change state.counters }
      { other with counters := change other.counters }

/-- States that are alike change alike once the same answer is known. -/
theorem Outcome.map {likeness later : State → State → Prop} {α : Type}
    {run other : Except Fault (α × State)} (outcome : Outcome shared likeness Eq run other)
    (change : α → State → State) (kept : ∀ {answer state otherState}, likeness state otherState →
      later (change answer state) (change answer otherState)) :
    Outcome shared later Eq (run.map fun result => (result.1, change result.1 result.2))
      (other.map fun result => (result.1, change result.1 result.2)) := by
  cases outcome with
  | answer same alike =>
    cases same
    exact .answer rfl (kept alike)
  | fault isShared =>
    refine .fault fun wanted => ?_
    rw [isShared wanted]
    rfl

namespace Alongside

variable {shared : Prop} {likeness : State → State → Prop} {α β : Type}

theorem pure (holds : related answer other) :
    Alongside shared likeness related (pure answer) (pure other) :=
  fun _ _ alike => .answer holds alike

theorem throw (fault : Fault) :
    Alongside shared likeness related (throw fault : Inference α) (throw fault) :=
  fun _ _ _ => .fault fun _ => rfl

theorem bind (firstGoes : Alongside shared likeness middle first firstOther)
    (nextGoes : ∀ answer other, middle answer other →
      Alongside shared likeness related (next answer) (nextOther other)) :
    Alongside shared likeness related (first >>= next) (firstOther >>= nextOther) := by
  intro state otherState alike
  show Outcome shared likeness related
    (first state >>= fun result => next result.1 result.2)
    (firstOther otherState >>= fun result => nextOther result.1 result.2)
  have outcome := firstGoes state otherState alike
  revert outcome
  generalize first state = started
  generalize firstOther otherState = otherStarted
  intro outcome
  cases outcome with
  | answer holds between => exact nextGoes _ _ holds _ _ between
  | fault isShared =>
    refine .fault fun wanted => ?_
    rw [isShared wanted]
    rfl

/-- Steps that look at what is the same in states that are alike. -/
theorem look (same : ∀ {state other}, likeness state other → part other = part state) :
    Alongside shared likeness Eq (look part) (look part) :=
  fun _ _ alike => .answer (same alike).symm alike

theorem modify
    (kept : ∀ {state other}, likeness state other → likeness (change state) (change other)) :
    Alongside shared likeness Eq (modify change : Inference Unit) (modify change) :=
  fun _ _ alike => .answer rfl (kept alike)

theorem andThen (firstGoes : Alongside shared likeness Eq first firstOther)
    (nextGoes : ∀ answer, Alongside shared likeness related (next answer) (nextOther answer)) :
    Alongside shared likeness related (first >>= next) (firstOther >>= nextOther) := by
  refine firstGoes.bind fun answer other same => ?_
  cases same
  exact nextGoes answer

/-! ## The guarded places -/

theorem guarded (alike : LikeNodes likeness)
    (contentGoes : Alongside shared likeness Eq content other) (source : NodeId) :
    Alongside shared likeness Eq (guarded source content) (guarded source other) := by
  intro state otherState holds
  have same := alike.nodeGuard holds
  by_cases active : source ∈ state.nodeGuard.active
  · rw [guarded_of_active active, guarded_of_active (same ▸ active)]
    exact .answer rfl (alike.emit (alike.askNode holds) _)
  · rw [guarded_of_not_active active, guarded_of_not_active (same ▸ active)]
    have entered := alike.guard (alike.askNode holds) fun guard => ⟨source :: guard.active⟩
    exact (contentGoes _ _ entered).map (fun _ => State.leaveNode) fun left =>
      alike.guard left NodeGuard.leave

theorem remembered (calls : LikeCalls likeness)
    (contentGoes : Alongside shared likeness Eq content other)
    (againGoes : Alongside shared likeness Eq again againOther) (invocation : Invocation) :
    Alongside shared likeness Eq (remembered invocation again content)
      (remembered invocation againOther other) := by
  intro state otherState holds
  have same : otherState.returns.get? invocation = state.returns.get? invocation := by
    rw [calls.returns holds]
  rw [remembered_eq, remembered_eq, same]
  cases state.returns.get? invocation with
  | none =>
    have started : likeness (state.startCall invocation) (otherState.startCall invocation) :=
      calls.note (calls.count holds fun counters =>
        { counters with memoMisses := counters.memoMisses + 1 }) invocation .running [_, _]
    exact (contentGoes _ _ started).map (fun result between => between.finishCall invocation result)
      fun between => calls.note between invocation _ [_]
  | some progress =>
    cases progress with
    | running => exact againGoes state otherState holds
    | finished result =>
      exact .answer rfl (calls.count holds fun counters =>
        { counters with memoHits := counters.memoHits + 1 })

end Alongside

/-! ## The accord -/

namespace Likeness

variable {likeness : State → State → Prop} (alike : Likeness likeness) (shared : Prop)
  {engine : Engine} (otherAsk : {α : Type} → Operation α → Inference α) (otherReports : Bool)
  (Sinks : Diagnostics → Diagnostics → Prop)

/-- Engines that answer alongside each other, as an accord. -/
def accord (nodes : ∀ node, Alongside shared likeness Eq (engine.inferNode node)
      (otherAsk (.inferNode node)))
    (calls : ∀ set arguments, Alongside shared likeness Eq (engine.execute set arguments)
      (otherAsk (.execute set arguments)))
    (reports : ∀ sink other diagnostic, Sinks sink other →
      Alongside shared likeness Sinks (engine.report sink diagnostic)
        ((engine.variant otherReports otherAsk).report other diagnostic)) :
    Accord engine where
  otherAsk := otherAsk
  otherReports := otherReports
  Sinks := Sinks
  Pairs := Alongside shared likeness
  pairs_pure := .pure
  pairs_bind := .bind
  pairs_throw := .throw
  pairs_value id state other holds := by
    have same : other.arena = state.arena := alike.sees State.Stock.arena holds
    unfold value
    rw [same]
    cases state.arena.get? id with
    | none => exact .fault fun _ => rfl
    | some stored => exact .answer rfl holds
  pairs_intern stored state other holds := by
    have same : other.arena = state.arena := alike.sees State.Stock.arena holds
    refine .answer (by rw [same]) (alike.change holds fun stock =>
      { stock with arena := (stock.arena.intern stored).2 })
  pairs_emit event := .modify fun holds => alike.emit holds event
  pairs_describe id := .look (alike.sees fun stock => stock.arena.describe engine.declarations id)
  pairs_unified := .modify alike.unify
  pairs_cells := .look (alike.sees State.Stock.cells)
  pairs_changeCells change _ := .modify fun holds =>
    alike.change holds fun stock => { stock with cells := change stock.cells }
  pairs_inferNode := nodes
  pairs_execute := calls
  pairs_report := reports _ _

/-- Annotations are read alongside each other if names are resolved so. -/
theorem reads {calls : ∀ set arguments, Alongside shared likeness Eq (engine.execute set arguments)
      (otherAsk (.execute set arguments))}
    {reports : ∀ sink other diagnostic, Sinks sink other →
      Alongside shared likeness Sinks (engine.report sink diagnostic)
        ((engine.variant otherReports otherAsk).report other diagnostic)}
    (names : ∀ name, Alongside shared likeness Eq
      ((engine.provider.resolveName name).run engine.ask)
      ((engine.provider.resolveName name).run otherAsk)) :
    (alike.accord shared otherAsk otherReports Sinks nodes calls reports).Reads := by
  have hints (node : NodeId) :=
    (alike.accord shared otherAsk otherReports Sinks nodes calls reports).pairs_readHint names
      (.look (alike.sees fun stock => stock.hints.get? node)) fun result =>
      .andThen (.modify fun holds => alike.change holds fun stock =>
        { stock with hints := stock.hints.insert node result }) fun _ => .pure rfl
  refine ⟨hints, fun generics => ?_⟩
  cases generics with
  | resolved arguments => exact .pure rfl
  | lazy node =>
    refine Accord.pairs_typeArguments _ hints
      (.look (alike.sees fun stock => stock.subscripts.get? node)) fun slots => ?_
    refine .andThen (.modify fun holds => alike.emit holds _) fun _ => ?_
    refine .andThen (.modify fun holds => alike.change holds fun stock =>
      { stock with subscripts := stock.subscripts.insert node _ }) fun _ => .pure rfl

end Likeness

end TypeInference
