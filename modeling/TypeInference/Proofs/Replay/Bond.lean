import TypeInference.Proofs.Progress
import TypeInference.Proofs.Replay.Binder

/-!
# Two runs side by side

Two runs go through the same steps, each with cells of its own.  Deferred values of the two
runs are partners if they were made in the same step; then their cells hold the same.  A bond
says what else the states of the two runs have in common, how their steps go on, and which
states they may come to.  If a run is tracked by another one, they give the same answers and
the bond lasts, as long as the other run goes on.
-/

namespace TypeInference

open Inference

variable {α β : Type}

/-! ## Steps -/

/-- Takes the next cells, as far as a given one, and answers from where they start. -/
def Inference.claim (answerFrom : Nat → α) (nextCell : Nat → Nat) : Inference α :=
  fun state => .ok (answerFrom state.cells.size, { state with
    cells := state.cells ++ Array.replicate (nextCell state.cells.size - state.cells.size) none })

theorem freshCell_bind_pure (answerIn : CellId → α) :
    (freshCell >>= fun cell => pure (answerIn cell)) =
      claim (fun cell => answerIn ⟨cell⟩) (· + 1) := by
  funext state
  simp only [claim, Nat.add_sub_cancel_left]
  rfl

/-- The state that a step ends in, if it succeeds. -/
def Inference.end? (step : Inference α) (state : State) : Option State :=
  (step state).toOption.map Prod.snd

theorem Inference.exists_of_end? {step : Inference α} (ends : step.end? state = some after) :
    ∃ answer, step state = .ok (answer, after) := by
  obtain ⟨⟨answer, _⟩, ran, rfl⟩ := Option.map_eq_some_iff.mp ends
  exact ⟨answer, Except.eq_ok_of_toOption ran⟩

theorem Inference.end?_bind (first : Inference α) (next : α → Inference β) (state : State) :
    (first >>= next).end? state =
      (first state).toOption.bind fun result => (next result.1).end? result.2 := by
  show ((first state >>= fun result => next result.1 result.2).toOption.map _) = _
  cases first state <;> rfl

/-- What cells hold is left as it is. -/
def State.KeepsCells (state after : State) : Prop :=
  ∀ (position : Nat) (content : Option TypeSet), state.cells[position]? = some content →
    after.cells[position]? = some content

namespace State.KeepsCells

variable {state between after : State}

theorem of_eq (cells : after.cells = state.cells) : state.KeepsCells after :=
  fun _ _ held => cells ▸ held

theorem trans (first : state.KeepsCells between) (second : between.KeepsCells after) :
    state.KeepsCells after :=
  fun _ _ held => second _ _ (first _ _ held)

theorem size_le (kept : state.KeepsCells after) : state.cells.size ≤ after.cells.size := by
  by_contra smaller
  have held := kept after.cells.size _ (Array.getElem?_eq_getElem (by omega))
  simp at held

end State.KeepsCells

/-! ## Bonds -/

/-- How a run goes on, and which states it may come to. -/
structure Course where
  /-- How a step goes on that has to leave the cells below a bound alone. -/
  Goes : Nat → State → State → Prop
  Admits : State → Prop
  goes_trans : ∀ {bound : Nat} {state between after : State}, Goes bound state between →
    Goes bound between after → Goes bound state after
  goes_aside : ∀ {bound : Nat} {state after : State}, state.Beside after →
    (∀ position < bound, after.cells[position]? = state.cells[position]?) →
    Goes bound state after
  proceeds : ∀ {bound : Nat} {state after : State}, Goes bound state after → state.Proceeds after
  admits : ∀ {bound : Nat} {state after : State}, Goes bound state after → Admits after →
    Admits state

/-- What the states of a run and of another one have in common, and where these may lead. -/
structure Bond extends Course where
  /-- What holds of the states of both runs, whatever their cells hold. -/
  Holds : State → State → Prop
  /-- States that the second run may come to, or that it may fail. -/
  Allows : Option State → Prop
  /-- Whether there are states that the second run may not come to. -/
  limited : Prop
  aside : ∀ {state other after otherAfter : State}, Holds state other → state.Beside after →
    other.Beside otherAfter → other.Undisturbed otherAfter → Holds after otherAfter
  allows : ∀ {bound : Nat} {state after : State}, Goes bound state after →
    Allows (some after) → Allows (some state)
  allows_of_none : ∀ {state : State}, Allows none → Allows (some state)
  allows_of_unlimited : ¬limited → ∀ state, Allows (some state)

namespace Bond

variable (bond : Bond)

/-- States of two runs with the partners that they have made so far. -/
structure Joins (world : Partners) (state other : State) : Prop where
  holds : bond.Holds state other
  count : world.count = state.cells.size
  otherCount : world.otherCount = other.cells.size
  same : ∀ {deferred partner : Deferred}, world.Alike deferred partner →
    state.cells[deferred.cell.index]? = other.cells[partner.cell.index]?
  kept : ∀ {position : Nat} {content : Option TypeSet}, world.cells[position]? = some content →
    state.cells[position]? = some content
  otherKept : ∀ {position : Nat} {content : Option TypeSet},
    world.otherCells[position]? = some content → other.cells[position]? = some content

/-- A step of one run goes on, and makes cells that are counted. -/
def Leads (base size : Partners → Nat) (world : Partners) (holds : Partners → α → Prop)
    (step : Inference α) : Prop :=
  ∀ state answer after, size world = state.cells.size → step state = .ok (answer, after) →
    bond.Goes (base world) state after ∧
      ∃ later, world ≤ later ∧ size later = after.cells.size ∧ holds later answer

/-- As long as the second run goes on, its answer is related to the one of the first. -/
def Follows (world : Partners) (related : Partners → α → α → Prop) (step other : Inference α) :
    Prop :=
  ∀ {state otherState after : State} {answer : α}, bond.Joins world state otherState →
    step state = .ok (answer, after) → bond.Admits after → bond.Allows (other.end? otherState) →
    ∃ later otherAnswer otherAfter, world ≤ later ∧
      other otherState = .ok (otherAnswer, otherAfter) ∧ bond.Joins later after otherAfter ∧
      related later answer otherAnswer

/-- Steps of two runs that keep a bond. -/
structure Tracks (world : Partners) (related : Partners → α → α → Prop)
    (step other : Inference α) : Prop where
  leads : bond.Leads (·.cells.size) Partners.count world
    (fun later answer => ∃ reply, related later answer reply) step
  otherLeads : bond.limited → bond.Leads (fun _ => 0) Partners.otherCount world
    (fun later reply => ∃ answer, related later answer reply) other
  follows : bond.Follows world related step other

variable {bond} {world : Partners} {state other after otherAfter : State}

/-- Both runs have made cells that belong to nobody. -/
theorem Joins.later (joins : bond.Joins world state other) (holds : bond.Holds after otherAfter)
    (kept : state.KeepsCells after) (otherKept : other.KeepsCells otherAfter) :
    ∃ later, world ≤ later ∧ bond.Joins later after otherAfter := by
  have more := joins.count.trans_le kept.size_le
  have otherMore := joins.otherCount.trans_le otherKept.size_le
  refine ⟨world.grow more otherMore, world.le_grow more otherMore, holds, rfl, rfl,
    fun {deferred partner} alike => ?_, fun held => kept _ _ (joins.kept held),
    fun held => otherKept _ _ (joins.otherKept held)⟩
  have within := (world.within alike).1.2
  rw [joins.count] at within
  have held := Array.getElem?_eq_getElem within
  rw [kept _ _ held, otherKept _ _ ((joins.same alike).symm.trans held)]

/-- Nothing was done to the cells. -/
theorem Joins.of_cells (joins : bond.Joins world state other) (holds : bond.Holds after otherAfter)
    (cells : after.cells = state.cells) (otherCells : otherAfter.cells = other.cells) :
    bond.Joins world after otherAfter :=
  ⟨holds, cells ▸ joins.count, otherCells ▸ joins.otherCount,
    fun alike => by rw [cells, otherCells, joins.same alike],
    fun held => cells ▸ joins.kept held, fun held => otherCells ▸ joins.otherKept held⟩

/-- What is allowed after two steps is allowed after the first, since the second only adds. -/
theorem allows_first {first : Inference α} {next : α → Inference β}
    (allows : bond.Allows ((first >>= next).end? state))
    (goes : bond.limited → ∀ reply between answer after, first state = .ok (reply, between) →
      next reply between = .ok (answer, after) → ∃ bound, bond.Goes bound between after) :
    bond.Allows (first.end? state) := by
  rw [end?_bind] at allows
  unfold end? at allows ⊢
  cases started : first state with
  | error fault =>
    rw [started] at allows
    exact allows
  | ok result =>
    rw [started] at allows
    by_contra refused
    have limited : bond.limited :=
      by_contra fun unlimited => refused (bond.allows_of_unlimited unlimited _)
    dsimp only [Except.toOption, Option.bind_some] at allows
    cases finished : next result.1 result.2 with
    | error fault =>
      rw [finished] at allows
      exact refused (bond.allows_of_none allows)
    | ok final =>
      rw [finished] at allows
      obtain ⟨_, goesOn⟩ := goes limited _ _ _ _ started finished
      exact refused (bond.allows goesOn allows)

namespace Leads

variable {base size : Partners → Nat} {holds : Partners → α → Prop}

theorem pure (holdsNow : holds world answer) : bond.Leads base size world holds (pure answer) := by
  rintro state _ _ counted ⟨⟩
  exact ⟨bond.goes_aside (.refl state) fun _ _ => rfl, world, le_rfl, counted, holdsNow⟩

theorem bind (fixed : ∀ {world later : Partners}, world ≤ later → base later = base world)
    (firstLeads : bond.Leads base size world middle first)
    (nextLeads : ∀ later answer, world ≤ later → middle later answer →
      bond.Leads base size later holds (next answer)) :
    bond.Leads base size world holds (first >>= next) := by
  intro state answer after counted succeeds
  obtain ⟨reply, between, started, finished⟩ := bind_eq_ok_iff.mp succeeds
  obtain ⟨goes, later, larger, betweenCounted, middleHolds⟩ :=
    firstLeads state reply between counted started
  obtain ⟨goesAfter, final, largest, afterCounted, finalHolds⟩ :=
    nextLeads later reply larger middleHolds between answer after betweenCounted finished
  exact ⟨bond.goes_trans goes (fixed larger ▸ goesAfter), final, larger.trans largest,
    afterCounted, finalHolds⟩

theorem claim (smaller : base world ≤ size world) (larger : world ≤ later)
    (more : size world ≤ size later) (holdsLater : holds later (answerFrom (size world)))
    (next : nextCell (size world) = size later) :
    bond.Leads base size world holds (claim answerFrom nextCell) := by
  rintro state _ _ counted ⟨⟩
  rw [counted] at smaller more holdsLater next
  refine ⟨bond.goes_aside (.cell state (by simp)) fun position below => ?_, later, larger, ?_,
    holdsLater⟩
  · rw [Array.getElem?_append_left (by omega)]
  · simp only [Array.size_append, Array.size_replicate]
    omega

theorem budgeted {holds : Partners → TypeSet → Prop} {content : Inference TypeSet}
    (leads : bond.Leads base size world holds content) (refused : holds world ∅)
    (settings : Settings) (function : FunctionId) (builtin : Bool) :
    bond.Leads base size world holds (budgeted settings function builtin content) := by
  intro state answer after counted succeeds
  rcases budgeted_cases succeeds with ⟨reason, rfl, rfl⟩ | ⟨before, contained, rfl⟩
  · exact ⟨bond.goes_aside ⟨rfl, rfl, rfl, rfl, rfl, Nat.le_refl _, Nat.le_succ _,
      fun _ member => Array.mem_push_of_mem _ member⟩ fun _ _ => rfl, world, le_rfl, counted,
      refused⟩
  · obtain ⟨goes, later⟩ := leads (state.enterBody function builtin) _ _ counted contained
    have entered : bond.Goes (base world) state (state.enterBody function builtin) :=
      bond.goes_aside (.budget state _ _) fun _ _ => rfl
    have left : bond.Goes (base world) before (before.leaveBody function) :=
      bond.goes_aside (.budget before _ _) fun _ _ => rfl
    exact ⟨bond.goes_trans entered (bond.goes_trans goes left), later⟩

end Leads

namespace Tracks

variable {step other : Inference α} {related : Partners → α → α → Prop} {answer : α}

/-! ### Sequences -/

theorem pure {other : α} (holds : related world answer other) :
    bond.Tracks world related (pure answer) (pure other) where
  leads := .pure ⟨other, holds⟩
  otherLeads _ := .pure ⟨answer, holds⟩
  follows := by
    rintro state otherState _ _ joins ⟨⟩ _ _
    exact ⟨world, other, otherState, le_rfl, rfl, joins, holds⟩

theorem throw (fault : Fault) : bond.Tracks world related (throw fault) (throw fault) where
  leads _ _ _ _ fails := by cases fails
  otherLeads _ _ _ _ _ fails := by cases fails
  follows _ fails := by cases fails

theorem bind (firstTracks : bond.Tracks world middle first firstOther)
    (nextTracks : ∀ later answer other, world ≤ later → middle later answer other →
      bond.Tracks later related (next answer) (nextOther other)) :
    bond.Tracks world related (first >>= next) (firstOther >>= nextOther) where
  leads := .bind (fun larger => congrArg Array.size larger.cells) firstTracks.leads
    fun later answer larger ⟨other, holds⟩ =>
      (nextTracks later answer other larger holds).leads
  otherLeads limited := .bind (fun _ => rfl) (firstTracks.otherLeads limited)
    fun later other larger ⟨answer, holds⟩ =>
      (nextTracks later answer other larger holds).otherLeads limited
  follows {state otherState after answer} joins succeeds admits allows := by
    obtain ⟨reply, between, started, finished⟩ := bind_eq_ok_iff.mp succeeds
    -- neither run came to a state in between that it may not come to, since the rest only adds
    have betweenAdmits : bond.Admits between := by
      obtain ⟨_, later, larger, counted, other, holds⟩ :=
        firstTracks.leads _ _ _ joins.count started
      exact bond.admits
        ((nextTracks later reply other larger holds).leads _ _ _ counted finished).1 admits
    have firstAllows : bond.Allows (firstOther.end? otherState) := by
      refine allows_first allows fun limited other _ _ _ otherStarted otherFinished => ?_
      obtain ⟨_, later, larger, counted, reply, holds⟩ :=
        firstTracks.otherLeads limited _ _ _ joins.otherCount otherStarted
      exact ⟨_, ((nextTracks later reply other larger holds).otherLeads limited _ _ _ counted
        otherFinished).1⟩
    obtain ⟨later, other, otherBetween, larger, otherStarted, betweenJoins, holds⟩ :=
      firstTracks.follows joins started betweenAdmits firstAllows
    rw [end?_bind, otherStarted] at allows
    obtain ⟨final, otherAnswer, otherAfter, largest, otherFinished, afterJoins, finalHolds⟩ :=
      (nextTracks later reply other larger holds).follows betweenJoins finished admits allows
    exact ⟨final, otherAnswer, otherAfter, larger.trans largest,
      bind_eq_ok_iff.mpr ⟨other, otherBetween, otherStarted, otherFinished⟩, afterJoins, finalHolds⟩

/-- Steps with the same answer come first. -/
theorem andThen (firstTracks : bond.Tracks world Same first firstOther)
    (nextTracks : ∀ later answer, world ≤ later →
      bond.Tracks later related (next answer) (nextOther answer)) :
    bond.Tracks world related (first >>= next) (firstOther >>= nextOther) :=
  firstTracks.bind fun later answer _ larger same => same ▸ nextTracks later answer larger

/-! ### Single steps -/

/-- Steps that go on whatever the other run does. -/
theorem of_goes
    (goes : ∀ {state after : State} {answer : α}, world.cells.size ≤ state.cells.size →
      step state = .ok (answer, after) → bond.Goes world.cells.size state after)
    (otherGoes : bond.limited → ∀ {state after : State} {answer : α},
      other state = .ok (answer, after) → bond.Goes 0 state after)
    (follows : bond.Follows world Same step other) :
    bond.Tracks world Same step other where
  leads state answer after counted succeeds := by
    have goes := goes (counted ▸ world.cells_le) succeeds
    exact ⟨goes, _, world.le_grow (counted.trans_le (bond.proceeds goes).cells) le_rfl, rfl,
      answer, rfl⟩
  otherLeads limited state answer after counted succeeds := by
    have goes := otherGoes limited succeeds
    exact ⟨goes, _, world.le_grow le_rfl (counted.trans_le (bond.proceeds goes).cells), rfl,
      answer, rfl⟩
  follows := follows

/-- Steps that are beside the point, with answers that are related in all states. -/
theorem aside {answerIn otherIn : State → α}
    (beside : ∀ state : State, ∃ after, step state = .ok (answerIn state, after) ∧
      state.Beside after ∧ after.cells = state.cells)
    (otherBeside : ∀ state : State, ∃ after, other state = .ok (otherIn state, after) ∧
      state.Beside after ∧ after.cells = state.cells ∧ state.Undisturbed after)
    (holds : ∀ state otherState, related world (answerIn state) (otherIn otherState)) :
    bond.Tracks world related step other where
  leads state answer after counted succeeds := by
    obtain ⟨_, always, beside, cells⟩ := beside state
    cases always.symm.trans succeeds
    exact ⟨bond.goes_aside beside fun _ _ => by rw [cells], world, le_rfl, cells ▸ counted, _,
      holds state state⟩
  otherLeads _ state answer after counted succeeds := by
    obtain ⟨_, always, beside, cells, _⟩ := otherBeside state
    cases always.symm.trans succeeds
    exact ⟨bond.goes_aside beside fun _ _ => by rw [cells], world, le_rfl, cells ▸ counted, _,
      holds state state⟩
  follows {state otherState after answer} joins succeeds _ _ := by
    obtain ⟨_, always, beside, cells⟩ := beside state
    cases always.symm.trans succeeds
    obtain ⟨otherAfter, goes, otherBeside, otherCells, undisturbed⟩ := otherBeside otherState
    exact ⟨world, _, otherAfter, le_rfl, goes,
      joins.of_cells (bond.aside joins.holds beside otherBeside undisturbed) cells otherCells,
      holds state otherState⟩

theorem emit (event otherEvent : Event) :
    bond.Tracks world Same (emit event) (emit otherEvent) :=
  .aside (fun state => ⟨_, rfl, .emit state event, rfl⟩)
    (fun state => ⟨_, rfl, .emit state otherEvent, rfl, rfl, rfl, rfl, rfl, rfl, rfl⟩)
    fun _ _ => rfl

/-! ### Deferred values -/

theorem claim {answerFrom otherFrom : Nat → α} {nextCell otherNext : Nat → Nat}
    (claims : ∃ later, world ≤ later ∧
      related later (answerFrom world.count) (otherFrom world.otherCount) ∧
      later.Awaits (nextCell world.count) (otherNext world.otherCount)) :
    bond.Tracks world related (claim answerFrom nextCell) (claim otherFrom otherNext) := by
  obtain ⟨later, larger, holds, next, otherNext⟩ := claims
  have more := larger.count
  have otherMore := larger.otherCount
  refine ⟨.claim world.cells_le larger more ⟨_, holds⟩ next,
    fun _ => .claim (Nat.zero_le _) larger otherMore ⟨_, holds⟩ otherNext, ?_⟩
  rintro state otherState _ _ joins ⟨⟩ _ _
  have count := joins.count
  have otherCount := joins.otherCount
  rw [count, otherCount] at holds
  rw [count] at next
  rw [otherCount] at otherNext
  refine ⟨later, _, _, larger, rfl, ⟨bond.aside joins.holds (.cell state (by simp))
    (.cell otherState (by simp)) ⟨rfl, rfl, rfl, rfl, rfl, rfl⟩, ?_, ?_,
    fun {deferred partner} alike => ?_, fun {position content} held => ?_,
    fun {position content} held => ?_⟩, holds⟩
  · simp only [Array.size_append, Array.size_replicate]
    omega
  · simp only [Array.size_append, Array.size_replicate]
    omega
  · have within := later.within alike
    rcases larger.new alike with old | new
    · have within := world.within old
      rw [Array.getElem?_append_left (by omega), Array.getElem?_append_left (by omega),
        joins.same old]
    · rw [Array.getElem?_append_right (by omega), Array.getElem?_append_right (by omega),
        Array.getElem?_replicate, Array.getElem?_replicate, if_pos (by omega), if_pos (by omega)]
  · have held := joins.kept (larger.cells ▸ held)
    rw [Array.getElem?_append_left (Array.getElem?_eq_some_iff.mp held).1, held]
  · have held := joins.otherKept (larger.otherCells ▸ held)
    rw [Array.getElem?_append_left (Array.getElem?_eq_some_iff.mp held).1, held]

section Cells

variable {deferred partner : Deferred} (alike : world.Alike deferred partner)

include alike

theorem cellAnswer? :
    bond.Tracks world Same (cellAnswer? deferred.cell) (cellAnswer? partner.cell) := by
  have looks {bound : Nat} {cell : CellId} {state after : State} {answer : Option TypeSet}
      (succeeds : Inference.cellAnswer? cell state = .ok (answer, after)) :
      bond.Goes bound state after := by
    cases succeeds
    exact bond.goes_aside (.refl _) fun _ _ => rfl
  refine of_goes (fun _ => looks) (fun _ => looks) ?_
  rintro state otherState _ _ joins ⟨⟩ _ _
  refine ⟨world, _, otherState, le_rfl, rfl, joins, ?_⟩
  show Option.join _ = Option.join _
  rw [joins.same alike]

theorem fillCell (set : TypeSet) :
    bond.Tracks world Same (fillCell deferred.cell set) (fillCell partner.cell set) := by
  have within := world.within alike
  have fills {bound : Nat} {cell : CellId} (above : bound ≤ cell.index) {state after : State}
      {answer : Unit} (succeeds : Inference.fillCell cell set state = .ok (answer, after)) :
      bond.Goes bound state after := by
    cases succeeds
    refine bond.goes_aside (.cell state (by simp)) fun position below => ?_
    rw [Array.getElem?_modify, if_neg (by omega)]
  refine of_goes (fun _ => fills within.1.1) (fun _ => fills (Nat.zero_le _)) ?_
  rintro state otherState _ _ joins ⟨⟩ _ _
  refine ⟨world, (), _, le_rfl, rfl, ⟨bond.aside joins.holds (.cell state (by simp))
    (.cell otherState (by simp)) ⟨rfl, rfl, rfl, rfl, rfl, rfl⟩, ?_, ?_,
    fun {next otherNext} nextAlike => ?_, fun {position content} held => ?_,
    fun {position content} held => ?_⟩, rfl⟩
  · simpa using joins.count
  · simpa using joins.otherCount
  · have shared := world.shared alike nextAlike
    simp only [Array.getElem?_modify, joins.same nextAlike, shared]
  · have below := (Array.getElem?_eq_some_iff.mp held).1
    rw [Array.getElem?_modify, if_neg (by omega), joins.kept held]
  · have below := (Array.getElem?_eq_some_iff.mp held).1
    rw [Array.getElem?_modify, if_neg (by omega), joins.otherKept held]

/-- Answers that are remembered in cells of partners. -/
theorem remember {compute otherCompute : Inference TypeSet}
    (computes : ∀ later, world ≤ later → bond.Tracks later Same compute otherCompute) :
    bond.Tracks world Same (Engine.remember deferred.cell compute)
      (Engine.remember partner.cell otherCompute) := by
  refine .andThen (cellAnswer? alike) fun later answer? larger => ?_
  cases answer? with
  | some answer => exact .pure rfl
  | none =>
    refine .andThen (computes later larger) fun final answer largest => ?_
    have alike := Partners.monotone_alike (larger.trans largest) _ _ alike
    exact .andThen (fillCell alike answer) fun _ _ _ => .pure rfl

end Cells

/-- Related items that are treated alike one after another. -/
theorem mapM {alike : Partners → α → α → Prop} {step other : α → Inference β}
    {items others : List α} (monotone : Monotone alike)
    (related : List.Forall₂ (alike world) items others)
    (each : ∀ item ∈ items, ∀ {later otherItem}, world ≤ later → alike later item otherItem →
      bond.Tracks later Same (step item) (other otherItem)) :
    bond.Tracks world Same (items.mapM step) (others.mapM other) := by
  induction items generalizing world others with
  | nil =>
    cases related
    exact .pure rfl
  | cons item rest ih =>
    obtain ⟨otherItem, _, itemAlike, restRelated, rfl⟩ := List.forall₂_cons_left_iff.mp related
    rw [List.forall_mem_cons] at each
    rw [List.mapM_cons, List.mapM_cons]
    refine .andThen (each.1 le_rfl itemAlike) fun later first larger => ?_
    refine .andThen (ih (restRelated.imp (monotone larger)) fun next isNext _ _ largest =>
      each.2 next isNext (larger.trans largest)) fun _ answers _ => ?_
    exact .pure rfl

theorem mapM_same {step other : α → Inference β}
    (each : ∀ world item, bond.Tracks world Same (step item) (other item)) (items : List α) :
    bond.Tracks world Same (items.mapM step) (items.mapM other) := by
  have same : List.Forall₂ ((Same : Partners → α → α → Prop) world) items items :=
    List.forall₂_same.mpr fun _ _ => rfl
  exact mapM (fun _ _ _ _ _ same => same) same fun item _ later _ _ same => same ▸ each later item

/-- Partners resolve to the same if nodes evaluate to the same. -/
theorem resolve {engine other : Engine}
    (interns : ∀ world stored, bond.Tracks world Same (intern stored) (intern stored))
    (nodes : ∀ world node, bond.Tracks world Same (engine.inferNode node) (other.inferNode node))
    {deferred partner : Deferred} (alike : world.Alike deferred partner) :
    bond.Tracks world Same (engine.resolve deferred) (other.resolve partner) := by
  induction deferred using Deferred.induction_on_parts generalizing world partner with
  | each deferred ih =>
    rw [Engine.resolve_eq, Engine.resolve_eq]
    refine .remember alike fun later larger => ?_
    obtain ⟨recipe, related⟩ := later.made (Partners.monotone_alike larger _ _ alike)
    have parts := mapM Partners.monotone_alike related fun part isPart _ _ _ => ih part isPart
    rw [← recipe]
    cases deferred.recipe with
    | infer node => exact nodes later node
    | take set => exact .pure rfl
    | unite => exact .andThen parts fun _ _ _ => .pure rfl
    | pack packed =>
      exact .andThen parts fun final _ _ => .andThen (interns final _) fun _ _ _ => .pure rfl

/-! ### Bodies -/

/-- A body of the first run that is not refused. -/
theorem budgeted {content other : Inference TypeSet}
    (tracks : bond.Tracks world Same content other)
    (whole : ∀ {state}, bond.Admits state → state.counters.refusals = 0) (settings : Settings)
    (function : FunctionId) (builtin : Bool) :
    bond.Tracks world Same (budgeted settings function builtin content) other where
  leads := tracks.leads.budgeted ⟨∅, rfl⟩ settings function builtin
  otherLeads := tracks.otherLeads
  follows {state otherState after answer} joins succeeds admits allows := by
    rcases budgeted_cases succeeds with ⟨reason, _, rfl⟩ | ⟨before, contained, rfl⟩
    · cases whole admits
    · have entered : bond.Joins world (state.enterBody function builtin) otherState :=
        joins.of_cells (bond.aside joins.holds (.budget state _ _) (.refl _) (.refl _)) rfl rfl
      have left : before.Beside (before.leaveBody function) := .budget before _ _
      obtain ⟨later, otherAnswer, otherAfter, larger, goes, beforeJoins, same⟩ :=
        tracks.follows entered contained
          (bond.admits (bond.goes_aside left fun _ _ => rfl : bond.Goes 0 _ _) admits) allows
      exact ⟨later, otherAnswer, otherAfter, larger, goes,
        beforeJoins.of_cells (bond.aside beforeJoins.holds left (.refl _) (.refl _)) rfl rfl, same⟩

end Tracks

end Bond

end TypeInference
