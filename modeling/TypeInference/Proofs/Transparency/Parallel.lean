import TypeInference.Proofs.Transparency.Upkeep

/-!
# Two requests side by side

Two requests over one tree, whose caches can be trusted and agree on all that is not settled,
give the same answers.  What is settled is answered by what it comes to in either request,
whatever its caches hold; everything else is computed, remembered and cut short alike.
-/

namespace TypeInference

open Inference

variable {α β : Type}

/-- Tables that agree on a key go on to do so. -/
theorem Table.get?_insert_congr [DecidableEq κ] {table earlier : Table κ ν}
    (agree : table.get? other = earlier.get? other) (key : κ) (value : ν) :
    (table.insert key value).get? other = (earlier.insert key value).get? other := by
  by_cases same : other = key
  · rw [same, get?_insert_self, get?_insert_self]
  · rw [get?_insert_of_ne _ same, get?_insert_of_ne _ same, agree]

namespace Scene

/-! ## What two requests have in common -/

/-- States of two requests whose caches can be trusted and agree on what is not settled. -/
structure Alike (scene : Scene) (state other : State) : Prop where
  trusts : scene.Trusts state
  otherTrusts : scene.Trusts other
  spares : scene.Spares state other

/-- The same is being computed in both requests, and nothing of it is settled. -/
structure Agrees (scene : Scene) (state other : State) : Prop extends scene.Alike state other where
  idles : scene.Idles state
  otherIdles : scene.Idles other
  nodeGuard : other.nodeGuard = state.nodeGuard

variable {scene : Scene} {state other after otherAfter : State} {node : NodeId}

theorem Alike.of_same (alike : scene.Alike state other) (hints : after.hints = state.hints)
    (subscripts : after.subscripts = state.subscripts) (returns : after.returns = state.returns)
    (otherHints : otherAfter.hints = other.hints)
    (otherSubscripts : otherAfter.subscripts = other.subscripts)
    (otherReturns : otherAfter.returns = other.returns) :
    scene.Alike after otherAfter :=
  ⟨alike.trusts.of_same hints subscripts returns,
    alike.otherTrusts.of_same otherHints otherSubscripts otherReturns,
    ((Spares.of_same hints subscripts returns).symm.trans alike.spares).trans
      (.of_same otherHints otherSubscripts otherReturns)⟩

/-- What is being computed is the same after a step. -/
theorem Agrees.step (agrees : scene.Agrees state other) (proceeds : state.Proceeds after)
    (otherProceeds : other.Proceeds otherAfter) (alike : scene.Alike after otherAfter) :
    scene.Agrees after otherAfter :=
  ⟨alike, agrees.idles.of_proceeds proceeds, agrees.otherIdles.of_proceeds otherProceeds,
    otherProceeds.nodeGuard.trans (agrees.nodeGuard.trans proceeds.nodeGuard.symm)⟩

theorem Agrees.aside (agrees : scene.Agrees state other) (beside : state.Beside after)
    (otherBeside : other.Beside otherAfter) : scene.Agrees after otherAfter :=
  agrees.step (.of_beside beside) (.of_beside otherBeside)
    (agrees.of_same beside.hints beside.subscripts beside.returns otherBeside.hints
      otherBeside.subscripts otherBeside.returns)

/-- The bond of two requests that agree and refuse nothing. -/
def parallel (scene : Scene) : Bond where
  toCourse := scene.course
  Holds := scene.Agrees
  Allows after? := ∃ after, after? = some after ∧ scene.Admits after
  limited := True
  aside agrees beside otherBeside _ := agrees.aside beside otherBeside
  allows := by
    rintro _ state after proceeds ⟨_, ⟨⟩, admits⟩
    exact ⟨state, rfl, admits.of_proceeds proceeds⟩
  allows_of_none := by rintro _ ⟨_, ⟨⟩, _⟩
  allows_of_unlimited unlimited := absurd trivial unlimited

/-! ## Operations that both requests complete -/

/-- Steps that both requests have completed. -/
structure Complete (scene : Scene) {α : Type} (step otherStep : Inference α)
    (state other after otherAfter : State) (answer otherAnswer : α) : Prop where
  succeeds : step state = .ok (answer, after)
  admits : scene.Admits after
  proceeds : state.Proceeds after
  goes : otherStep other = .ok (otherAnswer, otherAfter)
  otherAdmits : scene.Admits otherAfter
  otherProceeds : other.Proceeds otherAfter

variable {world : Partners} {step otherStep : Inference α} {operation : Operation α}
  {answer otherAnswer : α} {fuel more : Nat}

/-- Both requests have the same answer, and go on to agree. -/
def Meets (scene : Scene) {α : Type} (world : Partners) (answer otherAnswer : α)
    (after otherAfter : State) : Prop :=
  answer = otherAnswer ∧ ∃ later, world ≤ later ∧ scene.parallel.Joins later after otherAfter

/-- Both requests have done something beside the point. -/
theorem meets_aside (joins : scene.parallel.Joins world state other) (beside : state.Beside after)
    (otherBeside : other.Beside otherAfter) (cells : after.cells = state.cells)
    (otherCells : otherAfter.cells = other.cells) (answer : α) :
    scene.Meets world answer answer after otherAfter :=
  ⟨rfl, world, le_rfl,
    joins.of_cells (Agrees.aside joins.holds beside otherBeside) cells otherCells⟩

theorem meets_of_tracks (tracks : scene.parallel.Tracks world Same step otherStep)
    (joins : scene.parallel.Joins world state other) (succeeds : step state = .ok (answer, after))
    (admits : scene.Admits after) (goes : otherStep other = .ok (otherAnswer, otherAfter))
    (otherAdmits : scene.Admits otherAfter) :
    scene.Meets world answer otherAnswer after otherAfter := by
  obtain ⟨later, _, _, larger, again, afterJoins, same⟩ :=
    tracks.follows joins succeeds admits ⟨otherAfter, by rw [end?, goes]; rfl, otherAdmits⟩
  cases goes.symm.trans again
  exact ⟨same, later, larger, afterJoins⟩

/-- An operation is answered alike if it is settled, or else if both requests meet. -/
theorem parallel_perform_of_loose (fuel more : Nat) (operation : Operation α)
    (repeatable : operation.isRepeatable = true)
    (meets : scene.IsLoose operation → ∀ {state other after otherAfter answer otherAnswer},
      scene.parallel.Joins world state other →
      scene.Complete ((scene.environment.stage fuel).perform operation)
        ((scene.environment.stage more).perform operation) state other after otherAfter answer
        otherAnswer →
      scene.Meets world answer otherAnswer after otherAfter) :
    scene.parallel.Tracks world Same ((scene.environment.stage fuel).perform operation)
      ((scene.environment.stage more).perform operation) := by
  have proceeds (fuel : Nat) := scene.environment.proceeds_perform fuel operation
  refine .of_goes (fun _ => proceeds fuel _ _ _) (fun _ => proceeds more _ _ _) ?_
  rintro state other after answer joins succeeds admits ⟨otherAfter, ends, otherAdmits⟩
  obtain ⟨otherAnswer, goes⟩ := exists_of_end? ends
  have goesOn := proceeds fuel _ _ _ succeeds
  have otherGoesOn := proceeds more _ _ _ goes
  have met : scene.Meets world answer otherAnswer after otherAfter := by
    by_cases loose : scene.IsLoose operation
    · exact meets loose joins ⟨succeeds, admits, goesOn, goes, otherAdmits, otherGoesOn⟩
    · have agrees : scene.Agrees state other := joins.holds
      have confirms (fuel : Nat) := Environment.confirms_stage scene fuel operation repeatable
      obtain ⟨settles, leaves⟩ := confirms fuel _ _ _ agrees.trusts succeeds admits
        (hoped_of_not_loose (.inr agrees.idles) loose)
      obtain ⟨otherSettles, otherLeaves⟩ := confirms more _ _ _ agrees.otherTrusts goes otherAdmits
        (hoped_of_not_loose (.inr agrees.otherIdles) loose)
      exact ⟨settles.unique otherSettles, joins.later
        (agrees.step goesOn otherGoesOn ⟨leaves.trusts, otherLeaves.trusts,
          (leaves.spares.symm.trans agrees.spares).trans otherLeaves.spares⟩)
        leaves.cells otherLeaves.cells⟩
  obtain ⟨same, later, larger, afterJoins⟩ := met
  exact ⟨later, otherAnswer, otherAfter, larger, goes, afterJoins, same⟩

/-- What both requests do between one change and another. -/
theorem Complete.within {content otherContent : Inference β} (enter : State → State)
    (leave : β → State → State) (answerOf : β → α)
    (complete : scene.Complete step otherStep state other after otherAfter answer otherAnswer)
    (joins : scene.parallel.Joins world state other)
    (contents : scene.parallel.Tracks world Same content otherContent)
    (steps : step state =
      (content (enter state)).map fun result => (answerOf result.1, leave result.1 result.2))
    (otherSteps : otherStep other =
      (otherContent (enter other)).map fun result => (answerOf result.1, leave result.1 result.2))
    (entered : scene.Agrees (enter state) (enter other))
    (cells : ∀ reply state, (enter state).cells = state.cells ∧
      (leave reply state).cells = state.cells)
    (admits : ∀ {reply state}, scene.Admits (leave reply state) → scene.Admits state)
    (left : ∀ {reply state other}, scene.Alike state other →
      scene.Alike (leave reply state) (leave reply other)) :
    scene.Meets world answer otherAnswer after otherAfter := by
  obtain ⟨succeeds, afterAdmits, proceeds, goes, otherAdmits, otherProceeds⟩ := complete
  rw [steps] at succeeds
  rw [otherSteps] at goes
  obtain ⟨⟨reply, before⟩, contained, ⟨⟩⟩ := Except.map_eq_ok_iff.mp succeeds
  obtain ⟨⟨otherReply, otherBefore⟩, otherContained, ⟨⟩⟩ := Except.map_eq_ok_iff.mp goes
  obtain ⟨rfl, later, larger, beforeJoins⟩ := meets_of_tracks contents
    (joins.of_cells entered (cells reply _).1 (cells reply _).1) contained (admits afterAdmits)
    otherContained (admits otherAdmits)
  have agrees : scene.Agrees before otherBefore := beforeJoins.holds
  have holds : scene.Agrees _ _ :=
    Agrees.step joins.holds proceeds otherProceeds (left agrees.toAlike)
  exact ⟨rfl, later, larger, beforeJoins.of_cells holds (cells reply _).2 (cells reply _).2⟩

/-! ## Values -/

theorem parallel_value (world : Partners) (id : ValueId) :
    scene.parallel.Tracks world Same (value id) (value id) := by
  refine parallel_perform_of_loose 0 0 (.value id) rfl fun _ {_ _ _ _ _ _} joins complete => ?_
  obtain ⟨found, rfl⟩ := value_eq_ok_iff.mp complete.succeeds
  obtain ⟨otherFound, rfl⟩ := value_eq_ok_iff.mp complete.goes
  have same := (complete.admits.covers.value found).symm.trans
    (complete.otherAdmits.covers.value otherFound)
  exact ⟨Option.some.inj same, world, le_rfl, joins⟩

theorem parallel_intern (world : Partners) (stored : Value) :
    scene.parallel.Tracks world Same (intern stored) (intern stored) := by
  refine parallel_perform_of_loose 0 0 (.intern stored) rfl
    fun _ {state other _ _ _ _} joins complete => ?_
  obtain ⟨⟨⟩, admits, proceeds, ⟨⟩, otherAdmits, otherProceeds⟩ := complete
  have agrees : scene.Agrees state other := joins.holds
  have found := admits.covers.interned (Arena.find?_intern state.arena stored)
  have otherFound := otherAdmits.covers.interned (Arena.find?_intern other.arena stored)
  exact ⟨Option.some.inj (found.symm.trans otherFound), world, le_rfl, joins.of_cells
    (agrees.step proceeds otherProceeds (agrees.of_same rfl rfl rfl rfl rfl rfl)) rfl rfl⟩

/-! ## Caches, guards and budgets -/

/-- Answers that are looked up, where the caches agree. -/
theorem Complete.cached {find otherFind : Inference β} {known? : State → Option α}
    {answerOf : β → α} {noted : β → State → State}
    (complete : scene.Complete step otherStep state other after otherAfter answer otherAnswer)
    (joins : scene.parallel.Joins world state other)
    (finds : scene.parallel.Tracks world Same find otherFind)
    (caches : step.Caches known? find answerOf noted)
    (otherCaches : otherStep.Caches known? otherFind answerOf noted)
    (agree : known? other = known? state)
    (cells : ∀ reply state, (noted reply state).cells = state.cells)
    (admits : ∀ {reply state}, scene.Admits (noted reply state) → scene.Admits state)
    (notes : ∀ {reply state other}, scene.Alike state other →
      scene.Alike (noted reply state) (noted reply other)) :
    scene.Meets world answer otherAnswer after otherAfter := by
  cases recalled : known? state with
  | some present =>
    cases (caches.known recalled).symm.trans complete.succeeds
    cases (otherCaches.known (agree.trans recalled)).symm.trans complete.goes
    exact ⟨rfl, world, le_rfl, joins⟩
  | none =>
    exact complete.within id noted answerOf joins finds (caches.unknown recalled)
      (otherCaches.unknown (agree.trans recalled)) joins.holds
      (fun reply state => ⟨rfl, cells reply state⟩) admits notes

/-- Bodies that neither request refuses. -/
theorem parallel_budgeted {content otherContent : Inference TypeSet} (settings : Settings)
    (function : FunctionId) (builtin : Bool)
    (contents : scene.parallel.Tracks world Same content otherContent) :
    scene.parallel.Tracks world Same (budgeted settings function builtin content)
      (budgeted settings function builtin otherContent) := by
  refine .budgeted ⟨contents.leads,
    fun limited => (contents.otherLeads limited).budgeted ⟨∅, rfl⟩ _ _ _, ?_⟩
    (fun admits => admits.refusals) _ _ _
  rintro state other after answer joins succeeds admits ⟨otherAfter, ends, otherAdmits⟩
  obtain ⟨otherAnswer, goes⟩ := exists_of_end? ends
  obtain ⟨reason, _, rfl⟩ | ⟨before, contained, rfl⟩ := budgeted_cases goes
  · cases otherAdmits.refusals
  · have entered : scene.parallel.Joins world state (other.enterBody function builtin) :=
      joins.of_cells (Agrees.aside joins.holds (.refl _) (.budget other _ _)) rfl rfl
    obtain ⟨same, later, larger, afterJoins⟩ := meets_of_tracks contents entered succeeds admits
      contained ⟨otherAdmits.covers, otherAdmits.refusals, otherAdmits.whole⟩
    exact ⟨later, _, _, larger, goes, afterJoins.of_cells
      (Agrees.aside afterJoins.holds (.refl _) (.budget before _ _)) rfl rfl, same⟩

/-! ## Engines -/

section Engines

variable (asks : scene.parallel.Asks scene.tree (scene.environment.stage fuel)
  (scene.environment.stage more).ask)

include asks

theorem parallel_readHint (world : Partners) (node : NodeId) :
    scene.parallel.Tracks world Same ((scene.environment.stage fuel).readHint node)
      ((scene.environment.stage more).readHint node) := by
  refine parallel_perform_of_loose fuel more (.readHint node) rfl
    fun loose {state other _ _ _ _} joins complete => ?_
  have agrees : scene.Agrees state other := joins.holds
  exact complete.cached joins (asks.evaluateHint world node) (Engine.caches_readHint _ node)
    (Engine.caches_readHint _ node) (agrees.spares.hint loose.2) (fun _ _ => rfl)
    (fun admits => ⟨admits.covers, admits.refusals, admits.whole⟩) fun {set _ _} alike =>
      ⟨alike.trusts.noteHint (loose.vouches set), alike.otherTrusts.noteHint (loose.vouches set),
        fun open_ => Table.get?_insert_congr (alike.spares.hint open_) _ _,
        alike.spares.subscript, alike.spares.call⟩

theorem parallel_typeArguments (world : Partners) (generics : Generics) :
    scene.parallel.Tracks world Same ((scene.environment.stage fuel).typeArguments generics)
      ((scene.environment.stage more).typeArguments generics) := by
  cases generics with
  | resolved arguments => exact .pure rfl
  | lazy node =>
    refine parallel_perform_of_loose fuel more (.typeArguments (.lazy node)) rfl
      fun loose {state other _ _ _ _} joins complete => ?_
    have agrees : scene.Agrees state other := joins.holds
    refine complete.cached joins (.mapM_same (parallel_readHint asks) _)
      (Engine.caches_typeArguments _ node) (Engine.caches_typeArguments _ node)
      (agrees.spares.subscript loose.2) (fun _ _ => rfl)
      (fun admits => admits.of_proceeds
        ((State.Proceeds.of_beside (.emit _ _)).trans (.note _ _ _))) fun {slots _ _} alike => ?_
    have vouches := loose.vouches (TypeArguments.ofSubscript slots)
    exact ⟨(alike.trusts.noteSubscript vouches).of_same rfl rfl rfl,
      (alike.otherTrusts.noteSubscript vouches).of_same rfl rfl rfl, alike.spares.hint,
      fun open_ => Table.get?_insert_congr (alike.spares.subscript open_) _ _, alike.spares.call⟩

theorem parallel_suits : scene.parallel.Suits scene.tree (scene.environment.stage fuel)
    (scene.environment.stage more).ask :=
  { asks with hints := parallel_readHint asks, subscripts := parallel_typeArguments asks }

theorem parallel_inferNodeOnce (world : Partners) (node : NodeId) :
    scene.parallel.Tracks world Same ((scene.environment.stage fuel).inferNodeOnce node)
      ((scene.environment.stage more).inferNodeOnce node) := by
  refine parallel_perform_of_loose fuel more (.inferNode node) rfl
    fun loose {state other _ _ _ _} joins complete => ?_
  have agrees : scene.Agrees state other := joins.holds
  by_cases active : node ∈ state.nodeGuard.active
  · cases (guarded_of_active active _).symm.trans complete.succeeds
    cases (guarded_of_active (agrees.nodeGuard ▸ active) _).symm.trans complete.goes
    have cut (state : State) : state.Beside
        { state.askNode with events := state.events.push (.nodeRecursion node) } :=
      ⟨rfl, rfl, rfl, rfl, rfl, Nat.le_refl _, Nat.le_refl _,
        fun _ member => Array.mem_push_of_mem _ member⟩
    exact meets_aside joins (cut state) (cut other) rfl rfl ∅
  · have together : (scene.environment.provider.inferNode node).Matches world.Alike
        (scene.environment.provider.inferNode node) := by
      rw [scene.provider]
      exact scene.tree.together_nodeProgram node
    refine complete.within (fun state => state.askNode.enterNode node) (fun _ => State.leaveNode) id
      joins (asks.run together le_rfl) (guarded_of_not_active active _)
      (guarded_of_not_active (agrees.nodeGuard ▸ active) _) ⟨agrees.of_same rfl rfl rfl rfl rfl rfl,
        agrees.idles.inside loose (state.pending_enterNode node),
        agrees.otherIdles.inside loose (other.pending_enterNode node), ?_⟩ (fun _ _ => ⟨rfl, rfl⟩)
      (fun admits => ⟨admits.covers, admits.refusals, admits.whole⟩)
      fun alike => alike.of_same rfl rfl rfl rfl rfl rfl
    exact congrArg (fun guard : NodeGuard => NodeGuard.mk (node :: guard.active)) agrees.nodeGuard

theorem parallel_returnType (world : Partners) (function : FunctionId) (arguments : Arguments) :
    scene.parallel.Tracks world Same ((scene.environment.stage fuel).returnType function arguments)
      ((scene.environment.stage more).returnType function arguments) := by
  have suits := parallel_suits asks
  refine parallel_perform_of_loose fuel more (.returnType function arguments) rfl
    fun loose {state other after otherAfter answer otherAnswer} joins complete => ?_
  have agrees : scene.Agrees state other := joins.holds
  have steps (fuel : Nat) (state : State) :
      (scene.environment.stage fuel).perform (.returnType function arguments) state = _ :=
    (congrFun (Engine.returnType_eq_remembered _ function arguments) state).trans
      (remembered_eq ..)
  have same := agrees.spares.call loose.2
  cases known : state.returns.get? ⟨function, arguments⟩ with
  | some progress =>
    obtain ⟨succeeds, admits, _, goes, otherAdmits, _⟩ := complete
    rw [steps] at succeeds goes
    rw [known] at succeeds same
    rw [same] at goes
    cases progress with
    | finished result =>
      cases succeeds
      cases goes
      have hit (state : State) : state.Beside { state with
          counters.memoHits := state.counters.memoHits + 1 } :=
        .count state (Nat.le_refl _)
      exact meets_aside joins (hit state) (hit other) rfl rfl _
    | running =>
      exact meets_of_tracks (suits.pairing.fits_recursiveReturn function world) joins succeeds
        admits goes otherAdmits
  | none =>
    have noted {state other : State} (alike : scene.Alike state other) (progress : Progress)
        {called : FunctionId} {given : Arguments}
        (open_ : ¬scene.IsSettled (.returnType called given)) :=
      Table.get?_insert_congr (alike.spares.call open_) (Invocation.mk function arguments) progress
    exact complete.within (State.startCall · ⟨function, arguments⟩)
      (fun result state => state.finishCall ⟨function, arguments⟩ result) id joins
      (suits.fits_declaredReturn parallel_budgeted function arguments world)
      (by rw [steps, known]; rfl) (by rw [steps, same, known]; rfl)
      ⟨⟨agrees.trusts.startCall _, agrees.otherTrusts.startCall _, agrees.spares.hint,
          agrees.spares.subscript, noted agrees.toAlike .running⟩,
        agrees.idles.inside loose (state.pending_startCall function arguments),
        agrees.otherIdles.inside loose (other.pending_startCall function arguments),
        agrees.nodeGuard⟩ (fun _ _ => ⟨rfl, rfl⟩)
      (fun admits => ⟨admits.covers, admits.refusals, admits.whole⟩) fun {result _ _} alike =>
        ⟨alike.trusts.finishCall (loose.vouches result),
          alike.otherTrusts.finishCall (loose.vouches result), alike.spares.hint,
          alike.spares.subscript, noted alike (.finished result)⟩

/-- Operations without deferred values are answered alike if what they ask for is. -/
theorem parallel_perform (repeatable : operation.isRepeatable = true) (world : Partners) :
    scene.parallel.Tracks world Same ((scene.environment.stage fuel).perform operation)
      ((scene.environment.stage more).perform operation) :=
  Pairing.fits_perform (parallel_suits asks).discarding
    (fun function arguments world => parallel_returnType asks world function arguments)
    (fun node world => parallel_inferNodeOnce asks world node) operation repeatable world

end Engines

/-- Whatever their fuel, the engines of two requests answer alike. -/
theorem parallel_asks (scene : Scene) (fuel more : Nat) :
    scene.parallel.Asks scene.tree (scene.environment.stage fuel)
      (scene.environment.stage more).ask := by
  have proceeds (fuel : Nat) {α : Type} (operation : Operation α) :=
    (scene.environment.abides_proceeds fuel).asks operation
  -- an engine without fuel answers nothing
  have exhausted {α : Type} {fuel more : Nat} {operation : Operation α} {world : Partners}
      (empty : fuel = 0 ∨ more = 0) {other : Operation α} :
      scene.parallel.Tracks world Same ((scene.environment.stage fuel).ask operation)
        ((scene.environment.stage more).ask other) := by
    refine .of_goes (fun _ => proceeds fuel _ _ _ _) (fun _ => proceeds more _ _ _ _) ?_
    rintro _ _ _ _ _ succeeds _ ⟨_, ends, _⟩
    rcases empty with rfl | rfl
    · cases succeeds
    · cases ends
  induction fuel generalizing more with
  | zero => exact ⟨scene.named, parallel_value, parallel_intern,
      fun _ _ => exhausted (.inl rfl), fun _ => exhausted (.inl rfl)⟩
  | succ fuel ih =>
    cases more with
    | zero => exact ⟨scene.named, parallel_value, parallel_intern,
        fun _ _ => exhausted (.inr rfl), fun _ => exhausted (.inr rfl)⟩
    | succ more =>
      refine ⟨scene.named, parallel_value, parallel_intern, fun world repeatable => ?_,
        fun alike => ?_⟩
      · rw [scene.environment.ask_stage_succ, scene.environment.ask_stage_succ]
        exact parallel_perform (ih more) repeatable world
      · rw [scene.environment.ask_stage_succ, scene.environment.ask_stage_succ]
        exact .resolve parallel_intern (fun world _ => (ih more).asks world rfl) alike

end Scene

end TypeInference
