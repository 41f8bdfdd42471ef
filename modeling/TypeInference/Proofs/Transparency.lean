import TypeInference.Proofs.Transparency.Parallel

/-!
# What was asked before does not matter

The caches of a request hold what was returned at some moment, which may be less than what
an operation comes to: a node that is reached again while it is being inferred answers
nothing, and what was found on the way is remembered.  Where that does not happen, caches
are transparent: an operation is answered as by a fresh request over the same arena.
-/

namespace TypeInference

open Inference

variable {α β : Type} {env : Environment} {history : Program β} {operation : Operation α}
  {fuel : Nat}

/-- Whatever a request runs conserves what its engines abide by. -/
theorem Environment.conserves_run (conserved : Conserved relation) (fuel : Nat)
    (abides : (env.stage fuel).Abides relation) (program : Program α) :
    Conserves relation (env.run fuel program) := by
  refine conserved.run (fun operation => ?_) program
  rw [Environment.answer, ← env.stage_eq_engine]
  exact abides.conserves_perform conserved operation

namespace Scene

variable (scene : Scene)

theorem pending_start (arena : Arena) : (scene.environment.start arena).pending = ∅ := by
  refine Set.eq_empty_of_forall_notMem fun question => ?_
  rintro (⟨_, active, _⟩ | ⟨_, _, running, _⟩)
  · cases active
  · cases running

theorem idles_start (arena : Arena) : scene.Idles (scene.environment.start arena) := by
  intro question member
  rw [scene.pending_start] at member
  cases member

/-- Empty caches can be trusted. -/
theorem trusts_start (arena : Arena) : scene.Trusts (scene.environment.start arena) :=
  ⟨(by cases ·), (by cases ·), (by cases ·)⟩

variable {arena : Arena} {reply : β} {state after : State} {answer : α}

/-- After any history, caches can be trusted. -/
theorem upholds_run (reached : scene.environment.run spent history (scene.environment.start arena) =
      .ok (reply, state)) :
    scene.Upholds (scene.environment.start arena) state :=
  Environment.conserves_run scene.upholds_conserved spent (scene.abides_upholds spent) history
    _ _ _ reached

/-- After any history, what is settled is answered by what it comes to. -/
theorem settles_answer
    (reached : scene.environment.run spent history (scene.environment.start arena) =
      .ok (reply, state))
    (repeatable : operation.isRepeatable = true)
    (answered : (scene.environment.stage fuel).perform operation state = .ok (answer, after))
    (admits : scene.Admits after)
    (hoped : scene.strict ∨ ∃ settled, scene.Settles ∅ operation settled) :
    scene.Settles ∅ operation answer := by
  have upholds := scene.upholds_run reached
  have proceeds := scene.environment.proceeds_perform fuel operation _ _ _ answered
  have trusts := upholds.upholds (.inr (scene.idles_start arena)) (admits.of_proceeds proceeds)
    (scene.trusts_start arena)
  have pending := upholds.proceeds.pending.trans (scene.pending_start arena)
  exact (Environment.confirms_stage scene fuel operation repeatable _ _ _ trusts answered admits
    (pending ▸ hoped)).1

/-- After a history in which nothing was cut short, caches hold nothing but what is settled. -/
theorem agrees_start (strict : scene.strict)
    (reached : scene.environment.run spent history (scene.environment.start arena) =
      .ok (reply, state))
    (admits : scene.Admits state) (fresh : Arena) :
    { scene with strict := False }.Agrees state (scene.environment.start fresh) := by
  have upholds := scene.upholds_run reached
  have trusts := upholds.upholds (.inl strict) admits (scene.trusts_start arena)
  have pending := upholds.proceeds.pending.trans (scene.pending_start arena)
  have loosened : { scene with strict := False }.Trusts state :=
    ⟨fun known => ⟨False.elim, (trusts.hint known).2⟩,
      fun known => ⟨False.elim, (trusts.subscript known).2⟩,
      fun known => ⟨False.elim, (trusts.finished known).2⟩⟩
  refine ⟨⟨loosened, trusts_start _ fresh, fun {node} loose => ?_, fun {node} loose => ?_,
    fun {function arguments} loose => ?_⟩, (scene.idles_start arena).of_proceeds upholds.proceeds,
    scene.idles_start fresh, upholds.proceeds.nodeGuard.symm⟩
  · cases known : state.hints.get? node with
    | none => rfl
    | some set => exact absurd ⟨set, (trusts.hint known).1 strict⟩ loose
  · cases known : state.subscripts.get? node with
    | none => rfl
    | some arguments => exact absurd ⟨arguments, (trusts.subscript known).1 strict⟩ loose
  · cases known : state.returns.get? ⟨function, arguments⟩ with
    | none => rfl
    | some progress =>
      cases progress with
      | running =>
        have member := State.returnType_mem_pending.mpr known
        rw [pending] at member
        cases member
      | finished result => exact absurd ⟨result, (trusts.finished known).1 strict⟩ loose

/-- Requests that agree give the same answer. -/
theorem answers_alike {other otherAfter : State} {otherAnswer : α}
    (agrees : scene.Agrees state other) (repeatable : operation.isRepeatable = true)
    (answered : (scene.environment.stage fuel).perform operation state = .ok (answer, after))
    (otherAnswered : (scene.environment.stage more).perform operation other =
      .ok (otherAnswer, otherAfter))
    (admits : scene.Admits after) (otherAdmits : scene.Admits otherAfter) :
    answer = otherAnswer :=
  (meets_of_tracks (parallel_perform (scene.parallel_asks fuel more) repeatable
      (.none state.cells other.cells))
    ⟨agrees, rfl, rfl, False.elim, id, id⟩ answered admits otherAnswered otherAdmits).1

end Scene

/--
Over a tree of expressions, whatever a request was asked for before, an operation that
carries no deferred values is answered as by a fresh request over the same arena, unless
bodies were refused, or nodes or calls were cut short both before and in the fresh request.
-/
theorem answers_as_a_fresh_request
    {environment : Environment}
    {tree : Tree}
    (provider : environment.provider = tree.provider)
    {arena : Arena}
    {spent : Nat}
    {β : Type}
    {history : Program β}
    {reply : β}
    {state : State}
    (reached : environment.run spent history (environment.start arena) = .ok (reply, state))
    {α : Type}
    {operation : Operation α}
    (repeatable : operation.isRepeatable = true)
    {fuel more : Nat}
    {answer freshAnswer : α}
    {after fresh : State}
    (answered : environment.answer fuel operation state = .ok (answer, after))
    (answeredFresh : environment.answer more operation (environment.start after.arena) =
      .ok (freshAnswer, fresh))
    (admitted : after.counters.refusals = 0 ∧ fresh.counters.refusals = 0)
    (whole : (∀ event ∈ state.events, event.cutsShort = false) ∨
      ∀ event ∈ fresh.events, event.cutsShort = false) :
    answer = freshAnswer := by
  -- both requests are compared in the arena that the fresh one ends with
  let scene (strict : Prop) : Scene := ⟨environment, tree, provider, fresh.arena, strict⟩
  rw [Environment.answer, ← environment.stage_eq_engine] at answered answeredFresh
  have proceeds := environment.proceeds_perform fuel operation _ _ _ answered
  have covers := (environment.proceeds_perform more operation _ _ _ answeredFresh).arena
  have admits : (scene False).Admits after := ⟨covers, admitted.1, False.elim⟩
  rcases whole with whole | whole
  · have before := admits.of_proceeds proceeds
    have agrees : (scene False).Agrees state (environment.start after.arena) :=
      (scene True).agrees_start trivial reached ⟨before.covers, before.refusals, fun _ => whole⟩ _
    exact (scene False).answers_alike agrees repeatable answered answeredFresh admits
      ⟨.refl _, admitted.2, False.elim⟩
  · have nothing : environment.run 0 (.done ()) (environment.start after.arena) =
        .ok ((), environment.start after.arena) := rfl
    have freshSettles : (scene True).Settles ∅ operation freshAnswer :=
      (scene True).settles_answer nothing repeatable answeredFresh
        ⟨.refl _, admitted.2, fun _ => whole⟩ (.inl trivial)
    have settles : (scene False).Settles ∅ operation answer :=
      (scene False).settles_answer reached repeatable answered admits
        (.inr ⟨freshAnswer, freshSettles⟩)
    exact settles.unique freshSettles

/-! ## Annotations that refer to each other -/

/--
What a history leaves, an operation that is performed after it, and the same operation performed
by a fresh request.
-/
def Environment.afresh (environment : Environment) (fuel : Nat) {α β : Type} (history : Program β)
    (operation : Operation α) : Option (State × (α × State) × α × State) := do
  let reached ← (environment.run fuel history (environment.start .initial)).toOption
  let answered ← (environment.answer fuel operation reached.2).toOption
  let fresh ← (environment.answer fuel operation (environment.start answered.2.arena)).toOption
  return (reached.2, answered, fresh)

theorem Environment.exists_of_afresh
    (performed : env.afresh fuel history operation = some (state, answered, fresh)) :
    ∃ reply,
      env.run fuel history (env.start .initial) = .ok (reply, state) ∧
      env.answer fuel operation state = .ok answered ∧
      env.answer fuel operation (env.start answered.2.arena) = .ok fresh := by
  unfold afresh at performed
  simp only [bind, Option.bind_eq_some_iff] at performed
  obtain ⟨⟨reply, _⟩, reached, _, isAnswered, _, isFresh, same⟩ := performed
  cases same
  exact ⟨reply, Except.eq_ok_of_toOption reached, Except.eq_ok_of_toOption isAnswered,
    Except.eq_ok_of_toOption isFresh⟩

/-- Two annotations that refer to each other, and a subscript of two others. -/
def Tree.entangled : Tree where
  nodes := #[
    .computed (.union [.set (.listed [.classObject Builtin.str]), .hint ⟨1⟩]),
    .computed (.union [.set (.listed [.classObject Builtin.int]), .node ⟨0⟩]),
    .computed (.union [.set (.listed [.classObject Builtin.bool]), .hint ⟨3⟩]),
    .computed (.set (.listed [.literal "Flag"])),
    .computed (.set (.listed [.classObject Builtin.bytes])),
    .fixed ∅]
  subscripts := ⟨[(⟨5⟩, [⟨2⟩, ⟨3⟩])]⟩
  references := ⟨[("Flag", ⟨4⟩)]⟩

def Environment.entangled : Environment where
  declarations := {}
  provider := Tree.entangled.provider

/--
While the first annotation is read, the second one is found to be less than what it comes
to, and that is what is answered for it from then on.
-/
theorem provisional_answer_is_remembered :
    ∃ reply state after fresh,
      Environment.entangled.run 5 (.perform (.readHint ⟨0⟩))
        (Environment.entangled.start .initial) = .ok (reply, state) ∧
      Environment.entangled.answer 5 (.readHint ⟨1⟩) state = .ok (.singleton ⟨4⟩, after) ∧
      Environment.entangled.answer 5 (.readHint ⟨1⟩) (Environment.entangled.start after.arena) =
        .ok (.singleton ⟨3⟩ ∪ .singleton ⟨4⟩, fresh) := by
  have outcome : ((Environment.entangled.afresh 5 (.perform (.readHint ⟨0⟩))
      (.readHint ⟨1⟩)).map fun results => (results.2.1.1, results.2.2.1)) =
        some (.singleton ⟨4⟩, .singleton ⟨3⟩ ∪ .singleton ⟨4⟩) := by
    decide +kernel
  obtain ⟨⟨state, ⟨answer, after⟩, freshAnswer, fresh⟩, performed, same⟩ :=
    Option.map_eq_some_iff.mp outcome
  cases same
  obtain ⟨reply, reached, answered, answeredFresh⟩ := Environment.exists_of_afresh performed
  exact ⟨reply, state, after, fresh, reached, answered, answeredFresh⟩

/--
After that, the type arguments of the subscript are still those of a fresh request, which meets no
cycle.  After the type arguments were read instead, the first annotation is read as by a fresh
request, though both meet the cycle.
-/
theorem answers_as_a_fresh_request_of_entangled :
    (∃ reply state after fresh arguments freshArguments,
      Environment.entangled.run 5 (.perform (.readHint ⟨0⟩))
        (Environment.entangled.start .initial) = .ok (reply, state) ∧
      Environment.entangled.answer 5 (.typeArguments (.lazy ⟨5⟩)) state =
        .ok (arguments, after) ∧
      Environment.entangled.answer 5 (.typeArguments (.lazy ⟨5⟩))
        (Environment.entangled.start after.arena) = .ok (freshArguments, fresh) ∧
      after.events.any (·.cutsShort) = true ∧
      arguments.slots = [.singleton ⟨5⟩ ∪ .singleton ⟨7⟩, .singleton ⟨7⟩] ∧
      arguments = freshArguments) ∧
    ∃ reply state after fresh answer freshAnswer,
      Environment.entangled.run 5 (.perform (.typeArguments (.lazy ⟨5⟩)))
        (Environment.entangled.start .initial) = .ok (reply, state) ∧
      Environment.entangled.answer 5 (.readHint ⟨0⟩) state = .ok (answer, after) ∧
      Environment.entangled.answer 5 (.readHint ⟨0⟩) (Environment.entangled.start after.arena) =
        .ok (freshAnswer, fresh) ∧
      fresh.events.any (·.cutsShort) = true ∧
      answer = .singleton ⟨6⟩ ∪ .singleton ⟨7⟩ ∧
      answer = freshAnswer := by
  have provider : Environment.entangled.provider = Tree.entangled.provider := rfl
  have whole {events : Array Event} (uncut : events.any (·.cutsShort) = false) (event : Event)
      (member : event ∈ events) : event.cutsShort = false := by
    simpa using Array.any_eq_false'.mp uncut event member
  constructor
  · have outcome : ((Environment.entangled.afresh 5 (.perform (.readHint ⟨0⟩))
        (.typeArguments (.lazy ⟨5⟩))).map fun results =>
          (results.2.1.1.slots, results.2.1.2.counters.refusals, results.2.2.2.counters.refusals,
            results.2.1.2.events.any (·.cutsShort), results.2.2.2.events.any (·.cutsShort))) =
          some ([.singleton ⟨5⟩ ∪ .singleton ⟨7⟩, .singleton ⟨7⟩], 0, 0, true, false) := by
      decide +kernel
    obtain ⟨⟨state, ⟨arguments, after⟩, freshArguments, fresh⟩, performed, same⟩ :=
      Option.map_eq_some_iff.mp outcome
    simp only [Prod.mk.injEq] at same
    obtain ⟨slots, admitted, freshAdmitted, cut, uncut⟩ := same
    obtain ⟨reply, reached, answered, answeredFresh⟩ := Environment.exists_of_afresh performed
    exact ⟨reply, state, after, fresh, arguments, freshArguments, reached, answered, answeredFresh,
      cut, slots, answers_as_a_fresh_request provider reached rfl answered answeredFresh
        ⟨admitted, freshAdmitted⟩ (.inr (whole uncut))⟩
  · have outcome : ((Environment.entangled.afresh 5 (.perform (.typeArguments (.lazy ⟨5⟩)))
        (.readHint ⟨0⟩)).map fun results =>
          (results.2.1.1, results.2.1.2.counters.refusals, results.2.2.2.counters.refusals,
            results.2.2.2.events.any (·.cutsShort), results.1.events.any (·.cutsShort))) =
          some (.singleton ⟨6⟩ ∪ .singleton ⟨7⟩, 0, 0, true, false) := by
      decide +kernel
    obtain ⟨⟨state, ⟨answer, after⟩, freshAnswer, fresh⟩, performed, same⟩ :=
      Option.map_eq_some_iff.mp outcome
    simp only [Prod.mk.injEq] at same
    obtain ⟨found, admitted, freshAdmitted, cut, uncut⟩ := same
    obtain ⟨reply, reached, answered, answeredFresh⟩ := Environment.exists_of_afresh performed
    exact ⟨reply, state, after, fresh, answer, freshAnswer, reached, answered, answeredFresh, cut,
      found, answers_as_a_fresh_request provider reached rfl answered answeredFresh
        ⟨admitted, freshAdmitted⟩ (.inl (whole uncut))⟩

end TypeInference
