import TypeInference.Proofs.Termination.BareCall

/-!
# Bare calls of functions finish

If a tree knows all it knows at once, then a function that is called without
arguments answers, whatever it leads to: each of the calls of functions that it
leads to is computed once, and there are finitely many of them.  The calls that
nothing guards in this way are those of generic classes and of callables with
receivers, so that it has to be known of them that they answer.
-/

namespace TypeInference

variable {receivers : List ValueId} {class_ : ClassId} {id : ValueId}

/-- A provider that knows at once what it is asked, and knows nothing beyond the scope. -/
structure Provider.Knows (declarations : Declarations) (base : Nat)
    (provider : Provider) : Prop where
  nodes : ∀ node, ∃ set, provider.inferNode node = .done set ∧ Within declarations base set
  names : ∀ name, ∃ set, provider.resolveName name = .done set ∧ Within declarations base set
  bodies : ∀ execution, ∃ set,
    provider.inferBody execution = .done set ∧ Within declarations base set

/--
A value whose bare calls nothing guards: an object of a generic class, or a callable
that is called with receivers.
-/
def Value.IsUnguarded (declarations : Declarations) (receivers : List ValueId) : Value → Prop
  | .classObject class_ => ∃ declaration,
    declarations.class? class_ = some declaration ∧ declaration.isGeneric = true
  | .callable _ => receivers ≠ []
  | _ => False

theorem Arguments.not_isWritten_ofReceivers (receivers : List ValueId) :
    ¬(Arguments.ofReceivers receivers).IsWritten := by
  induction receivers with
  | nil => exact id
  | cons receiver receivers ih => exact ih

namespace Judgement

variable {env : Environment} {base bound : Nat}

open Inference

/-! ## Trees that know -/

section Knowing

variable {judgement : Judgement env} (knows : env.provider.Knows env.declarations base)

/-- What is known at once is known within the scope. -/
theorem yields_done
    (spans : ∀ {arena returns}, judgement.Invariant arena returns → base ≤ arena.size)
    {program : Program TypeSet} (known : ∃ set, program = .done set ∧ env.Scopes base set) :
    judgement.Stages bound (·.runProgram program) := by
  obtain ⟨set, rfl, within⟩ := known
  exact keeps_of_admitted fun _ admitted _ => yields_pure (within.grow (spans admitted.invariant))

include knows

section

variable (spans : ∀ {arena returns}, judgement.Invariant arena returns → base ≤ arena.size)

include spans

theorem bodies_of_knows : judgement.Bodies :=
  fun _ execution _ _ => yields_done spans (knows.bodies execution)

theorem reads_of_asks (asks : ∀ bound node, judgement.Answers bound (.inferNode node) fun fuel =>
      (env.stage fuel).ask (.inferNode node)) :
    judgement.Reads where
  node := fun bound node => asks bound node trivial
  name := fun _ name => yields_done spans (knows.names name)

theorem inferNode_of_knows (node : NodeId) :
    judgement.Answers bound (.inferNode node) fun fuel =>
      (env.stage fuel).perform (.inferNode node) :=
  fun _ => yields_inferNodeOnce node fun _ => yields_done spans (knows.nodes node)

end

theorem total_reads
    (spans : ∀ {arena returns}, upkeep.Invariant arena returns → base ≤ arena.size) :
    (total env upkeep).Reads :=
  reads_of_asks knows spans fun _ node => total_asks (inferNode_of_knows knows spans node)

end Knowing

/-! ## Calls that lead to no other calls -/

section Leaves

variable {judgement : Judgement env}

/-- A class without type parameters has nothing to infer when it is called. -/
theorem yields_construct_of_not_isGeneric (within : env.Scopes bound class_)
    (declared : env.declarations.class? class_ = some declaration)
    (plain : declaration.isGeneric = false) (arguments : Arguments) :
    judgement.Stages bound (·.construct class_ arguments) := by
  have outcome : ∀ fuel, (env.stage fuel).construct class_ arguments =
      (env.stage fuel).instantiate class_ .none := by
    intro fuel
    simp [Engine.construct, Engine.classDeclaration, Environment.stage_toEnvironment, declared,
      plain]
  simp only [Judgement.Stages, outcome]
  exact yields_instantiate within within_nil

/-- The call of a class object that is guarded has nothing to infer. -/
theorem yields_construct_of_not_isUnguarded (within : env.Scopes bound class_)
    (guarded : ¬(Value.classObject class_).IsUnguarded env.declarations receivers)
    (arguments : Arguments) : judgement.Stages bound (·.construct class_ arguments) := by
  obtain ⟨declaration, declared⟩ : ∃ declaration,
      env.declarations.class? class_ = some declaration :=
    ⟨_, Array.getElem?_eq_getElem within⟩
  cases generic : declaration.isGeneric with
  | false => exact yields_construct_of_not_isGeneric within declared generic arguments
  | true => exact absurd ⟨declaration, declared, generic⟩ guarded

/-- What cannot be called is described and returns nothing. -/
theorem yields_notCallable (id : ValueId) :
    judgement.Yields bound fun fuel => (do
      emit (.notCallable (← (env.stage fuel).describe id))
      return ∅ : Inference TypeSet) :=
  Yields.bind (yields_describe id) fun _ _ _ _ => yields_emit_pure _ within_empty

/-- A callable that is called without arguments is matched with nothing. -/
theorem yields_callCallable_empty (reads : judgement.Reads) (calls : judgement.Calls)
    (within : env.Scopes bound generics) :
    judgement.Stages bound (·.callCallable generics .empty) := by
  refine Yields.bind (yields_typeArguments reads within)
    fun later typeArguments _ typeArgumentsWithin => ?_
  refine keeps_ite (fun _ => ?_) fun _ => ?_
  · have bindingsYield : judgement.Yields later fun fuel =>
        mergeOver ((env.stage fuel).parameterListBindings []) (typeArguments.slot 0).members := by
      refine yields_mergeOver fun id member => ?_
      refine Yields.bind (yields_value (within_slot typeArgumentsWithin 0 id member))
        fun _ stored _ _ => ?_
      cases stored <;> exact yields_noBindings
    have unpacked : ∀ fuel, (env.stage fuel).unpack .empty none .discarding =
        pure ([], .discarding) := fun _ => rfl
    simp only [unpacked, pure_bind]
    refine Yields.bind bindingsYield fun _ bindings larger bindingsWithin => ?_
    have resultWithin := (within_slot typeArgumentsWithin 1).grow larger
    exact Yields.bind (yields_substitute reads resultWithin bindingsWithin)
      fun _ _ _ setWithin => yields_instances reads calls setWithin
  · exact yields_emit_pure _ within_empty

end Leaves

/-! ## Calls of functions -/

/--
The bare calls that nothing guards answer, as long as they are put to requests that
keep to the functions of an arena: if methods may be bound to anything, all of them,
and if there are callables, those without receivers.
-/
def Settles (environment : Environment) (initial : Arena) (matching applied : Prop) : Prop :=
  ∀ (remaining : Nat) (state : State) (id : ValueId) (receivers : List ValueId) (stored : Value),
    (total environment (.resuming initial matching remaining)).Admits state →
    Within environment.declarations state.arena.size receivers →
    state.arena.get? id = some stored →
    stored.IsUnguarded environment.declarations receivers →
    applied ∨ (matching ∧ receivers = []) →
    (total environment (.resuming initial matching remaining)).KeepsAt state
      (fun fuel => (environment.stage fuel).executeValue (.ofReceivers receivers) id)
      (Within environment.declarations)

section Functions

variable {initial : Arena} {matching applied : Prop} {remaining : Nat}
  (knows : env.provider.Knows env.declarations base)
  (spans : base ≤ initial.size)
  (wellFormed : World.WellFormed ⟨initial, env.declarations⟩)
  (methods : ∀ id callee receiver, initial.get? id = some (.boundMethod callee receiver) →
    applied ∨ ∃ stored, initial.get? callee = some stored ∧ stored.isFunction = true)
  (settles : Settles env initial matching applied)
  (fewer : ∀ smaller < remaining,
    (total env (.resuming initial matching smaller)).Calls ∧
      (total env (.resuming initial matching smaller)).Matches)

include spans in
omit knows in
theorem resuming_spans (resumes : initial.Resumes matching remaining arena returns) :
    base ≤ arena.size :=
  Nat.le_trans spans (Arena.size_le_of_le resumes.continues)

include knows spans fewer

/-- A call that is started is missing no longer, so that it leads to fewer calls. -/
theorem resuming_returnType (functionWithin : env.Scopes bound function)
    (within : env.Scopes bound arguments)
    (member : ⟨function, arguments⟩ ∈ initial.bareInvocations) :
    (total env (.resuming initial matching remaining)).Yields bound fun fuel =>
      (env.stage fuel).returnType function arguments := by
  refine yields_returnType_of_start functionWithin fun state admitted larger unknown => ?_
  have resumes : initial.Resumes matching remaining state.arena state.returns := admitted.invariant
  have missing := Nat.lt_of_lt_of_le (Table.missing_insert_lt member unknown .running)
    resumes.missing
  obtain ⟨smaller, rfl⟩ : ∃ smaller, remaining = smaller + 1 := ⟨remaining - 1, by omega⟩
  obtain ⟨calls, matched⟩ := fewer smaller (Nat.lt_succ_self _)
  have reads : (total env (.resuming initial matching smaller)).Reads :=
    total_reads knows (resuming_spans spans)
  have computes : (total env (.resuming initial matching smaller)).Yields bound
      fun fuel => (do
        count fun counters => { counters with memoMisses := counters.memoMisses + 1 }
        let result ← (env.stage fuel).computeReturn function arguments
        Engine.setProgress ⟨function, arguments⟩ (.finished result)
        return result : Inference TypeSet) := by
    refine Yields.bind (yields_count _) fun _ _ larger _ => ?_
    refine Yields.bind
      (yields_computeReturn reads calls matched
        (bodies_of_knows knows (resuming_spans spans)) (functionWithin.grow larger)
        (within.grow larger))
      fun later result _ resultWithin => ?_
    have finished : ∀ other, Progress.finished result = .finished other → env.Scopes later other :=
      fun _ same => Progress.finished.inj same ▸ resultWithin
    exact Yields.bind (yields_setProgress Arena.Resumes.note _ finished) fun _ _ larger _ =>
      yields_pure (resultWithin.grow larger)
  have unfinished : ∀ result, Progress.running = .finished result →
      env.Scopes state.arena.size result :=
    fun _ finished => nomatch finished
  -- Noting that the call has started leaves fewer calls missing, and the rest follows from there.
  have started := computes
    { state with
      returns := state.returns.insert ⟨function, arguments⟩ .running
      journal := .callNoted ⟨function, arguments⟩ .running :: state.journal }
    ⟨admitted.wellFormed.setProgress unfinished _ _,
      { resumes with missing := Nat.le_of_lt_succ missing }⟩ larger
  refine weaken started fun result holds => ?_
  obtain ⟨resultAdmitted, continues, resultWithin⟩ := holds
  have resultResumes : initial.Resumes matching smaller _ _ := resultAdmitted.invariant
  exact ⟨⟨resultAdmitted.wellFormed,
    { resultResumes with missing := Nat.le_succ_of_le resultResumes.missing }⟩, continues,
    resultWithin⟩

omit knows spans fewer in
/-- Only a method that is bound to something else leads to what is no function. -/
theorem applied_of_leads
    (methods : ∀ id callee receiver, initial.get? id = some (.boundMethod callee receiver) →
      applied ∨ ∃ stored, initial.get? callee = some stored ∧ stored.isFunction = true)
    (leads : initial.Leads id receivers) (found : initial.get? id = some stored)
    (noFunction : stored.isFunction = false) :
    applied := by
  cases leads with
  | start other isFunction =>
    rw [found] at other
    cases other
    simp [noFunction] at isFunction
  | callee leads method =>
    rcases methods _ _ _ method with isApplied | ⟨other, otherFound, isFunction⟩
    · exact isApplied
    · rw [found] at otherFound
      cases otherFound
      simp [noFunction] at isFunction

include wellFormed methods settles

/-- Values that a call without arguments leads to answer. -/
theorem resuming_executeValue (within : env.Scopes bound id)
    (receiversWithin : env.Scopes bound receivers)
    (led : initial.Leads id receivers ∨ matching ∧ receivers = [] ∧
      (total env (.resuming initial matching remaining)).Calls) :
    (total env (.resuming initial matching remaining)).Yields bound fun fuel =>
      (env.stage fuel).executeValue (.ofReceivers receivers) id := by
  have reads : (total env (.resuming initial matching remaining)).Reads :=
    total_reads knows (resuming_spans spans)
  -- A bound method leads to a value that was interned before it.
  induction limit : id.index using Nat.strongRecOn generalizing bound id receivers with
  | ind limit ih =>
  subst limit
  intro state admitted larger
  have resumes : initial.Resumes matching remaining state.arena state.returns := admitted.invariant
  obtain ⟨stored, found⟩ := Arena.exists_get? (Nat.lt_of_lt_of_le within larger)
  have storedWithin := admitted.wellFormed.world.within_of_get? found
  have receiversWithin := receiversWithin.grow larger
  have argumentsWithin := within_ofReceivers receiversWithin
  have foundBefore : initial.Leads id receivers → initial.get? id = some stored :=
    fun leads => leads.get?_of_le wellFormed resumes.continues found
  have leads : stored.isFunction = true → initial.Leads id receivers := by
    intro isFunction
    rcases led with leads | ⟨-, rfl, -⟩
    · exact leads
    · exact .start (resumes.functions id stored found isFunction) isFunction
  by_cases isUnguarded : stored.IsUnguarded env.declarations receivers
  · have noFunction : stored.isFunction = false := by
      cases stored <;> first | rfl | cases isUnguarded
    refine settles remaining state id receivers stored admitted receiversWithin found isUnguarded ?_
    rcases led with leads | ⟨isMatching, none, -⟩
    · exact Or.inl (applied_of_leads methods leads (foundBefore leads) noFunction)
    · exact Or.inr ⟨isMatching, none⟩
  · unfold Engine.executeValue
    refine keepsAt_value found ?_
    cases stored with
    | function function =>
      have member := (leads rfl).mem_bareInvocations wellFormed (.inl (foundBefore (leads rfl)))
      exact resuming_returnType knows spans fewer storedWithin argumentsWithin member state
        admitted (Nat.le_refl _)
    | overloaded functions =>
      have notWritten := Arguments.not_isWritten_ofReceivers receivers
      refine yields_executeOverloaded reads (fun written => absurd written notWritten) ?_
        argumentsWithin storedWithin state admitted (Nat.le_refl _)
      intro later larger function isFunction
      have member := (leads rfl).mem_bareInvocations wellFormed
        (.inr ⟨functions, foundBefore (leads rfl), isFunction⟩)
      exact resuming_returnType knows spans fewer ((storedWithin function isFunction).grow larger)
        (argumentsWithin.grow larger) member
    | boundMethod callee receiver =>
      have below : callee.index < id.index := (admitted.wellFormed.world.descending id _ found).1
      have method := (leads rfl).callee (foundBefore (leads rfl))
      have executes : (total env (.resuming initial matching remaining)).Answers
          state.arena.size (.execute (.singleton callee) (.ofReceivers (receiver :: receivers)))
          fun fuel => (env.stage fuel).ask
            (.execute (.singleton callee) (.ofReceivers (receiver :: receivers))) := by
        refine total_asks fun _ => yields_unionOver fun other isCallee => ?_
        cases List.mem_singleton.mp isCallee
        exact ih _ below storedWithin.1
          (within_cons.mpr ⟨storedWithin.2, receiversWithin⟩) (.inl method) rfl
      exact executes ⟨within_singleton storedWithin.1, storedWithin.2, argumentsWithin⟩ state
        admitted (Nat.le_refl _)
    | classObject class_ =>
      exact yields_construct_of_not_isUnguarded storedWithin isUnguarded _ state admitted
        (Nat.le_refl _)
    | genericClass class_ generics =>
      exact yields_instantiate storedWithin.1 storedWithin.2 state admitted (Nat.le_refl _)
    | callable generics =>
      have none : receivers = [] := by simpa [Value.IsUnguarded] using isUnguarded
      subst none
      rcases led with led | ⟨-, -, calls⟩
      · cases led.isFunction_of_nil (foundBefore led)
      · exact yields_callCallable_empty reads calls storedWithin state admitted (Nat.le_refl _)
    | any => exact yields_empty state admitted larger
    | _ => exact yields_notCallable id state admitted larger

omit fewer in
/-- Functions that are called without arguments answer, and so does all that may be matched. -/
theorem resuming_calls_and_matches (remaining : Nat) :
    (total env (.resuming initial matching remaining)).Calls ∧
      (total env (.resuming initial matching remaining)).Matches := by
  induction remaining using Nat.strongRecOn with
  | ind remaining fewer =>
  have executes : ∀ bound set, env.Scopes bound set →
      (∀ id ∈ set, initial.Leads id [] ∨
        matching ∧ (total env (.resuming initial matching remaining)).Calls) →
      (total env (.resuming initial matching remaining)).Yields bound fun fuel =>
        (env.stage fuel).execute set .empty := by
    intro bound set within led
    have answers : (total env (.resuming initial matching remaining)).Answers bound
        (.execute set .empty) fun fuel => (env.stage fuel).ask (.execute set .empty) :=
      total_asks fun _ => yields_unionOver fun id member =>
        resuming_executeValue knows spans wellFormed methods settles fewer (within id member)
          within_nil ((led id member).imp_right fun matched => ⟨matched.1, rfl, matched.2⟩)
    exact answers ⟨within, within_nil⟩
  have calls : (total env (.resuming initial matching remaining)).Calls := by
    intro bound id within leads
    refine executes bound _ (within_singleton within) fun other member => Or.inl ?_
    cases List.mem_singleton.mp member
    exact leads
  exact ⟨calls, fun isMatching bound set within =>
    executes bound set within fun _ _ => Or.inr ⟨isMatching, calls⟩⟩

end Functions

end Judgement

end TypeInference
