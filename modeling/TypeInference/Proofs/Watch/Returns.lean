import TypeInference.Proofs.Table
import TypeInference.Proofs.Watch

/-!
# The returns are written once

A call moves from unknown to being computed, and from being computed to known; what is
known stays.  So each call is computed at most once, and the number of calls in the
table is the number of calls that had to be computed, at every moment of every run.
When a run is over, every call that it started is known.
-/

namespace TypeInference

open Inference

variable {state after : State}

namespace Table

variable {κ ν : Type} [DecidableEq κ] {table : Table κ ν} {key : κ} {value : ν}

theorem mem_keys_iff : key ∈ table.entries.map Prod.fst ↔ table.get? key ≠ none := by
  unfold get?
  induction table.entries with
  | nil => simp [find]
  | cons entry rest ih =>
    obtain ⟨present, old⟩ := entry
    by_cases same : present = key
    · simp [find, same]
    · simp [find, same, Ne.symm same, ← ih]

theorem size_insert_of_absent (absent : table.get? key = none) :
    (table.insert key value).size = table.size + 1 := by
  have unlisted : key ∉ table.entries.map Prod.fst := fun listed => mem_keys_iff.mp listed absent
  rw [size, insert, place_of_not_mem unlisted, List.length_append]
  rfl

theorem size_insert_of_present (present : table.get? key ≠ none) :
    (table.insert key value).size = table.size := by
  have listed := map_fst_place_of_mem (mem_keys_iff.mpr present) value
  have lengths := congrArg List.length listed
  rwa [List.length_map, List.length_map] at lengths

end Table

/-! ## What is noted of calls -/

/-- What was noted of a call, latest first. -/
def State.notes (state : State) (invocation : Invocation) : List Progress :=
  state.journal.filterMap fun
    | .callNoted noted progress => if noted = invocation then some progress else none
    | _ => none

/-- The calls whose returns were computed, latest first. -/
def State.computed (state : State) : List Invocation :=
  state.journal.filterMap fun
    | .returnComputed invocation => some invocation
    | _ => none

/-- The notes of a call that moves from unknown to being computed, and from there to known. -/
inductive Progress.Advances : List Progress → Prop where
  | unknown : Advances []
  | started : Advances [.running]
  | finished (result : TypeSet) : Advances [.finished result, .running]

/-- The returns have been written once. -/
structure State.WritesOnce (state : State) : Prop where
  /-- Each call has advanced from unknown to being computed, and from there to known. -/
  advances : ∀ invocation, Progress.Advances (state.notes invocation)
  /-- The table shows what was noted last. -/
  latest : ∀ invocation, state.returns.get? invocation = (state.notes invocation).head?
  /-- No call was computed twice, nor one that is not in the table. -/
  computedOnce : state.computed.Nodup
  computed : ∀ invocation ∈ state.computed, state.returns.get? invocation ≠ none
  /-- The calls in the table are those that had to be computed. -/
  counted : state.returns.size = state.counters.memoMisses

namespace State.WritesOnce

variable (holds : state.WritesOnce)

include holds

/-- What concerns no calls does not count. -/
theorem of_same (returns : after.returns = state.returns) (notes : after.notes = state.notes)
    (computed : after.computed = state.computed)
    (memoMisses : after.counters.memoMisses = state.counters.memoMisses) :
    after.WritesOnce := by
  refine ⟨?_, ?_, ?_, ?_, ?_⟩
  · rw [notes]
    exact holds.advances
  · rw [returns, notes]
    exact holds.latest
  · rw [computed]
    exact holds.computedOnce
  · rw [returns, computed]
    exact holds.computed
  · rw [returns, memoMisses]
    exact holds.counted

/-- A call may be noted if it advances. -/
theorem note (returns : after.returns = state.returns.insert invocation progress)
    (notes : ∀ other, after.notes other =
      if invocation = other then progress :: state.notes other else state.notes other)
    (advances : Progress.Advances (progress :: state.notes invocation))
    (computedOnce : after.computed.Nodup)
    (computed : ∀ other ∈ after.computed, other = invocation ∨ other ∈ state.computed)
    (counted : after.returns.size = after.counters.memoMisses) :
    after.WritesOnce := by
  refine ⟨fun other => ?_, fun other => ?_, computedOnce, fun other isComputed => ?_, counted⟩
  all_goals by_cases same : other = invocation
  · rw [notes, same, if_pos rfl]
    exact advances
  · rw [notes, if_neg (Ne.symm same)]
    exact holds.advances other
  · rw [notes, returns, same, if_pos rfl, Table.get?_insert_self, List.head?_cons]
  · rw [notes, returns, if_neg (Ne.symm same), Table.get?_insert_of_ne _ same, holds.latest]
  · rw [returns, same, Table.get?_insert_self]
    nofun
  · rw [returns, Table.get?_insert_of_ne _ same]
    exact holds.computed other ((computed other isComputed).resolve_left same)

theorem startCall (absent : state.returns.get? invocation = none) :
    (state.startCall invocation).WritesOnce := by
  refine holds.note rfl (fun other => ?_) ?_ ?_ (fun other => List.mem_cons.mp) ?_
  · simp only [notes, State.startCall, List.filterMap_cons]
    split <;> simp_all
  · have unknown : state.notes invocation = [] := by
      rw [← List.head?_eq_none_iff, ← holds.latest, absent]
    rw [unknown]
    exact .started
  · refine List.nodup_cons.mpr ⟨fun again => ?_, holds.computedOnce⟩
    exact holds.computed invocation again absent
  · show (state.returns.insert invocation .running).size = state.counters.memoMisses + 1
    rw [Table.size_insert_of_absent absent, holds.counted]

theorem finishCall (running : state.returns.get? invocation = some .running) :
    (state.finishCall invocation result).WritesOnce := by
  refine holds.note rfl (fun other => ?_) ?_ holds.computedOnce (fun _ => .inr) ?_
  · simp only [notes, State.finishCall, List.filterMap_cons]
    split <;> simp_all
  · have last := (holds.latest invocation).symm.trans running
    have advances := holds.advances invocation
    revert last advances
    generalize state.notes invocation = notes
    intro last advances
    cases advances with
    | unknown | finished => cases last
    | started => exact .finished result
  · show (state.returns.insert invocation (.finished result)).size = state.counters.memoMisses
    rw [Table.size_insert_of_present (by simp [running]), holds.counted]

end State.WritesOnce

theorem invariant_writesOnce (settings : Settings) : Invariant settings State.WritesOnce where
  aside undisturbed holds := by
    refine holds.of_same undisturbed.returns ?_ ?_ undisturbed.memoMisses
    · unfold State.notes
      rw [undisturbed.journal]
    · unfold State.computed
      rw [undisturbed.journal]
  enterNode _ holds := holds.of_same rfl rfl rfl rfl
  leaveNode holds := holds.of_same rfl rfl rfl rfl
  enterBody _ holds := holds.of_same rfl rfl rfl rfl
  leaveBody holds := holds.of_same rfl rfl rfl rfl
  refuseBody holds := holds.of_same rfl rfl rfl rfl
  startCall absent holds := holds.startCall absent
  finishCall running holds := holds.finishCall running

/-! ## The whole request -/

/-- What calling a function does, by how far the call is known. -/
structure Environment.Remembers (environment : Environment) (fuel : Nat) : Prop where
  /-- A call that is not in the table starts, is computed, and is finished. -/
  computes : ∀ state function arguments, state.returns.get? ⟨function, arguments⟩ = none →
    environment.answer fuel (.returnType function arguments) state =
      ((environment.engine fuel).declaredReturn function arguments
          (state.startCall ⟨function, arguments⟩)).map
        fun result => (result.1, result.2.finishCall ⟨function, arguments⟩ result.1)
  /-- A call that is known is answered from the table. -/
  recalls : ∀ state function arguments result,
    state.returns.get? ⟨function, arguments⟩ = some (.finished result) →
    environment.answer fuel (.returnType function arguments) state =
      .ok (result, { state with
        counters := { state.counters with memoHits := state.counters.memoHits + 1 } })
  /-- A call that is being computed returns nothing, and the table stays as it is. -/
  refuses : ∀ state function arguments declaration,
    state.returns.get? ⟨function, arguments⟩ = some .running →
    environment.declarations.function? function = some declaration →
    environment.answer fuel (.returnType function arguments) state =
      .ok (∅, { state with events := state.events.push (.recursiveReturn declaration.name) })

theorem Environment.remembers (env : Environment) (fuel : Nat) : env.Remembers fuel := by
  have answers (state : State) (function : FunctionId) (arguments : Arguments) :=
    remembered_eq ⟨function, arguments⟩
      (do
        let declaration ← (env.engine fuel).functionDeclaration function
        emit (.recursiveReturn declaration.name)
        return ∅)
      ((env.engine fuel).declaredReturn function arguments) state
  refine ⟨fun state function arguments absent => ?_,
    fun state function arguments result known => ?_,
    fun state function arguments declaration running declared => ?_⟩
  · refine (answers state function arguments).trans ?_
    rw [absent]
  · refine (answers state function arguments).trans ?_
    rw [known]
  · refine (answers state function arguments).trans ?_
    have found : (env.engine fuel).declarations.function? function = some declaration := by
      cases fuel <;> exact declared
    rw [running]
    show ((do
      let declaration ← (env.engine fuel).functionDeclaration function
      emit (.recursiveReturn declaration.name)
      return ∅) : Inference TypeSet) state = _
    unfold Engine.functionDeclaration
    rw [found]
    rfl

/--
Whatever the tree asks for, the returns are written once: whenever an operation is entered
or returns, in every run, each call has moved from unknown to being computed and from there
to known, and was computed at most once and counted as it started.  What was noted stays
noted, and every call is known when the run is over.
-/
theorem returns_written_once
    (environment : Environment)
    (arena : Arena)
    (fuel : Nat)
    {α : Type}
    (program : Program α) :
    environment.Maintains State.WritesOnce fuel program (environment.start arena) ∧
      (∀ answer after,
        environment.run fuel program (environment.start arena) = .ok (answer, after) →
        ∀ invocation progress, after.returns.get? invocation = some progress →
          ∃ result, progress = .finished result) ∧
      (∀ {β : Type} (operation : Operation β) (state after : State) (answer : β),
        environment.answer fuel operation state = .ok (answer, after) →
        state.journal <:+ after.journal) ∧
      environment.Remembers fuel := by
  have start : (environment.start arena).WritesOnce :=
    ⟨fun _ => .unknown, fun _ => rfl, List.nodup_nil, nofun, rfl⟩
  refine ⟨environment.maintains (invariant_writesOnce _) id fuel program start,
    fun answer after completed invocation progress known => ?_,
    fun _ _ _ _ completed => (environment.restores_answer completed).journal,
    environment.remembers fuel⟩
  cases progress with
  | finished result => exact ⟨result, rfl⟩
  | running => cases ((environment.restores_run completed).running invocation).mp known

end TypeInference
