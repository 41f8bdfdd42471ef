import TypeInference.Proofs.FixedTree.Reader

/-!
# What does not depend on the known calls

An engine that makes no calls does not look at what is known of calls.  If it succeeds,
then it does the same where other calls are known, or where more of them have been counted,
and so does an engine that makes calls.
-/

namespace TypeInference

open Inference

variable {α : Type}

/-- A state in which other calls are known, some of them computed besides those counted. -/
def State.recalling (returns : Table Invocation Progress) (computed : Nat) (journal : List Mark)
    (state : State) : State :=
  { state with
    returns := returns
    journal := journal
    counters := { state.counters with memoMisses := state.counters.memoMisses + computed } }

/-- Where a step succeeds, another one does the same, whatever calls are known. -/
def Ignores {α : Type} (returns : Table Invocation Progress) (computed : Nat)
    (journal : List Mark) (step other : Inference α) : Prop :=
  ∀ state answer after, step state = .ok (answer, after) →
    other (state.recalling returns computed journal) =
      .ok (answer, after.recalling returns computed journal)

/-- The state that another one is alike in which other calls are known. -/
def Recalls (returns : Table Invocation Progress) (computed : Nat) (journal : List Mark)
    (state other : State) : Prop :=
  other = state.recalling returns computed journal

theorem likeness_recalls (returns : Table Invocation Progress) (computed : Nat)
    (journal : List Mark) : LikeNodes (Recalls returns computed journal) := by
  refine ⟨?_, ?_, ?_⟩
  · constructor
    all_goals
      rintro state _ rfl
      intros
      rfl
  all_goals
    rintro state _ rfl
    intros
    rfl

/-- A step that ignores the known calls goes on alongside itself where other calls are known. -/
theorem Ignores.of_alongside
    (goes : Alongside False (Recalls returns computed journal) Eq step other) :
    Ignores returns computed journal step other := by
  intro state answer after succeeds
  have outcome := goes state _ rfl
  rw [succeeds] at outcome
  revert outcome
  generalize other (state.recalling returns computed journal) = run
  intro outcome
  cases outcome with
  | answer same alike => rw [same, alike]

/-- Whatever the reader does, an engine with fuel does the same where other calls are known. -/
theorem Environment.ignores_of_parametric {env : Environment} {tree : Tree}
    (provider : env.provider = tree.fixedProvider) (parametric : Parametric step) (fuel : Nat)
    (returns : Table Invocation Progress) (computed : Nat) (journal : List Mark) :
    Ignores returns computed journal (step env.reader) (step (env.stage (fuel + 1))) := by
  have alike := env.readsAlike_stage provider fuel
  have like := likeness_recalls returns computed journal
  have fails (fault : Fault) (other : Inference TypeSet) :
      Alongside False (Recalls returns computed journal) Eq (throw fault) other :=
    fun _ _ _ => .fault False.elim
  have nodes (node : NodeId) : Alongside False (Recalls returns computed journal) Eq
      (env.reader.inferNode node)
      ((env.stage (fuel + 1)).ask (.inferNode node)) := by
    show Alongside _ _ _ (env.reader.ask (.inferNode node)) _
    rw [← alike.node, inferNode_stage_succ provider]
    exact .guarded like (.pure rfl) _
  have names (name : String) : Alongside False (Recalls returns computed journal) Eq
      ((env.reader.provider.resolveName name).run env.reader.ask)
      ((env.reader.provider.resolveName name).run (env.stage (fuel + 1)).ask) := by
    have known : env.reader.provider.resolveName name = .done ((tree.names.get? name).getD ∅) := by
      show env.provider.resolveName name = _
      rw [provider]
      rfl
    rw [known]
    exact .pure rfl
  have reports (sink other : Diagnostics) (diagnostic : Diagnostic) (sinks : sink = other) :
      Alongside False (Recalls returns computed journal) Eq (env.reader.report sink diagnostic)
        ((env.stage (fuel + 1)).report other diagnostic) := by
    cases sinks
    show Alongside _ _ _ (env.reader.report sink diagnostic) (env.reader.report sink diagnostic)
    unfold Engine.report
    split
    · exact .andThen (.modify fun holds => like.emit holds _) fun _ => .pure rfl
    · exact .pure rfl
  have reads : (like.accord False (env.stage (fuel + 1)).ask
      env.reader.settings.reportsDiagnostics Eq nodes (fun _ _ => fails _ _)
      reports).Reads :=
    like.reads False _ _ Eq names
  exact .of_alongside (parametric (Accord.pairing _ reads) rfl ())

end TypeInference
