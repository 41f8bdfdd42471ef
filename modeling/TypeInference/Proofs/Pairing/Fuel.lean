import TypeInference.Proofs.Judgement.Fuel
import TypeInference.Proofs.Pairing.Alongside

/-!
# More fuel

A step that succeeds does the same with more fuel, whatever the tree asks for and
whether or not the request is well formed.  An engine that answers more operations
than another one, and all others alike, goes together with it in every operation.
-/

namespace TypeInference

open Inference

variable {α : Type} {fuel more : Nat}

/-- Where a step succeeds, another step does the same. -/
def Refines {α : Type} (step other : Inference α) : Prop :=
  ∀ state result, step state = .ok result → other state = .ok result

namespace Refines

variable {α β : Type}

theorem refl (step : Inference α) : Refines step step := fun _ _ succeeds => succeeds

variable {next nextOther : α → Inference β} {step other : Inference α}

theorem bind (firstRefines : Refines first firstOther)
    (nextRefines : ∀ answer, Refines (next answer) (nextOther answer)) :
    Refines (first >>= next) (firstOther >>= nextOther) := by
  rintro state ⟨answer, after⟩ succeeds
  obtain ⟨middle, between, started, finished⟩ := bind_eq_ok_iff.mp succeeds
  exact bind_eq_ok_iff.mpr
    ⟨middle, between, firstRefines _ _ started, nextRefines middle _ _ finished⟩

/-- After the same first step. -/
theorem after (first : Inference α)
    (nextRefines : ∀ answer, Refines (next answer) (nextOther answer)) :
    Refines (first >>= next) (first >>= nextOther) :=
  (refl first).bind nextRefines

theorem run {answer other : {β : Type} → Operation β → Inference β}
    (each : ∀ {β : Type} (operation : Operation β), Refines (answer operation) (other operation))
    (program : Program α) :
    Refines (program.run answer) (program.run other) := by
  induction program with
  | done result => exact refl _
  | ask operation next ih =>
    exact (each operation).bind ih

theorem budgeted {content other : Inference TypeSet} (contentRefines : Refines content other)
    (settings : Settings) (function : FunctionId) (builtin : Bool) :
    Refines (budgeted settings function builtin content)
      (budgeted settings function builtin other) := by
  refine after _ fun _ => after _ fun state => after _ fun _ => ?_
  split
  · exact refl _
  · have enters : Refines (entering function content) (entering function other) :=
      after _ fun _ => contentRefines.bind fun _ => refl _
    exact enters.bind fun result => refl (leaving result)

/-- A step that refines another one goes on alongside it. -/
theorem alongside (refines : Refines step other) : Alongside False Eq Eq step other := by
  rintro state _ rfl
  cases outcome : step state with
  | error fault => exact .fault False.elim
  | ok result =>
    rw [refines state result outcome]
    exact .answer rfl rfl

theorem of_alongside (goes : Alongside False Eq Eq step other) : Refines step other := by
  intro state result succeeds
  have outcome := goes state state rfl
  rw [succeeds] at outcome
  revert outcome
  generalize other state = otherRun
  intro outcome
  cases outcome with
  | answer same alike =>
    cases same
    cases alike
    rfl

end Refines

theorem likeness_eq : LikeNodes Eq := by
  refine ⟨⟨?_, ?_, ?_, ?_, ?_, ?_⟩, ?_, ?_⟩
  all_goals
    rintro state _ rfl
    intros
    rfl

theorem likeCalls_eq : LikeCalls Eq := by
  constructor
  all_goals
    rintro state _ rfl
    intros
    rfl

/-! ## Engines that answer more -/

section Engines

variable {engine : Engine} {otherAsk : {α : Type} → Operation α → Inference α}
  (asks : ∀ {α : Type} (operation : Operation α),
    Refines (engine.ask operation) (otherAsk operation))

/-- Refinement is an accord of engines that answer more. -/
def refining : Accord engine :=
  likeness_eq.accord False otherAsk engine.settings.reportsDiagnostics Eq
    (fun _ => (asks _).alongside) (fun _ _ => (asks _).alongside)
    fun sink other diagnostic sinks => by
      cases sinks
      exact (Refines.refl (engine.report sink diagnostic)).alongside

theorem refining_reads : (refining asks).Reads :=
  likeness_eq.reads False otherAsk _ Eq fun _ => (Refines.run asks _).alongside

/-- Refinement is a pairing of engines that answer more. -/
abbrev refinement : Pairing engine :=
  (refining asks).pairing (refining_reads asks)

include asks

theorem refines_of_fits (fits : (refinement asks).Fits step other) : Refines step other :=
  .of_alongside (fits ())

theorem refines_bodyType (function : FunctionId) (arguments : Arguments) :
    Refines (engine.bodyType function arguments)
      ((engine.asking otherAsk).bodyType function arguments) := by
  rw [Engine.bodyType_eq_budgeted, Engine.bodyType_eq_budgeted]
  refine .after _ fun declaration => Refines.budgeted (.of_alongside ?_) _ _ _
  exact Accord.pairs_inferBody (refining_reads asks) rfl (.look likeness_eq.depth)
    (fun execution => (Refines.run asks _).alongside) function arguments

theorem refines_declaredReturn (function : FunctionId) (arguments : Arguments) :
    Refines (engine.declaredReturn function arguments)
      ((engine.asking otherAsk).declaredReturn function arguments) :=
  .of_alongside (Accord.pairs_declaredReturn (refining_reads asks) rfl fun _ _ _ =>
    (refines_bodyType asks function arguments).alongside)

/-- Whatever an engine performs, one that answers more performs too. -/
theorem refines_perform (operation : Operation α) :
    Refines (engine.perform operation) ((engine.asking otherAsk).perform operation) := by
  refine .of_alongside (Accord.pairs_perform (refining_reads asks) rfl
    (fun node => .guarded likeness_eq (Refines.run asks _).alongside node)
    (fun function arguments => ?_) rfl operation)
  exact .remembered likeCalls_eq (refines_declaredReturn asks function arguments).alongside
    ((refining asks).pairs_recursiveReturn function) _

end Engines

namespace Environment

variable (env : Environment)

theorem perform_stage_refines (larger : fuel ≤ more) (operation : Operation α) :
    Refines ((env.stage fuel).perform operation) ((env.stage more).perform operation) := by
  induction fuel generalizing more α with
  | zero => exact refines_perform (fun _ _ _ fails => by cases fails) operation
  | succ fuel ih =>
    refine refines_perform (fun operation => ?_) operation
    obtain ⟨less, rfl⟩ : ∃ less, more = less + 1 := ⟨more - 1, by omega⟩
    show Refines ((env.stage (fuel + 1)).ask operation) ((env.stage (less + 1)).ask operation)
    rw [env.ask_stage_succ, env.ask_stage_succ]
    exact ih (by omega) operation

/-- An operation that is answered is answered alike with more fuel. -/
theorem answer_refines (larger : fuel ≤ more) (operation : Operation α) :
    Refines (env.answer fuel operation) (env.answer more operation) := by
  have refines := env.perform_stage_refines larger operation
  rwa [env.stage_eq_engine, env.stage_eq_engine] at refines

end Environment

end TypeInference
