import TypeInference.Proofs.Judgement.Run

/-!
# Judgements on fuel

Three judgements say what becomes of a step when it gets more fuel.  The first one
is about steps that may lack fuel: up to a limit, they fail for no other reason, and
one that succeeds does the same with more.  The second one is about steps that have
enough fuel some time, whether or not it is known how much.  The third one is about
steps that need no fuel.

Under the first two an engine answers what it performs, since it asks an engine of
less fuel.  For the first judgement that lowers the limit, and for the second one
that takes one unit of fuel more.
-/

namespace TypeInference

variable {env : Environment}

/-- With one unit of fuel more, an engine is asked what it performs. -/
theorem Environment.ask_stage_succ (env : Environment) (fuel : Nat) (operation : Operation α) :
    (env.stage (fuel + 1)).ask operation = (env.stage fuel).perform operation := by
  rw [env.stage_eq_engine fuel]
  rfl

namespace Judgement

variable {upkeep : Upkeep} {limit bound : Nat} {α : Type} {operation : Operation α}

/--
Up to a limit of fuel, no step fails but for lack of fuel, and one that succeeds
does the same with one unit more.
-/
def faultless (environment : Environment) (upkeep : Upkeep) (limit : Nat) :
    Judgement environment where
  toUpkeep := upkeep
  Accepts := fun outcomes post => ∀ fuel ≤ limit,
    (∀ fault, outcomes fuel = .error fault → fault = .outOfFuel) ∧
      ∀ answer, outcomes fuel = .ok answer → post answer ∧ outcomes (fuel + 1) = .ok answer
  ok := by
    intro β answer post holds fuel _
    refine ⟨fun fault failed => ?_, fun other success => ?_⟩
    · cases failed
    · cases success
      exact ⟨holds, rfl⟩
  andThen := by
    intro β γ first next middle post firstAccepted nextAccepted fuel limited
    obtain ⟨firstFails, firstSucceeds⟩ := firstAccepted fuel limited
    cases outcome : first fuel with
    | error fault =>
      refine ⟨fun other failed => ?_, fun answer success => ?_⟩
      · simp only [outcome] at failed
        cases failed
        exact firstFails fault outcome
      · simp only [outcome] at success
        cases success
    | ok answer =>
      obtain ⟨holds, again⟩ := firstSucceeds answer outcome
      simp only [outcome, again]
      exact nextAccepted answer holds fuel limited

/-- An engine answers what engines of less fuel perform. -/
theorem faultless_asks
    (performs : ∀ smaller < limit, (faultless env upkeep smaller).Answers bound operation
      fun fuel => (env.stage fuel).perform operation) :
    (faultless env upkeep limit).Answers bound operation fun fuel =>
      (env.stage fuel).ask operation := by
  intro inScope state admitted within fuel limited
  cases fuel with
  | zero =>
    refine ⟨fun fault failed => ?_, fun answer success => ?_⟩
    · cases failed
      rfl
    · cases success
  | succ fuel =>
    simp only [env.ask_stage_succ]
    obtain ⟨fails, succeeds⟩ := performs fuel limited inScope state
      ⟨admitted.wellFormed, admitted.invariant⟩ within fuel (Nat.le_refl _)
    refine ⟨fails, fun answer success => ?_⟩
    obtain ⟨⟨answerAdmitted, continues, answered⟩, again⟩ := succeeds answer success
    exact ⟨⟨⟨answerAdmitted.wellFormed, answerAdmitted.invariant⟩, continues, answered⟩, again⟩

/-- From some fuel on, a step succeeds and does the same. -/
def total (environment : Environment) (upkeep : Upkeep) : Judgement environment where
  toUpkeep := upkeep
  Accepts := fun outcomes post => ∃ enough answer, post answer ∧
    ∀ fuel, enough ≤ fuel → outcomes fuel = .ok answer
  ok := fun {_ answer _} holds => ⟨0, answer, holds, fun _ _ => rfl⟩
  andThen := by
    rintro β γ first next middle post ⟨enough, answer, holds, succeeds⟩ nextAccepted
    obtain ⟨more, final, finalHolds, finalSucceeds⟩ := nextAccepted answer holds
    refine ⟨max enough more, final, finalHolds, fun fuel large => ?_⟩
    change (first fuel >>= next fuel) = .ok final
    rw [succeeds fuel (by omega)]
    exact finalSucceeds fuel (by omega)

/-- An engine answers what it performs. -/
theorem total_asks (performs : (total env upkeep).Answers bound operation fun fuel =>
      (env.stage fuel).perform operation) :
    (total env upkeep).Answers bound operation fun fuel => (env.stage fuel).ask operation := by
  intro inScope state admitted within
  obtain ⟨enough, answer, holds, succeeds⟩ := performs inScope state admitted within
  refine ⟨enough + 1, answer, holds, fun fuel large => ?_⟩
  obtain ⟨less, rfl⟩ : ∃ less, fuel = less + 1 := ⟨fuel - 1, by omega⟩
  simp only [env.ask_stage_succ]
  exact succeeds less (by omega)

/-- A step succeeds, and does the same with every fuel. -/
def immediate (environment : Environment) (upkeep : Upkeep) : Judgement environment where
  toUpkeep := upkeep
  Accepts := fun outcomes post => ∃ answer, post answer ∧ ∀ fuel, outcomes fuel = .ok answer
  ok := fun {_ answer _} holds => ⟨answer, holds, fun _ => rfl⟩
  andThen := by
    rintro β γ first next middle post ⟨answer, holds, succeeds⟩ nextAccepted
    obtain ⟨final, finalHolds, finalSucceeds⟩ := nextAccepted answer holds
    refine ⟨final, finalHolds, fun fuel => ?_⟩
    change (first fuel >>= next fuel) = .ok final
    rw [succeeds fuel]
    exact finalSucceeds fuel

end Judgement

end TypeInference
