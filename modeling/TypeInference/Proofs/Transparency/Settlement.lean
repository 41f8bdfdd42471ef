import Mathlib.Data.Set.Insert
import TypeInference.Proofs.Pairing.Fuel
import TypeInference.Proofs.Replay.Lockstep

/-!
# What operations come to

A request answers from its caches what it has answered before, and cuts short what it is
still busy with.  Beneath that, an operation has an answer of its own, which depends on
nothing but the arena: it is found from the answers of the operations that it asks for,
at the start of a request and without guards.

An oracle knows some answers.  An operation is settled if its answer is found by asking an
oracle all of whose answers are settled themselves.  Every operation is settled in at most
one way, and what is settled can be settled without asking for itself.
-/

namespace TypeInference

open Inference

variable {α : Type} {env : Environment} {arena : Arena}

/-- Answers to operations, as far as they are known. -/
structure Oracle where
  /-- The answer to an operation, if it is known. -/
  answer? : {α : Type} → Operation α → Option α

/-- Ask an oracle, and give up if it does not know. -/
def Oracle.ask (oracle : Oracle) {α : Type} (operation : Operation α) : Inference α :=
  match oracle.answer? operation with
  | some answer => pure answer
  | none => throw .outOfFuel

variable {answer : α} {operation : Operation α}

theorem Oracle.ask_eq_ok_iff {oracle : Oracle} :
    oracle.ask operation state = .ok (answer, after) ↔
      oracle.answer? operation = some answer ∧ after = state := by
  unfold ask
  cases oracle.answer? operation with
  | none =>
    constructor
    · rintro ⟨⟩
    · rintro ⟨⟨⟩, _⟩
  | some known =>
    constructor
    · rintro ⟨⟩
      exact ⟨rfl, rfl⟩
    · rintro ⟨⟨⟩, rfl⟩
      rfl

/-! ## Settling an operation -/

namespace Engine

variable (engine : Engine)

/-- What an operation comes to, with no guards, no budget and no calls remembered. -/
def performPlainly {α : Type} : Operation α → Inference α
  | .inferNode node => engine.runProgram (engine.provider.inferNode node)
  | .returnType function arguments =>
    engine.returnBy
      (engine.functionDeclaration function >>= fun _ => engine.inferBody function arguments)
      function arguments
  | .execute set arguments =>
    unionOver
      (engine.callValue (fun function => engine.ask (.returnType function arguments)) arguments)
      set.members
  | operation => engine.perform operation

theorem performPlainly_of_unguarded {α : Type} {operation : Operation α}
    (unguarded : operation.isGuarded = false) :
    engine.performPlainly operation = engine.perform operation := by
  cases operation <;> first | rfl | cases unguarded

end Engine

namespace Environment

variable (env : Environment) (arena : Arena) (oracle : Oracle)

/-- An engine whose questions go to an oracle, which need not know what to do with cells. -/
def consulting : Engine :=
  { env with
    ask := fun operation =>
      if operation.isRepeatable then oracle.ask operation
      else ({ env with ask := oracle.ask } : Engine).perform operation }

/-- The answer of a step at the start of a request. -/
def conclude {α : Type} (step : Inference α) : Option α :=
  (step (env.start arena)).toOption.map Prod.fst

/-- What an operation comes to, if the oracle answers what it asks for. -/
def settle {α : Type} (operation : Operation α) : Option α :=
  env.conclude arena ((env.consulting oracle).performPlainly operation)

end Environment

theorem Environment.conclude_of_refines (refines : Refines step other)
    (concluded : env.conclude arena step = some answer) :
    env.conclude arena other = some answer := by
  obtain ⟨⟨_, after⟩, ran, rfl⟩ := Option.map_eq_some_iff.mp concluded
  refine Option.map_eq_some_iff.mpr ⟨⟨_, after⟩, ?_, rfl⟩
  rw [refines _ _ (Except.eq_ok_of_toOption ran)]
  rfl

/-! ## Oracles that know more -/

/-- Everything that one oracle answers, the other one answers alike. -/
instance : LE Oracle where
  le oracle larger := ∀ {α : Type} (operation : Operation α) (answer : α),
    oracle.answer? operation = some answer → larger.answer? operation = some answer

/-- Whatever is performed plainly, an engine that answers more performs too. -/
theorem refines_performPlainly {engine : Engine}
    {otherAsk : {α : Type} → Operation α → Inference α}
    (asks : ∀ {α : Type} (operation : Operation α),
      Refines (engine.ask operation) (otherAsk operation)) (operation : Operation α) :
    Refines (engine.performPlainly operation)
      ((engine.asking otherAsk).performPlainly operation) := by
  cases operation with
  | inferNode node => exact .run asks _
  | returnType function arguments =>
    refine refines_of_fits asks (Pairing.fits_returnBy rfl
      ((Pairing.fits_functionDeclaration function).bind fun _ _ => ?_) function arguments)
    exact Accord.pairs_inferBody (refining_reads asks) rfl (.look likeness_eq.depth)
      (fun execution => (Refines.run asks _).alongside) function arguments
  | execute set arguments =>
    refine refines_of_fits asks (Pairing.fits_unionOver (fun id => ?_) set.members)
    exact Pairing.fits_callValue rfl (fun function _ => (asks _).alongside) arguments id
  | _ =>
    rw [engine.performPlainly_of_unguarded rfl, Engine.performPlainly_of_unguarded _ rfl]
    exact refines_perform asks _

/-- An oracle that knows more settles more. -/
theorem Environment.settle_of_le {oracle larger : Oracle} (le : oracle ≤ larger)
    (settles : env.settle arena oracle operation = some answer) :
    env.settle arena larger operation = some answer := by
  have asks {β : Type} (asked : Operation β) : Refines (oracle.ask asked) (larger.ask asked) := by
    intro state (reply, after) succeeds
    obtain ⟨replied, rfl⟩ := Oracle.ask_eq_ok_iff.mp succeeds
    exact Oracle.ask_eq_ok_iff.mpr ⟨le asked reply replied, rfl⟩
  refine conclude_of_refines (refines_performPlainly (fun {β} asked => ?_) operation) settles
  show Refines (if asked.isRepeatable then _ else _) (if asked.isRepeatable then _ else _)
  split
  · exact asks asked
  · exact refines_perform asks asked

/-! ## Settled operations -/

/-- An operation, whatever the type of its answers. -/
abbrev Question := (α : Type) × Operation α

/-- An answer that is found from settled answers, none of which is for a blocked operation. -/
inductive Environment.Settles (environment : Environment) (arena : Arena)
    (blocked : Set Question) : {α : Type} → Operation α → α → Prop where
  | intro {α : Type} {operation : Operation α} {answer : α} (oracle : Oracle) :
    ⟨α, operation⟩ ∉ blocked →
    (∀ {β : Type} (asked : Operation β) (reply : β), oracle.answer? asked = some reply →
      environment.Settles arena blocked asked reply) →
    environment.settle arena oracle operation = some answer →
    environment.Settles arena blocked operation answer

namespace Environment.Settles

variable {env : Environment} {arena : Arena} {blocked fewer : Set Question}
  {α : Type} {operation : Operation α} {answer : α}

theorem of_subset (subset : fewer ⊆ blocked)
    (settles : env.Settles arena blocked operation answer) :
    env.Settles arena fewer operation answer := by
  induction settles with
  | intro oracle open_ _ settles ih =>
    exact .intro oracle (fun member => open_ (subset member)) ih settles

/-- An operation is settled in one way only. -/
theorem unique (settles : env.Settles arena blocked operation answer)
    (otherSettles : env.Settles arena fewer operation other) :
    answer = other := by
  induction settles with
  | intro oracle _ _ settles agrees =>
    obtain ⟨otherOracle, _, sound, otherSettles⟩ := otherSettles
    let both : Oracle :=
      ⟨fun operation => (oracle.answer? operation).or (otherOracle.answer? operation)⟩
    have larger : oracle ≤ both := fun operation reply replied => by simp [both, replied]
    have otherLarger : otherOracle ≤ both := fun operation reply replied => by
      cases known : oracle.answer? operation with
      | none => simp [both, known, replied]
      | some first =>
        cases agrees operation first known (sound operation reply replied)
        simp [both, known]
    exact Option.some.inj
      ((settle_of_le larger settles).symm.trans (settle_of_le otherLarger otherSettles))

/-- Blocking what is not settled anyway makes no difference. -/
theorem avoid (settles : env.Settles arena ∅ operation answer)
    (unsettled : ∀ question ∈ blocked, ∀ reply, ¬env.Settles arena ∅ question.2 reply) :
    env.Settles arena blocked operation answer := by
  induction settles with
  | @intro _ operation answer oracle open_ sound settles ih =>
    refine .intro oracle (fun member => ?_) ih settles
    exact unsettled _ member answer (.intro oracle open_ sound settles)

/-- What is settled can be settled from answers that do not ask for it again. -/
theorem exists_loopless (settles : env.Settles arena blocked operation answer) :
    ∃ oracle : Oracle,
      (∀ {β : Type} (asked : Operation β) (reply : β), oracle.answer? asked = some reply →
        env.Settles arena (insert ⟨α, operation⟩ blocked) asked reply) ∧
      env.settle arena oracle operation = some answer := by
  by_contra looping
  -- then no derivation meets the operation at all
  have avoids {β : Type} {asked : Operation β} {reply : β}
      (asks : env.Settles arena blocked asked reply) :
      env.Settles arena (insert ⟨α, operation⟩ blocked) asked reply := by
    induction asks with
    | @intro β asked reply oracle open_ sound found ih =>
      refine .intro oracle (fun member => ?_) ih found
      rcases member with same | member
      · cases same
        refine looping ⟨oracle, ih, ?_⟩
        rw [found, settles.unique (.intro oracle open_ sound found)]
      · exact open_ member
  obtain ⟨_, open_, _⟩ := avoids settles
  exact open_ (Set.mem_insert _ _)

end Environment.Settles

/-! ## All that is settled -/

open Classical in
/-- The oracle that knows everything that is settled. -/
noncomputable def Environment.settlement (environment : Environment) (arena : Arena) : Oracle where
  answer? operation :=
    if settled : ∃ answer, environment.Settles arena ∅ operation answer then
      some settled.choose
    else none

theorem Environment.answer?_settlement_iff :
    (env.settlement arena).answer? operation = some answer ↔
      env.Settles arena ∅ operation answer := by
  unfold settlement
  dsimp only
  split
  · rename_i settled
    have settles := settled.choose_spec
    constructor
    · intro same
      cases same
      exact settles
    · intro other
      rw [settles.unique other]
  · rename_i unsettled
    constructor
    · intro same
      cases same
    · intro settles
      exact absurd ⟨answer, settles⟩ unsettled

end TypeInference
