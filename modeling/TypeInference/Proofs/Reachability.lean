import TypeInference.Proofs.Judgement.Fuel
import TypeInference.Proofs.WellFormed.Check
import TypeInference.Tree

/-!
# Well-formed requests

Whatever operations a request is asked for, as long as they are applied to what is
within its scope: its world stays well formed, its arena only grows, every answer is
within the scope, and nothing is ever looked up in vain.  All that is needed of the
tree is that its programs stay within the scope, too.

This is proved for a limited fuel first, by induction on the limit: with more fuel
the engine asks an engine of less fuel.  On the way it turns out that a request that
has had enough fuel is not changed by more of it.
-/

namespace TypeInference

/-- Nothing is kept but that an arena is as large as a tree takes for granted. -/
def Upkeep.spanning (base : Nat) : Upkeep where
  Invariant := fun arena _ => base ≤ arena.size
  Callee := fun _ => True
  Matching := True
  met := fun _ _ => ⟨fun _ => trivial, fun _ => trivial⟩
  interned := fun _ _ larger => Nat.le_trans larger (Arena.size_le_of_le (Arena.le_intern _ _))

namespace Judgement

variable {environment : Environment} {base limit : Nat}

/-- Programs within the scope of the tree stay within the scope. -/
theorem faultless_yields_run (answers : ∀ {β : Type} (operation : Operation β) bound,
      (faultless environment (.spanning base) limit).Answers bound operation fun fuel =>
        (environment.stage fuel).ask operation)
    (inScope : ∀ later, base ≤ later → program.InScope environment.declarations later)
    (bound : Nat) :
    (faultless environment (.spanning base) limit).Yields bound fun fuel =>
      (environment.stage fuel).runProgram program :=
  keeps_of_admitted fun _ admitted _ => yields_run answers (inScope _ admitted.invariant)

/-- The engine serves if it answers what it is asked. -/
theorem faultless_serves (provider : environment.provider.InScope environment.declarations base)
    (answers : ∀ {β : Type} (operation : Operation β) bound,
      (faultless environment (.spanning base) limit).Answers bound operation fun fuel =>
        (environment.stage fuel).ask operation) :
    (faultless environment (.spanning base) limit).Serves where
  reads :=
    { node := fun bound node => answers (.inferNode node) bound trivial
      name := fun bound name =>
        faultless_yields_run answers (fun later => provider.names later name) bound }
  bodies := fun _ execution _ within =>
    keeps_of_admitted fun _ admitted larger => yields_run answers
      (provider.bodies _ execution admitted.invariant (within.grow larger))
  notes := fun larger _ _ => larger
  executes := fun bound set arguments setWithin argumentsWithin =>
    answers (.execute set arguments) bound ⟨setWithin, argumentsWithin⟩

/-- Operations within the scope are answered within the scope, with any fuel up to any limit. -/
theorem faultless_performs (provider : environment.provider.InScope environment.declarations base)
    (limit : Nat) (operation : Operation α) (bound : Nat) :
    (faultless environment (.spanning base) limit).Answers bound operation fun fuel =>
      (environment.stage fuel).perform operation := by
  induction limit using Nat.strongRecOn generalizing α bound with
  | ind limit ih =>
    have answers : ∀ {β : Type} (operation : Operation β) bound,
        (faultless environment (.spanning base) limit).Answers bound operation fun fuel =>
          (environment.stage fuel).ask operation :=
      fun operation bound => faultless_asks fun smaller below => ih smaller below operation bound
    have nodes := fun bound node =>
      faultless_yields_run answers (fun later => provider.nodes later node) bound
    have grown : ∀ {arena : Arena} (stored : Value), base ≤ arena.size →
        base ≤ (arena.intern stored).2.size :=
      fun _ larger => Nat.le_trans larger (Arena.size_le_of_le (Arena.le_intern _ _))
    have serves := faultless_serves provider answers
    cases internsFunctions : operation.internsFunctions with
    | false => exact serves.performs nodes internsFunctions bound
    | true =>
      cases operation with
      | intern stored =>
        exact fun inScope => yields_intern_of_invariant inScope (grown stored)
      | readAttribute set name =>
        refine fun inScope => yields_readAttribute serves.reads ?_ ?_ inScope name
        · exact fun _ larger => ⟨grown _ larger, fun _ => grown _ (grown _ larger)⟩
        · exact fun _ _ node within => yields_fieldValue serves.reads serves.calls within node
      | _ => cases internsFunctions

end Judgement

/-! ## Operations -/

section Operations

variable {environment : Environment} {base : Nat} {α : Type} {state : State}

variable {operation : Operation α}

section

variable (provider : environment.provider.InScope environment.declarations base)
  (larger : base ≤ state.arena.size) (wellFormed : state.WellFormed environment.declarations)
  (inScope : operation.InScope environment.declarations state.arena.size)

include provider larger wellFormed inScope

/-- The outcomes of an operation within the scope, and what more fuel makes of them. -/
theorem answer_sound (fuel : Nat) :
    (∀ fault, environment.answer fuel operation state = .error fault → fault = .outOfFuel) ∧
      ∀ answer after, environment.answer fuel operation state = .ok (answer, after) →
        after.WellFormed environment.declarations ∧
          state.arena ≤ after.arena ∧
          operation.Answers environment.declarations after.arena.size answer ∧
          environment.answer (fuel + 1) operation state = .ok (answer, after) := by
  have performed := Judgement.faultless_performs provider fuel operation state.arena.size inScope
    state ⟨wellFormed, larger⟩ (Nat.le_refl _) fuel (Nat.le_refl _)
  simp only [environment.stage_eq_engine] at performed
  refine ⟨performed.1, fun answer after success => ?_⟩
  obtain ⟨⟨admitted, continues, answered⟩, again⟩ := performed.2 (answer, after) success
  exact ⟨admitted.wellFormed, continues, answered, again⟩

end

end Operations

/-! ## Requests -/

/-- The states that a request gets to when it is asked for operations within its scope. -/
inductive Environment.Reaches (environment : Environment) (arena : Arena) : State → Prop where
  | start : environment.Reaches arena (environment.start arena)
  | step
      {α : Type}
      {operation : Operation α}
      {fuel : Nat}
      {state after : State}
      {answer : α}
      (reached : environment.Reaches arena state)
      (inScope : operation.InScope environment.declarations state.arena.size)
      (answered : environment.answer fuel operation state = .ok (answer, after)) :
      environment.Reaches arena after

section Requests

variable {environment : Environment} {arena : Arena} {state : State}

/-- Every state of a request is well formed and continues the arena it started with. -/
theorem Environment.Reaches.wellFormed
    (wellFormed : World.WellFormed ⟨arena, environment.declarations⟩)
    (provider : environment.provider.InScope environment.declarations arena.size)
    (reached : environment.Reaches arena state) :
    state.WellFormed environment.declarations ∧ arena ≤ state.arena := by
  induction reached with
  | start => exact ⟨State.WellFormed.ofWorld wellFormed _, Arena.le_refl arena⟩
  | @step _ _ fuel _ _ _ _ inScope answered ih =>
    obtain ⟨stateWellFormed, continues⟩ := ih
    have sound := answer_sound provider (Arena.size_le_of_le continues) stateWellFormed inScope fuel
    obtain ⟨afterWellFormed, continuesFurther, -⟩ := sound.2 _ _ answered
    exact ⟨afterWellFormed, Arena.le_trans continues continuesFurther⟩

/--
Whatever operations within its scope a request was asked for, its world is well
formed and its arena begins with the one it started with.  The next such operation
keeps this and answers within the scope, or it lacks fuel; no look-up fails.
-/
theorem wellFormed_and_answers_of_reaches
    (wellFormed : World.WellFormed ⟨arena, environment.declarations⟩)
    (provider : environment.provider.InScope environment.declarations arena.size)
    (reached : environment.Reaches arena state) :
    World.WellFormed ⟨state.arena, environment.declarations⟩ ∧
      arena ≤ state.arena ∧
      ∀ {α : Type} (operation : Operation α) (fuel : Nat),
        operation.InScope environment.declarations state.arena.size →
        match environment.answer fuel operation state with
        | .ok (answer, after) =>
          World.WellFormed ⟨after.arena, environment.declarations⟩ ∧
            state.arena ≤ after.arena ∧
            operation.Answers environment.declarations after.arena.size answer
        | .error fault => fault = .outOfFuel := by
  obtain ⟨stateWellFormed, continues⟩ := reached.wellFormed wellFormed provider
  refine ⟨stateWellFormed.world, continues, ?_⟩
  intro α operation fuel inScope
  obtain ⟨fails, succeeds⟩ :=
    answer_sound provider (Arena.size_le_of_le continues) stateWellFormed inScope fuel
  split
  · rename_i answer after success
    obtain ⟨afterWellFormed, continuesFurther, answered, -⟩ := succeeds answer after success
    exact ⟨afterWellFormed.world, continuesFurther, answered⟩
  · rename_i fault failed
    exact fails fault failed

end Requests

/-! ## Trees of fixed nodes -/

/-- The sets that a tree knows are within the scope. -/
structure Tree.InScope (declarations : Declarations) (bound : Nat) (tree : Tree) : Prop where
  nodes : ∀ node, Within declarations bound (tree.fixedSet node)
  names : ∀ name set, tree.names.get? name = some set → Within declarations bound set

/-- Nothing is asked by a tree whose nodes are fixed and that has no bodies. -/
theorem Tree.InScope.fixedProvider {bound : Nat} {tree : Tree}
    (inScope : tree.InScope declarations bound) (bodiless : tree.bodies = ∅) :
    tree.fixedProvider.InScope declarations bound where
  nodes := fun _ node larger => (inScope.nodes node).grow larger
  names := by
    intro later name larger
    show Within declarations later ((tree.names.get? name).getD ∅)
    cases found : tree.names.get? name with
    | none => exact within_empty
    | some set => exact (inScope.names name set found).grow larger
  bodies := by
    intro later execution _ _
    have nothing : tree.fixedProvider.inferBody execution = .done ∅ := by
      show tree.bodyProgram execution = .done ∅
      unfold Tree.bodyProgram
      rw [bodiless]
      rfl
    rw [nothing]
    exact within_empty

/--
In the world every analysis starts from, with an empty tree, asking for the instances
of the first class leads to a state with one more value.
-/
theorem wellFormed_of_first_instances :
    let environment : Environment :=
      { declarations := World.initial.declarations, provider := Tree.fixedProvider {} }
    ∃ state, environment.Reaches World.initial.arena state ∧
      state.arena.size = World.initial.arena.size + 1 ∧
      World.WellFormed ⟨state.arena, environment.declarations⟩ ∧
      World.initial.arena ≤ state.arena := by
  intro environment
  have provider : environment.provider.InScope environment.declarations
      World.initial.arena.size :=
    Tree.InScope.fixedProvider ⟨fun _ => within_empty, fun _ _ found => nomatch found⟩ rfl
  have firstWithin : Within environment.declarations World.initial.arena.size
      (TypeSet.singleton ⟨3⟩) := by decide +kernel
  obtain ⟨answer, state, success, size⟩ : ∃ answer state,
      environment.answer 0 (.instances (.singleton ⟨3⟩)) (environment.start World.initial.arena) =
        .ok (answer, state) ∧ state.arena.size = World.initial.arena.size + 1 :=
    ⟨_, _, rfl, by decide +kernel⟩
  have reached : environment.Reaches World.initial.arena state := by
    refine .step .start ?_ success
    exact firstWithin
  have sound := wellFormed_and_answers_of_reaches World.initial_wellFormed provider reached
  exact ⟨state, reached, size, sound.1, sound.2.1⟩

end TypeInference
