import TypeInference.Engine.Iteration

/-!
# Parts of deferred values

A deferred value is made of parts, and a recipe says how its answer comes from theirs.
What holds of a deferred value as soon as it holds of its parts holds of all of them.
-/

namespace TypeInference

open Inference

namespace Deferred

/-- The deferred values that a deferred value is made of. -/
def parts : Deferred → List Deferred
  | node _ _ | known _ _ | unknown _ => []
  | merged _ parts | packedTuple _ parts => parts
  | packedDict _ entries => entries.map Prod.snd

theorem sizeOf_lt_of_mem_parts {deferred part : Deferred} (isPart : part ∈ deferred.parts) :
    sizeOf part < sizeOf deferred := by
  cases deferred with
  | node | known | unknown => cases isPart
  | merged cell parts | packedTuple cell parts =>
    have smaller : sizeOf part < sizeOf parts := List.sizeOf_lt_of_mem isPart
    simp only [merged.sizeOf_spec, packedTuple.sizeOf_spec]
    omega
  | packedDict cell entries =>
    obtain ⟨⟨key, part⟩, isEntry, rfl⟩ := List.mem_map.mp isPart
    have smaller := List.sizeOf_lt_of_mem isEntry
    simp only [packedDict.sizeOf_spec, Prod.mk.sizeOf_spec] at smaller ⊢
    omega

theorem induction_on_parts {motive : Deferred → Prop}
    (each : ∀ deferred, (∀ part ∈ deferred.parts, motive part) → motive deferred)
    (deferred : Deferred) : motive deferred :=
  each deferred fun part isPart =>
    have := sizeOf_lt_of_mem_parts isPart
    induction_on_parts each part
termination_by sizeOf deferred

/-- How an answer comes from the answers of the parts. -/
inductive Recipe where
  | infer (node : NodeId)
  | take (set : TypeSet)
  | unite
  | pack (packed : List TypeSet → Value)

def recipe : Deferred → Recipe
  | node _ source => .infer source
  | known _ set => .take set
  | unknown _ => .take ∅
  | merged _ _ => .unite
  | packedTuple _ _ => .pack .packedTuple
  | packedDict _ entries => .pack fun sets => .packedDict ((entries.map Prod.fst).zip sets)

end Deferred

namespace Engine

variable (engine : Engine)

theorem resolveAll_eq (parts : List Deferred) :
    engine.resolveAll parts = parts.mapM engine.resolve := by
  induction parts with
  | nil => rw [resolveAll, List.mapM_nil]
  | cons part rest ih => rw [resolveAll, ih, List.mapM_cons]

theorem resolveEntries_eq (entries : List (String × Deferred)) :
    engine.resolveEntries entries = (do
      return (entries.map Prod.fst).zip (← (entries.map Prod.snd).mapM engine.resolve)) := by
  induction entries with
  | nil => simp [resolveEntries]
  | cons entry rest ih => simp [resolveEntries, ih]

/-- Find an answer by its recipe. -/
def follow (parts : List Deferred) : Deferred.Recipe → Inference TypeSet
  | .infer node => engine.inferNode node
  | .take set => pure set
  | .unite => do return .unions (← parts.mapM engine.resolve)
  | .pack packed => do internSet (packed (← parts.mapM engine.resolve))

/-- A deferred value is resolved by its recipe, unless its cell remembers the answer. -/
theorem resolve_eq (deferred : Deferred) :
    engine.resolve deferred =
      remember deferred.cell (engine.follow deferred.parts deferred.recipe) := by
  cases deferred with
  | node | known | unknown => rw [resolve]; rfl
  | merged | packedTuple => rw [resolve, resolveAll_eq]; rfl
  | packedDict =>
    rw [resolve, resolveEntries_eq]
    simp only [bind_assoc, pure_bind]
    rfl

end Engine

end TypeInference
