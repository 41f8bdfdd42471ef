import TypeInference.Proofs.FixedTree.Step
import TypeInference.Proofs.Replacement

/-!
# Finding instances is a projection

Instances describe themselves, so that nothing happens when the instances of instances are
found.  Hence it is enough that only instances are found in the place of annotations that
describe nothing else, however they nest and wherever the levels come to an end.
-/

namespace TypeInference

open Inference

variable {state : State} {set : TypeSet}

namespace Engine

/-- Instances describe themselves. -/
theorem valueInstances_of_holdsInstance (engine : Engine) (nested : TypeSet → Inference TypeSet)
    {id : ValueId} (holds : state.arena.HoldsInstance id) :
    engine.valueInstances nested id state = .ok (.singleton id, state) := by
  obtain ⟨stored, found, isInstance⟩ := holds
  unfold Engine.valueInstances
  rw [bind_of_ok (value_of_get? found)]
  cases stored with
  | instanceOf _ _ | tuple _ | callable _ | packedTuple _ | packedDict _ | typedDict _ | none => rfl
  | _ => cases isInstance

/-- The instances of a set of instances are that set. -/
theorem instances_of_holdInstances (engine : Engine)
    (hold : ∀ id ∈ set, state.arena.HoldsInstance id) :
    engine.instances set state = .ok (set, state) := by
  obtain ⟨united, unites, members⟩ := unionOver_singletons fun id member =>
    engine.valueInstances_of_holdsInstance
      (engine.instancesWithin engine.settings.unificationDepthLimit) (hold id member)
  have same : united = set := TypeSet.ext_mem members
  rw [same] at unites
  exact unites

end Engine

/--
Over a tree of fixed nodes, and whatever the limits are, finding instances is a projection.
Suppose that all that is met on the way from a set through unions, optional values, class
variables and what type variables fall back to describes instances only.  Then instances
are found, whether or not the levels suffice, and the instances of these are themselves.
-/
theorem instances_is_projection
    {environment : Environment}
    {tree : Tree}
    {base : Nat}
    (provider : environment.provider = tree.fixedProvider)
    (inScope : tree.InScope environment.declarations base)
    (steady : environment.Steady tree base state)
    (within : Within environment.declarations state.arena.size set)
    (meets : tree.MeetsDescriptions environment.declarations state.arena
      (environment.settings.unificationDepthLimit + 1) set) :
    ∃ found after,
      (∀ fuel, environment.answer (fuel + 1) (.instances set) state = .ok (found, after)) ∧
      (∀ id ∈ found, ∃ stored, after.arena.get? id = some stored ∧ stored.isInstance = true) ∧
      ∀ fuel, environment.answer fuel (.instances found) after = .ok (found, after) := by
  obtain ⟨found, after, takes, hold⟩ :=
    Environment.exists_takes_described provider inScope steady within meets.meetsNoFunction
  have instances : ∀ id ∈ found, after.arena.HoldsInstance id :=
    fun id member => hold id member meets
  refine ⟨found, after, fun fuel => ?_, instances, fun fuel => ?_⟩
  · exact environment.refines_reader (fun _ _ => Pairing.fits_instances set) fuel _ _ takes.ran
  · exact (environment.engine fuel).instances_of_holdInstances instances

/-- The arena every analysis starts from, with an alias for what is optional. -/
def Arena.recursiveAlias : Arena :=
  World.initial.arena.push (.special .optional (.lazy ⟨0⟩))

/-- The alias stands for an integer or for what is optionally such an alias. -/
def Tree.recursiveAlias : Tree :=
  { nodes := #[.fixed (.ofList [⟨4⟩, ⟨19⟩])] }

/-- An alias that refers to itself has instances all the same. -/
theorem instances_is_projection_of_recursiveAlias :
    let environment : Environment :=
      { declarations := World.initial.declarations, provider := Tree.recursiveAlias.fixedProvider }
    ∃ found after,
      (∀ fuel, environment.answer (fuel + 1) (.instances (.singleton ⟨19⟩))
        (environment.start Arena.recursiveAlias) = .ok (found, after)) ∧
      (∀ id ∈ found, ∃ stored, after.arena.get? id = some stored ∧ stored.isInstance = true) ∧
      ∀ fuel, environment.answer fuel (.instances found) after = .ok (found, after) := by
  intro environment
  have world : World.WellFormed ⟨Arena.recursiveAlias, environment.declarations⟩ :=
    .ofChecks (by decide +kernel) (by decide +kernel)
  have inScope : Tree.recursiveAlias.InScope environment.declarations
      Arena.recursiveAlias.size := by
    refine ⟨fun node => ?_, fun _ _ found => by cases found⟩
    rcases node with ⟨_ | _⟩
    · decide +kernel
    · exact within_empty
  have integer : Arena.recursiveAlias.get? ⟨4⟩ = some (.classObject Builtin.int) := by
    decide +kernel
  have optional : Arena.recursiveAlias.get? ⟨19⟩ = some (.special .optional (.lazy ⟨0⟩)) := by
    decide +kernel
  have nested : Tree.recursiveAlias.nested? environment.declarations Arena.recursiveAlias
      (.special .optional (.lazy ⟨0⟩)) = some [.ofList [⟨4⟩, ⟨19⟩]] := by decide +kernel
  have meets : Tree.recursiveAlias.MeetsDescriptions environment.declarations
      Arena.recursiveAlias 33 (.singleton ⟨19⟩) := by
    refine .of_closed (fun set => set = .singleton ⟨19⟩ ∨ set = .ofList [⟨4⟩, ⟨19⟩]) ?_ (.inl rfl)
    intro set isClosed id member stored found
    have isMember : id = ⟨4⟩ ∨ id = ⟨19⟩ := by
      rcases isClosed with rfl | rfl
      · exact .inr (TypeSet.mem_singleton.mp member)
      · simpa using List.mem_cons.mp member
    rcases isMember with rfl | rfl
    · cases integer.symm.trans found
      refine ⟨rfl, fun sets sets? part partMember => ?_⟩
      cases sets?
      cases partMember
    · cases optional.symm.trans found
      refine ⟨rfl, fun sets sets? part partMember => ?_⟩
      cases nested.symm.trans sets?
      exact .inr (List.mem_singleton.mp partMember)
  have within : Within environment.declarations Arena.recursiveAlias.size
      (TypeSet.singleton ⟨19⟩) := by decide +kernel
  exact instances_is_projection rfl inScope (.start world) within meets

end TypeInference
