import TypeInference.Proofs.Accessor.Binding
import TypeInference.Proofs.FixedTree.Arena
import TypeInference.Proofs.Replacement

/-!
# How the annotation of an accessor is seen

The annotation of a field is seen with the type arguments of the class object in which the
field was found.  The return annotation of a method is seen with the bindings of the call,
for which the classes of the receiver are searched anew, and it is left alone if it mentions
no variables.  For a method that takes its receiver only, the two come to the same.
-/

namespace TypeInference

open Inference

variable {state after : State} {env : Environment} {tree : Tree} {base : Nat}
  {receiver class_ : ValueId} {order : List Engine.Ancestor}

/-! ## How the annotation is seen -/

namespace Engine

variable (engine : Engine)

/-- An annotation, seen with the type arguments of a class object. -/
def fieldHint (owner : ValueId) (node : NodeId) : Inference TypeSet := do
  let hint ← engine.readHint node
  let bindings ← engine.classBindings owner
  engine.substitute hint bindings

/-- A return annotation, seen with the bindings of one call if it mentions variables. -/
def returnHint (function : FunctionId) (arguments : Arguments) (node : NodeId) :
    Inference TypeSet := do
  let hint ← engine.readHint node
  if (← engine.freeVariables hint).isEmpty then return hint
  else
    let bindings ← engine.inferVariables function arguments
    engine.substitute hint bindings

theorem fieldValue_eq (owner : ValueId) (node : NodeId) :
    engine.fieldValue owner node = (do engine.instances (← engine.fieldHint owner node)) := by
  unfold fieldValue fieldHint
  simp only [bind_assoc]

theorem annotatedReturn_eq (function : FunctionId) (arguments : Arguments) (node : NodeId) :
    engine.annotatedReturn function arguments node = (do
      engine.instances (← engine.returnHint function arguments node)) := by
  unfold annotatedReturn returnHint
  simp only [bind_assoc]
  refine bind_congr fun hint => bind_congr fun free => ?_
  split
  · rw [pure_bind]
  · simp only [bind_assoc]

end Engine

theorem parametric_fieldHint (owner : ValueId) (node : NodeId) :
    Parametric fun engine => engine.fieldHint owner node :=
  fun _ _ => (Pairing.fits_readHint node).bind fun hint =>
    (Pairing.fits_classBindings owner).bind fun bindings => Pairing.fits_substitute hint bindings

theorem parametric_returnHint (function : FunctionId) (arguments : Arguments) (node : NodeId) :
    Parametric fun engine => engine.returnHint function arguments node := by
  intro engine pairing discarding
  refine (Pairing.fits_readHint node).bind fun hint => ?_
  refine (Pairing.fits_freeVariables hint).bind fun free => ?_
  refine Pairing.fits_ite (pairing.fits_pure hint) ?_
  exact (Pairing.fits_inferVariables discarding function arguments).bind fun bindings =>
    Pairing.fits_substitute hint bindings

/-- The reader keeps what it has read. -/
theorem Environment.retains_reader (env : Environment) (operation : Operation α) :
    Conserves State.Retains (env.reader.ask operation) := by
  show Conserves State.Retains
    (if operation.isCall then throw .outOfFuel else (env.stage 1).ask operation)
  split
  · exact .throw _ _
  · exact (env.abides_stage State.Retains.conserved
      (fun _ asks => Engine.abides_retains asks) 1).asks operation

theorem State.Extends.retains (extends_ : state.Extends later) : state.Retains later :=
  ⟨extends_.value, extends_.subscript⟩

/-! ## The class objects that are searched -/

/-- The class objects in which the attributes of a value are looked up have been found. -/
structure Environment.Searched (environment : Environment) (tree : Tree) (base : Nat)
    (receiver class_ : ValueId) (order : List Engine.Ancestor) (state after : State) : Prop where
  receiverWithin : Within environment.declarations state.arena.size receiver
  classified : ∃ between,
    environment.Takes tree base (fun _ => Engine.classOf receiver) state (some class_) between ∧
      Within environment.declarations between.arena.size class_ ∧
      environment.Takes tree base (fun engine => engine.ancestors class_) between order after
  orderWithin : Within environment.declarations after.arena.size order

theorem Environment.Searched.continues
    (searched : env.Searched tree base receiver class_ order state after) :
    state.arena ≤ after.arena := by
  obtain ⟨_, classifies, _, reaches⟩ := searched.classified
  exact Arena.le_trans classifies.continues reaches.continues

section Searching

variable {env : Environment} {tree : Tree} {base : Nat} {receiver class_ : ValueId}
  {order : List Engine.Ancestor} {start found state : State}
  (provider : env.provider = tree.fixedProvider)
  (inScope : tree.InScope env.declarations base)
  (searched : env.Searched tree base receiver class_ order start found)
  (steady : env.Steady tree base state)
  (remembers : found.Extends state)
  (continues : found.arena ≤ state.arena)

include provider inScope searched steady remembers continues

/-- The search is repeated without a trace. -/
theorem Environment.Searched.again :
    ∃ after, env.Searched tree base receiver class_ order state after ∧
      env.Steady tree base after ∧ state.Quiet after := by
  obtain ⟨receiverWithin, ⟨between, classifies, classWithin, reaches⟩, orderWithin⟩ := searched
  have further := Arena.le_trans reaches.continues continues
  have receiverStill := receiverWithin.grow
    (Arena.size_le_of_le (Arena.le_trans classifies.continues further))
  obtain ⟨_, middle, classifiesAgain, _⟩ := exists_takes_classOf provider steady receiverStill
  obtain ⟨rfl, quiet⟩ := classifies.repeat (reaches.extends_.trans remembers) steady classifiesAgain
  have classStill := classWithin.grow
    (Arena.size_le_of_le (Arena.le_trans further classifiesAgain.continues))
  obtain ⟨_, after, reachesAgain, _⟩ :=
    exists_takes_ancestors provider inScope classifiesAgain.steady classStill
  obtain ⟨rfl, quietAfter⟩ :=
    reaches.repeat (remembers.trans quiet.extends) classifiesAgain.steady reachesAgain
  have orderStill := orderWithin.grow
    (Arena.size_le_of_le
      (Arena.le_trans continues (Arena.le_trans classifiesAgain.continues reachesAgain.continues)))
  exact ⟨after, ⟨receiverStill, ⟨middle, classifiesAgain, classStill, reachesAgain⟩, orderStill⟩,
    reachesAgain.steady, quiet.trans quietAfter⟩

variable {owner : Engine.Ancestor} {function : FunctionId} {declaration : FunctionDeclaration}
  {node : NodeId}
  (isFirst : order.find? (fun ancestor => ancestor.class_ == owner.class_) = some owner)
  (declared : env.declarations.function? function = some declaration)
  (accessor : declaration.IsAccessor owner.class_ node)

include isFirst

omit provider inScope steady remembers in
/-- The owner of the members is one of the class objects. -/
theorem Environment.Searched.ownerWithin : env.Scopes state.arena.size owner.value :=
  (searched.orderWithin owner (List.mem_of_find?_eq_some isFirst)).2.grow
    (Arena.size_le_of_le continues)

include declared accessor

/-- The bindings of a call are the type arguments of the owner. -/
theorem Environment.Searched.exists_inferVariables :
    ∃ bindings before between after,
      env.reader.inferVariables function (.bound receiver .empty) state = .ok (bindings, after) ∧
      before.arena = state.arena ∧ env.Steady tree base before ∧
      env.Takes tree base (fun engine => engine.classBindings owner.value) before bindings between ∧
      env.Scopes between.arena.size bindings ∧ between.Stands after := by
  obtain ⟨before, searchedAgain, beforeSteady, quiet⟩ :=
    searched.again provider inScope steady remembers continues
  obtain ⟨_, ⟨middle, classifies, _, reaches⟩, _⟩ := searchedAgain
  have ownerStill : env.Scopes before.arena.size owner.value := by
    rw [quiet.arena]
    exact searched.ownerWithin continues isFirst
  obtain ⟨bindings, between, binds, bindingsWithin⟩ :=
    exists_takes_classBindings provider inScope beforeSteady ownerStill
  obtain ⟨parameters, count, supplies⟩ :=
    exists_bindQuietly_receiver function declaration receiver between
  have seeds : env.reader.receiverBindings receiver owner.class_ state =
      .ok (bindings, between) := by
    refine (bind_of_ok classifies.ran).trans ?_
    have ancestor : env.reader.ancestor? class_ owner.class_ middle =
        .ok (some owner.value, before) := by
      refine (bind_of_ok reaches.ran).trans ?_
      rw [isFirst]
      rfl
    exact (bind_of_ok ancestor).trans binds.ran
  refine ⟨bindings, before, between,
    { between with
      cells := between.cells ++ Array.replicate count none
      events := between.events.push (.variablesInferred declaration.name bindings) },
    ?_, quiet.arena, beforeSteady, binds, bindingsWithin, rfl, rfl, rfl, rfl, rfl, count, rfl⟩
  have known : env.reader.declarations.function? function = some declaration := declared
  unfold Engine.inferVariables Engine.functionDeclaration
  simp only [known, pure_bind, accessor.owned]
  refine (bind_of_ok seeds).trans ?_
  refine (bind_of_ok (supplies env.reader known)).trans ?_
  rw [mergeOver_parameterBindings_of_isAccessor accessor, pure_bind, Substitution.merge_empty]
  rfl

end Searching

/-- A set is what a field is seen as, both before it was computed and ever after. -/
structure Environment.Sees (environment : Environment) (tree : Tree) (base : Nat) (owner : ValueId)
    (node : NodeId) (state : State) (set : TypeSet) (after : State) : Prop where
  within : Within environment.declarations after.arena.size set
  before : ∃ seen, environment.reader.fieldHint owner node state = .ok (set, seen) ∧
    seen.arena = after.arena
  later : ∀ {known}, after.Extends known → environment.Steady tree base known →
    after.arena ≤ known.arena →
    ∃ knownAfter, environment.reader.fieldHint owner node known = .ok (set, knownAfter) ∧
      known.Extends knownAfter ∧ knownAfter.nodeGuard.active = []

section Seeing

variable {env : Environment} {tree : Tree} {base : Nat} {owner : ValueId} {node : NodeId}
  {hint : TypeSet} {state read : State}
  (provider : env.provider = tree.fixedProvider)
  (inScope : tree.InScope env.declarations base)
  (reads : env.Takes tree base (fun engine => engine.readHint node) state hint read)
  (hintWithin : env.Scopes read.arena.size hint)

include provider inScope reads hintWithin

/-- An annotation without variables is seen as it is. -/
theorem Environment.sees_of_closed (ownerWithin : env.Scopes state.arena.size owner)
    (collects : env.Takes tree base (fun engine => engine.freeVariables hint) read [] after) :
    env.Sees tree base owner node state hint after := by
  have replaces {bindings : Substitution} {known : State} (remembers : after.Extends known) :
      env.reader.substitute hint bindings known = .ok (hint, known) :=
    substitute_eq_self env.retains_reader rfl collects.ran remembers.retains (by simp)
  have ownerRead := ownerWithin.grow (Arena.size_le_of_le reads.continues)
  have afterArena : after.arena = read.arena :=
    (peruses_freeVariables provider (consults_reader provider) hint _ _ _
      reads.steady.informs collects.ran).1
  refine ⟨hintWithin.grow (Arena.size_le_of_le collects.continues), ?_, ?_⟩
  · obtain ⟨bindings, bound, binds, bindingsWithin⟩ :=
      exists_takes_classBindings provider inScope reads.steady ownerRead
    obtain ⟨other, seen, replaced, _⟩ :=
      exists_takes_substitute provider inScope binds.steady
        (hintWithin.grow (Arena.size_le_of_le binds.continues)) bindingsWithin
    -- To have looked for variables before would have made no difference.
    obtain ⟨_, boundAfter, bindsAfter, _⟩ :=
      exists_takes_classBindings provider inScope collects.steady
        (ownerRead.grow (Arena.size_le_of_le collects.continues))
    obtain ⟨rfl, sameBound, _⟩ :=
      determines_classBindings provider (consults_reader provider) owner _ _ _ _ _ _
        reads.steady.informs collects.steady.informs afterArena binds.ran bindsAfter.ran
    obtain ⟨rfl, sameArena, _⟩ :=
      determines_substitute provider (consults_reader provider) hint _ _ _ _ _ _ _
        binds.steady.informs bindsAfter.steady.informs sameBound replaced.ran
        (replaces bindsAfter.extends_)
    have boundArena : boundAfter.arena = after.arena :=
      (peruses_classBindings provider (consults_reader provider) owner _ _ _
        collects.steady.informs bindsAfter.ran).1
    refine ⟨seen, ?_, sameArena.symm.trans boundArena⟩
    exact (bind_of_ok reads.ran).trans ((bind_of_ok binds.ran).trans replaced.ran)
  · intro known remembers knownSteady continues
    obtain ⟨_, knownRead, readsKnown, _⟩ := exists_takes_readHint provider inScope knownSteady node
    obtain ⟨rfl, quiet⟩ := reads.repeat (collects.extends_.trans remembers) knownSteady readsKnown
    have ownerStill : env.Scopes knownRead.arena.size owner := by
      refine ownerRead.grow ?_
      rw [quiet.arena]
      exact Arena.size_le_of_le (Arena.le_trans collects.continues continues)
    obtain ⟨bindings, knownAfter, binds, _⟩ :=
      exists_takes_classBindings provider inScope readsKnown.steady ownerStill
    have knownExtends := readsKnown.extends_.trans binds.extends_
    refine ⟨knownAfter, ?_, knownExtends, binds.steady.informs.idle⟩
    refine (bind_of_ok readsKnown.ran).trans ((bind_of_ok binds.ran).trans ?_)
    exact replaces (remembers.trans knownExtends)

/-- An annotation with variables is seen with the type arguments of the owner. -/
theorem Environment.sees_of_bindings {bindings : Substitution} {set : TypeSet}
    (ownerWithin : env.Scopes state.arena.size owner)
    (beforeArena : before.arena = read.arena) (beforeSteady : env.Steady tree base before)
    (binds : env.Takes tree base (fun engine => engine.classBindings owner) before bindings between)
    (stands : between.Stands supplied)
    (replaces : env.Takes tree base (fun engine => engine.substitute hint bindings)
      supplied set after)
    (setWithin : env.Scopes after.arena.size set) (remembersRead : read.Extends after) :
    env.Sees tree base owner node state set after := by
  refine ⟨setWithin, ?_, ?_⟩
  · obtain ⟨_, bound, bindsEarlier, bindingsWithin⟩ :=
      exists_takes_classBindings provider inScope reads.steady
        (ownerWithin.grow (Arena.size_le_of_le reads.continues))
    obtain ⟨_, seen, replaced, _⟩ :=
      exists_takes_substitute provider inScope bindsEarlier.steady
        (hintWithin.grow (Arena.size_le_of_le bindsEarlier.continues)) bindingsWithin
    obtain ⟨rfl, sameBound, _⟩ :=
      determines_classBindings provider (consults_reader provider) owner _ _ _ _ _ _
        reads.steady.informs beforeSteady.informs beforeArena bindsEarlier.ran binds.ran
    obtain ⟨rfl, sameArena, _⟩ :=
      determines_substitute provider (consults_reader provider) hint _ _ _ _ _ _ _
        bindsEarlier.steady.informs (stands.steady binds.steady).informs
        (stands.arena.trans sameBound) replaced.ran replaces.ran
    refine ⟨seen, ?_, sameArena.symm⟩
    exact (bind_of_ok reads.ran).trans ((bind_of_ok bindsEarlier.ran).trans replaced.ran)
  · intro known remembers knownSteady continues
    obtain ⟨knownRead, readsKnown, readQuiet⟩ :=
      reads.again (remembersRead.trans remembers) knownSteady.informs.idle
    have boundRemembered := stands.extends.trans (replaces.extends_.trans remembers)
    obtain ⟨knownBound, bindsKnown, boundQuiet⟩ :=
      binds.again (boundRemembered.trans readQuiet.extends)
        (readQuiet.nodeGuard ▸ knownSteady.informs.idle)
    have quiet := readQuiet.trans boundQuiet
    obtain ⟨knownAfter, replacesKnown, replacedQuiet⟩ :=
      replaces.again (remembers.trans quiet.extends) (quiet.nodeGuard ▸ knownSteady.informs.idle)
    have quietAfter := quiet.trans replacedQuiet
    refine ⟨knownAfter, ?_, quietAfter.extends, quietAfter.nodeGuard ▸ knownSteady.informs.idle⟩
    exact (bind_of_ok readsKnown).trans ((bind_of_ok bindsKnown).trans replacesKnown)

end Seeing

/-- The annotation of an accessor is seen as that of a field of its class. -/
theorem Environment.Searched.exists_returnHint {start found : State} {node : NodeId}
    (provider : env.provider = tree.fixedProvider) (inScope : tree.InScope env.declarations base)
    (searched : env.Searched tree base receiver class_ order start found)
    (isFirst : order.find? (fun ancestor => ancestor.class_ == owner.class_) = some owner)
    (declared : env.declarations.function? function = some declaration)
    (accessor : declaration.IsAccessor owner.class_ node) (steady : env.Steady tree base state)
    (remembers : found.Extends state) (continues : found.arena ≤ state.arena) :
    ∃ set after,
      env.Takes tree base
        (fun engine => engine.returnHint function (.bound receiver .empty) node) state set after ∧
      env.Sees tree base owner.value node state set after := by
  obtain ⟨hint, read, reads, hintWithin⟩ := exists_takes_readHint provider inScope steady node
  obtain ⟨free, collected, collects⟩ :=
    exists_takes_freeVariables provider inScope reads.steady hintWithin
  have collectedContinues := Arena.le_trans reads.continues collects.continues
  have taken {set : TypeSet} {after : State}
      (ran : env.reader.returnHint function (.bound receiver .empty) node state = .ok (set, after))
      (afterSteady : env.Steady tree base after)
      (further : collected.arena ≤ after.arena) :
      env.Takes tree base
        (fun engine => engine.returnHint function (.bound receiver .empty) node) state set after :=
    takes_of_ran provider (parametric_returnHint function (.bound receiver .empty) node) steady ran
      afterSteady.admitted (Arena.le_trans collectedContinues further)
  by_cases closed : free.isEmpty = true
  · cases List.isEmpty_iff.mp closed
    refine ⟨hint, collected, taken ?_ collects.steady (Arena.le_refl _), ?_⟩
    · exact (bind_of_ok reads.ran).trans (bind_of_ok collects.ran)
    · exact sees_of_closed provider inScope reads hintWithin
        (searched.ownerWithin continues isFirst) collects
  · have collectedRemembers := remembers.trans (reads.extends_.trans collects.extends_)
    obtain ⟨bindings, before, between, supplied, infers, beforeArena, beforeSteady, binds,
        bindingsWithin, stands⟩ :=
      searched.exists_inferVariables provider inScope collects.steady collectedRemembers
        (Arena.le_trans continues collectedContinues) isFirst declared accessor
    have suppliedContinues : collected.arena ≤ supplied.arena := by
      rw [stands.arena, ← beforeArena]
      exact binds.continues
    have suppliedWithin :=
      bindingsWithin.grow (Nat.le_of_eq (congrArg Arena.size stands.arena.symm))
    obtain ⟨set, after, replaces, setWithin⟩ :=
      exists_takes_substitute provider inScope (stands.steady binds.steady)
        (hintWithin.grow (Arena.size_le_of_le
          (Arena.le_trans collects.continues suppliedContinues)))
        suppliedWithin
    have parametric :
        Parametric fun engine => engine.inferVariables function (.bound receiver .empty) :=
      fun _ discarding => Pairing.fits_inferVariables discarding function (.bound receiver .empty)
    have suppliedRemembers : collected.Extends supplied :=
      ((repeats_reader provider parametric).learns infers).extends_ collects.steady.informs.idle
    have collectedArena : collected.arena = read.arena :=
      (peruses_freeVariables provider (consults_reader provider) hint _ _ _
        reads.steady.informs collects.ran).1
    refine ⟨set, after, taken ?_ replaces.steady
      (Arena.le_trans suppliedContinues replaces.continues), ?_⟩
    · refine (bind_of_ok reads.ran).trans ((bind_of_ok collects.ran).trans ?_)
      rw [if_neg closed]
      exact (bind_of_ok infers).trans replaces.ran
    · exact sees_of_bindings provider inScope reads hintWithin
        (searched.ownerWithin continues isFirst) (beforeArena.trans collectedArena) beforeSteady
        binds stands replaces setWithin
        (collects.extends_.trans (suppliedRemembers.trans replaces.extends_))

end TypeInference
