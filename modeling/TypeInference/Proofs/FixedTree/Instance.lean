import TypeInference.Proofs.FixedTree.Reader
import TypeInference.Proofs.Recovery.Variable
import TypeInference.Proofs.Termination

/-!
# Annotations whose instances are found without a call

The instances of a class-level set are found by walking through typing forms and through
what type variables fall back to.  Over a tree of fixed nodes it can be told beforehand
which values this meets, and if there are no functions among them, then the walk makes no
calls and comes to an end.  If there are no annotations among them either that describe
values other than instances, then it finds instances only.
-/

namespace TypeInference

open Inference

variable {α : Type} {levels : Nat} {set : TypeSet} {generics : Generics}

/-- Instance-level values, but for functions and literals. -/
def Value.isInstance : Value → Bool
  | .instanceOf _ _ | .tuple _ | .callable _ | .packedTuple _ | .packedDict _ | .typedDict _
  | .none => true
  | _ => false

/-- Values that describe no other values than instances. -/
def Value.describesInstances : Value → Bool
  | .special .type _ | .exactly _ | .function _ | .overloaded _ | .boundMethod _ _ => false
  | _ => true

theorem Value.isFunction_eq_false_of_describesInstances {stored : Value}
    (describes : stored.describesInstances = true) :
    stored.isFunction = false := by
  cases stored with
  | function _ | overloaded _ | boundMethod _ _ => cases describes
  | _ => rfl

def Arena.HoldsInstance (arena : Arena) (id : ValueId) : Prop :=
  ∃ stored, arena.get? id = some stored ∧ stored.isInstance = true

theorem Arena.HoldsInstance.mono {arena later : Arena} {id : ValueId}
    (holds : arena.HoldsInstance id) (continues : arena ≤ later) :
    later.HoldsInstance id :=
  holds.imp fun _ both => ⟨Arena.get?_of_le continues both.1, both.2⟩

theorem Declarations.isInstance_instance (declarations : Declarations) (class_ : ClassId)
    (generics : Generics) :
    (declarations.instance class_ generics).isInstance = true := by
  unfold Declarations.instance
  split
  · rfl
  · split <;> rfl

namespace Tree

section Visits

variable (tree : Tree) (declarations : Declarations) (arena : Arena)

/-- The sets whose instances are those of a value, if their values have been interned. -/
def nested? : Value → Option (List TypeSet)
  | .special .union generics | .special .optional generics =>
    (tree.typeArguments? arena generics).map TypeArguments.slots
  | .special .classVar generics =>
    (tree.typeArguments? arena generics).map fun arguments => [arguments.slot 0]
  | .typeVariable variable_ => some [declarations.typeVariables.fallback variable_]
  | _ => some []

/-- The values that are met when the instances of a set are found within some levels. -/
inductive Visits : Nat → TypeSet → ValueId → Prop where
  | member {levels : Nat} {set : TypeSet} {id : ValueId} :
    id ∈ set → Visits (levels + 1) set id
  | nested {levels : Nat} {set part : TypeSet} {sets : List TypeSet} {id visited : ValueId}
      {stored : Value} :
    id ∈ set → arena.get? id = some stored → tree.nested? declarations arena stored = some sets →
    part ∈ sets → Visits levels part visited → Visits (levels + 1) set visited

/-- No function and no method is met when the instances of a set are found. -/
def MeetsNoFunction (levels : Nat) (set : TypeSet) : Prop :=
  ∀ id stored, tree.Visits declarations arena levels set id → arena.get? id = some stored →
    stored.isFunction = false

/-- Whatever is met when the instances of a set are found is acceptable. -/
def Meets (accepts : Value → Prop) (levels : Nat) (set : TypeSet) : Prop :=
  ∀ id stored, tree.Visits declarations arena levels set id → arena.get? id = some stored →
    accepts stored

/-- Whatever is met when the instances of a set are found describes instances only. -/
def MeetsDescriptions (levels : Nat) (set : TypeSet) : Prop :=
  tree.Meets declarations arena (fun stored => stored.describesInstances = true) levels set

end Visits

variable {tree : Tree} {declarations : Declarations} {arena : Arena}

section Meets

variable {accepts : Value → Prop} {part : TypeSet} {sets : List TypeSet} {id : ValueId}
  {stored : Value}

theorem Meets.nested (meets : tree.Meets declarations arena accepts (levels + 1) set)
    (member : id ∈ set) (found : arena.get? id = some stored)
    (sets? : tree.nested? declarations arena stored = some sets) (partMember : part ∈ sets) :
    tree.Meets declarations arena accepts levels part :=
  fun visited other visits otherFound =>
    meets visited other (.nested member found sets? partMember visits) otherFound

theorem Meets.of_members
    (members : ∀ id ∈ set, ∀ stored, arena.get? id = some stored → accepts stored ∧
      ∀ sets, tree.nested? declarations arena stored = some sets →
        ∀ part ∈ sets, tree.Meets declarations arena accepts levels part) :
    tree.Meets declarations arena accepts (levels + 1) set := by
  intro visited stored visits found
  cases visits with
  | member isMember => exact (members visited isMember stored found).1
  | nested isMember idFound sets? partMember visits =>
    exact (members _ isMember _ idFound).2 _ sets? _ partMember visited stored visits found

/-- Sets that lead to one another only meet what is acceptable, however deep the walk goes. -/
theorem Meets.of_closed (closed : TypeSet → Prop)
    (members : ∀ set, closed set → ∀ id ∈ set, ∀ stored, arena.get? id = some stored →
      accepts stored ∧ ∀ sets, tree.nested? declarations arena stored = some sets →
        ∀ part ∈ sets, closed part)
    (isClosed : closed set) :
    tree.Meets declarations arena accepts levels set := by
  induction levels generalizing set with
  | zero =>
    intro visited stored visits
    cases visits
  | succ levels ih =>
    apply Meets.of_members
    intro id member stored found
    obtain ⟨accepted, parts⟩ := members set isClosed id member stored found
    exact ⟨accepted, fun sets sets? part partMember => ih (parts sets sets? part partMember)⟩

theorem MeetsNoFunction.nested (meets : tree.MeetsNoFunction declarations arena (levels + 1) set)
    (member : id ∈ set) (found : arena.get? id = some stored)
    (sets? : tree.nested? declarations arena stored = some sets) (partMember : part ∈ sets) :
    tree.MeetsNoFunction declarations arena levels part :=
  Meets.nested meets member found sets? partMember

theorem MeetsNoFunction.of_members
    (members : ∀ id ∈ set, ∀ stored, arena.get? id = some stored → stored.isFunction = false ∧
      ∀ sets, tree.nested? declarations arena stored = some sets →
        ∀ part ∈ sets, tree.MeetsNoFunction declarations arena levels part) :
    tree.MeetsNoFunction declarations arena (levels + 1) set :=
  Meets.of_members members

theorem MeetsDescriptions.meetsNoFunction
    (meets : tree.MeetsDescriptions declarations arena levels set) :
    tree.MeetsNoFunction declarations arena levels set :=
  fun id stored visits found =>
    Value.isFunction_eq_false_of_describesInstances (meets id stored visits found)

end Meets

/-! ## Trees within the scope -/

section Scope

variable (inScope : tree.InScope declarations arena.size)

include inScope

theorem InScope.followed (source : String) :
    Within declarations arena.size (tree.followed source) := by
  unfold Tree.followed
  split
  · exact inScope.nodes _
  · cases found : tree.names.get? (Text.trim source) with
    | none => exact within_empty
    | some set => exact inScope.names _ set found

theorem InScope.exists_hint? (node : NodeId) :
    ∃ set, tree.hint? arena node = some set ∧ Within declarations arena.size set := by
  unfold Tree.hint?
  cases single : (tree.fixedSet node).single? with
  | none => exact ⟨_, rfl, inScope.nodes node⟩
  | some id =>
    obtain ⟨stored, found⟩ := Arena.exists_get? (within_single? (inScope.nodes node) single)
    simp only [found]
    cases stored with
    | literal source => exact ⟨_, rfl, inScope.followed source⟩
    | _ => exact ⟨_, rfl, inScope.nodes node⟩

theorem InScope.exists_hints? (nodes : List NodeId) :
    ∃ sets, nodes.mapM (tree.hint? arena) = some sets ∧ Within declarations arena.size sets := by
  induction nodes with
  | nil => exact ⟨[], rfl, within_nil⟩
  | cons node rest ih =>
    obtain ⟨first, evaluates, firstWithin⟩ := inScope.exists_hint? node
    obtain ⟨others, evaluate, othersWithin⟩ := ih
    exact ⟨first :: others, by simp [evaluates, evaluate],
      within_cons.mpr ⟨firstWithin, othersWithin⟩⟩

theorem InScope.exists_typeArguments? (within : Within declarations arena.size generics) :
    ∃ arguments, tree.typeArguments? arena generics = some arguments ∧
      Within declarations arena.size arguments := by
  cases generics with
  | resolved arguments => exact ⟨arguments, rfl, within⟩
  | lazy node =>
    obtain ⟨slots, evaluate, slotsWithin⟩ :=
      inScope.exists_hints? ((tree.subscripts.get? node).getD [node])
    exact ⟨_, Option.map_eq_some_iff.mpr ⟨slots, evaluate, rfl⟩,
      @Judgement.within_ofSubscript _ ⟨declarations, tree.fixedProvider, {}⟩ _ slotsWithin⟩

end Scope

end Tree

/-! ## Finding instances -/

namespace Judgement

variable {env : Environment} {tree : Tree} {upkeep : Upkeep} {state : State}
  (provider : env.provider = tree.fixedProvider)

include provider

/-- The nodes and names of a tree within the scope are read from some fuel on. -/
theorem total_reads_of_inScope (inScope : tree.InScope env.declarations base)
    (spans : ∀ {arena returns}, upkeep.Invariant arena returns → base ≤ arena.size) :
    (total env upkeep).Reads where
  node bound node := by
    refine total_asks (fun _ => yields_inferNodeOnce node fun _ => yields_done spans ?_) trivial
    rw [provider]
    exact ⟨_, rfl, inScope.nodes node⟩
  name bound name := by
    refine yields_done spans ?_
    rw [provider]
    refine ⟨_, rfl, ?_⟩
    cases found : tree.names.get? name with
    | none => exact within_empty
    | some set => exact inScope.names name set found

omit provider in
/-- A step that asks for annotations only is one of the reader. -/
theorem Reaches.reader (step : Engine → Inference α)
    (alike : ∀ fuel, step (env.reader.asking (env.stage (fuel + 1)).ask) = step env.reader)
    (reaches : (total env upkeep).Reaches state (fun fuel => step (env.stage fuel)) post) :
    (total env upkeep).Reaches state (fun _ => step env.reader) post := by
  obtain ⟨enough, answer, holds, succeeds⟩ := reaches
  refine ⟨0, answer, holds, fun _ _ => ?_⟩
  show step env.reader state = _
  rw [← alike enough]
  exact succeeds (enough + 1) (Nat.le_succ enough)

/--
The union over items, with the states that the others leave behind in between.  What holds
of the values that an item contributes holds from then on.
-/
theorem reaches_unionOver_informed {setOf : Engine → α → Inference TypeSet}
    (holds : Arena → ValueId → Prop)
    (survives : ∀ arena later id, arena ≤ later → holds arena id → holds later id)
    (parametric : ∀ item, Parametric fun engine => setOf engine item)
    (admitted : (total env upkeep).Admits state) (informs : tree.Informs state)
    (continues : arena ≤ state.arena)
    (each : ∀ item ∈ items, ∀ later, (total env upkeep).Admits later →
      tree.Informs later → arena ≤ later.arena →
      (total env upkeep).Reaches later (fun _ => setOf env.reader item)
        fun after set => ∀ id ∈ set, holds after.arena id) :
    (total env upkeep).Reaches state
      (fun _ => unionOver (setOf env.reader) items)
      fun after set => ∀ id ∈ set, holds after.arena id := by
  induction items generalizing state with
  | nil => exact reaches_pure admitted fun _ member => by simp at member
  | cons item rest ih =>
    obtain ⟨_, ⟨found, between⟩, ⟨betweenAdmitted, further, foundHolds⟩, ran⟩ :=
      each item (by simp) state admitted informs continues
    have betweenInforms := env.informs_of_parametric provider (parametric item) informs
      (ran _ (Nat.le_refl _))
    have others := ih betweenAdmitted betweenInforms
      (Arena.le_trans continues further) fun other member => each other (by simp [member])
    have first : (total env upkeep).Reaches state
        (fun _ => setOf env.reader item) fun after set => after = between ∧ set = found :=
      ⟨_, _, ⟨betweenAdmitted, further, rfl, rfl⟩, ran⟩
    refine first.bind fun _ _ _ _ same => ?_
    obtain ⟨rfl, rfl⟩ := same
    refine others.bind fun after values afterAdmitted furthest valuesHold => ?_
    refine reaches_pure afterAdmitted fun id member => ?_
    rcases TypeSet.mem_union.mp member with inFirst | inOthers
    · exact survives _ _ _ furthest (foundHolds id inFirst)
    · exact valuesHold id inOthers

variable {arena : Arena}
  (reads : (total env upkeep).Reads)
  (world : World.WellFormed ⟨arena, env.declarations⟩)
  (inScope : tree.InScope env.declarations arena.size)

include reads inScope

theorem reaches_typeArguments_informed (within : env.Scopes arena.size generics)
    (admitted : (total env upkeep).Admits state) (informs : tree.Informs state)
    (continues : arena ≤ state.arena) :
    (total env upkeep).Reaches state
      (fun _ => env.reader.typeArguments generics)
      fun after arguments => tree.Informs after ∧
        tree.typeArguments? arena generics = some arguments ∧
        env.Scopes arena.size arguments := by
  obtain ⟨known, evaluates, knownWithin⟩ := inScope.exists_typeArguments? within
  have answered := (yields_typeArguments reads
    (within.grow (Arena.size_le_of_le continues))).reaches admitted (Nat.le_refl _)
  obtain ⟨enough, ⟨arguments, after⟩, ⟨afterAdmitted, further, _⟩, ran⟩ :=
    answered.reader (fun engine => engine.typeArguments generics) fun fuel =>
      congrFun (env.readsAlike_stage provider fuel).typeArguments generics
  obtain ⟨right, _, afterInforms⟩ := informs_typeArguments provider
    (env.consults_reader provider) informs (ran _ (Nat.le_refl _))
  cases (Tree.typeArguments?_of_le continues evaluates).symm.trans right
  exact ⟨enough, _, ⟨afterAdmitted, further, afterInforms, evaluates, knownWithin⟩, ran⟩

/-- What is found holds instances only, if all that is met describes them. -/
abbrev OnlyInstances (env : Environment) (tree : Tree) (arena : Arena) (levels : Nat)
    (set : TypeSet) (after : State) (seen : TypeSet) : Prop :=
  ∀ id ∈ seen, tree.MeetsDescriptions env.declarations arena levels set →
    after.arena.HoldsInstance id

/-- The instances of the sets that a value nests are found. -/
abbrev FindsNested (env : Environment) (tree : Tree) (upkeep : Upkeep) (arena : Arena)
    (levels : Nat) (stored : Value) : Prop :=
  ∀ sets, tree.nested? env.declarations arena stored = some sets →
    ∀ part ∈ sets, env.Scopes arena.size part →
    ∀ later, (total env upkeep).Admits later → tree.Informs later → arena ≤ later.arena →
      (total env upkeep).Reaches later (fun _ => env.reader.instancesWithin levels part)
        (OnlyInstances env tree arena levels part)

/--
The instances that a typing form describes are found if those of its arguments are, and if
nothing but instances is found for the arguments, then nothing else is found.
-/
theorem reaches_formInstances_informed {form : SpecialForm}
    (nested : FindsNested env tree upkeep arena levels (.special form generics))
    (matching : upkeep.Matching) (within : env.Scopes arena.size generics)
    (admitted : (total env upkeep).Admits state) (informs : tree.Informs state)
    (continues : arena ≤ state.arena) :
    (total env upkeep).Reaches state
      (fun _ => env.reader.formInstances (env.reader.instancesWithin levels) form generics)
      fun after seen => ∀ id ∈ seen,
        form ≠ .type ∧ (∀ sets, tree.nested? env.declarations arena
            (.special form generics) = some sets →
          ∀ part ∈ sets, tree.MeetsDescriptions env.declarations arena levels part) →
        after.arena.HoldsInstance id := by
  have argumentsReach := reaches_typeArguments_informed provider reads inScope within admitted
    informs continues
  have stateWithin := within.grow (Arena.size_le_of_le continues)
  have slotsReach {arguments : TypeArguments} {later : State}
      (parts : tree.nested? env.declarations arena (.special form generics) = some arguments.slots)
      (argumentsWithin : env.Scopes arena.size arguments)
      (laterAdmitted : (total env upkeep).Admits later)
      (laterInforms : tree.Informs later)
      (further : arena ≤ later.arena) :
      (total env upkeep).Reaches later
        (fun _ => unionOver (env.reader.instancesWithin levels) arguments.slots)
        fun after seen => ∀ id ∈ seen,
          (∀ part ∈ arguments.slots, tree.MeetsDescriptions env.declarations arena levels part) →
          after.arena.HoldsInstance id :=
    reaches_unionOver_informed provider
      (fun later id => (∀ part ∈ arguments.slots,
        tree.MeetsDescriptions env.declarations arena levels part) →
        later.HoldsInstance id)
      (fun _ _ _ further holds meets => (holds meets).mono further)
      (fun slot _ _ _ => Pairing.fits_instancesWithin levels slot)
      laterAdmitted laterInforms further fun part member last lastAdmitted lastInforms furthest =>
        (nested _ parts part member (argumentsWithin part member) last lastAdmitted lastInforms
          furthest).imp fun _ _ _ _ holds id isSeen meets => holds id isSeen (meets part member)
  have interned {value : Value} {set : TypeSet} {after : State}
      (isInstance : value.isInstance = true)
      (holds : ∃ id, set = .singleton id ∧ after.arena.get? id = some value) :
      ∀ id ∈ set, after.arena.HoldsInstance id := by
    obtain ⟨id, rfl, found⟩ := holds
    intro other member
    rw [TypeSet.mem_singleton.mp member]
    exact ⟨value, found, isInstance⟩
  cases form with
  | union =>
    refine argumentsReach.bind fun after arguments afterAdmitted further holds => ?_
    obtain ⟨afterInforms, evaluates, argumentsWithin⟩ := holds
    have parts : tree.nested? env.declarations arena (.special .union generics) =
        some arguments.slots := Option.map_eq_some_iff.mpr ⟨arguments, evaluates, rfl⟩
    exact (slotsReach parts argumentsWithin afterAdmitted afterInforms
      (Arena.le_trans continues further)).imp fun _ _ _ _ holds id isSeen meets =>
        holds id isSeen (meets.2 _ parts)
  | optional =>
    refine argumentsReach.bind fun after arguments afterAdmitted further holds => ?_
    obtain ⟨afterInforms, evaluates, argumentsWithin⟩ := holds
    have parts : tree.nested? env.declarations arena (.special .optional generics) =
        some arguments.slots := Option.map_eq_some_iff.mpr ⟨arguments, evaluates, rfl⟩
    refine (slotsReach parts argumentsWithin afterAdmitted afterInforms
      (Arena.le_trans continues further)).bind fun final seen finalAdmitted _ holds => ?_
    refine reaches_pure finalAdmitted fun id member meets => ?_
    rcases TypeSet.mem_insert.mp member with rfl | isSeen
    · exact ⟨.none, finalAdmitted.wellFormed.world.noneStored, rfl⟩
    · exact holds id isSeen (meets.2 _ parts)
  | type =>
    exact argumentsReach.bind fun _ _ afterAdmitted _ _ =>
      reaches_pure afterAdmitted fun _ _ meets => absurd rfl meets.1
  | classVar =>
    refine argumentsReach.bind fun after arguments afterAdmitted further holds => ?_
    obtain ⟨afterInforms, evaluates, argumentsWithin⟩ := holds
    have parts : tree.nested? env.declarations arena (.special .classVar generics) =
        some [arguments.slot 0] := Option.map_eq_some_iff.mpr ⟨arguments, evaluates, rfl⟩
    exact (nested _ parts _ (by simp) (within_slot argumentsWithin 0) after afterAdmitted
      afterInforms (Arena.le_trans continues further)).imp fun _ _ _ _ holds id isSeen meets =>
        holds id isSeen (meets.2 _ parts _ (by simp))
  | callable =>
    have callableWithin : env.Scopes state.arena.size (Value.callable generics) := stateWithin
    refine (reaches_intern_of_matching admitted callableWithin rfl fun _ => matching).bind
      fun after id afterAdmitted _ found => reaches_pure afterAdmitted fun other member _ => ?_
    exact interned rfl ⟨id, rfl, found⟩ other member
  | tuple =>
    have tupleWithin : env.Scopes state.arena.size (Value.tuple generics) := stateWithin
    exact (reaches_internSet admitted tupleWithin rfl).imp fun _ _ _ _ holds other member _ =>
      interned rfl holds other member

include world in
/--
If no function is met, then the instances of a set are found without a call.  If all that
is met describes instances only, then nothing else is found.
-/
theorem reaches_instancesWithin_informed (matching : upkeep.Matching)
    (within : env.Scopes arena.size set)
    (meets : tree.MeetsNoFunction env.declarations arena levels set)
    (admitted : (total env upkeep).Admits state) (informs : tree.Informs state)
    (continues : arena ≤ state.arena) :
    (total env upkeep).Reaches state (fun _ => env.reader.instancesWithin levels set)
      (OnlyInstances env tree arena levels set) := by
  induction levels generalizing set state with
  | zero =>
    have emitted : (total env upkeep).Yields 0 fun _ =>
        emit (.instancesTooDeep env.reader.levels) := yields_emit _
    refine (emitted.reaches admitted (Nat.zero_le _)).bind fun _ _ afterAdmitted _ _ => ?_
    exact reaches_pure afterAdmitted fun _ member => by simp at member
  | succ levels ih =>
    refine reaches_unionOver_informed provider
      (fun later id => tree.MeetsDescriptions env.declarations arena (levels + 1) set →
        later.HoldsInstance id)
      (fun _ _ _ further holds describes => (holds describes).mono further)
      (fun id _ _ _ => Pairing.fits_valueInstances (Pairing.fits_instancesWithin levels) id)
      admitted informs continues fun id member later laterAdmitted laterInforms further => ?_
    obtain ⟨stored, found⟩ := Arena.exists_get? (within id member)
    have storedWithin := world.within_of_get? found
    have laterWithin := storedWithin.grow (Arena.size_le_of_le further)
    have nested : FindsNested env tree upkeep arena levels stored :=
      fun sets parts part partMember partWithin _ admitted informs continues =>
        ih partWithin (meets.nested member found parts partMember) admitted informs continues
    have nothing {event : Event} : (total env upkeep).Reaches later
        (fun _ => (do
          emit event
          return ∅ : Inference TypeSet))
        (OnlyInstances env tree arena (levels + 1) set) := by
      have emitted : (total env upkeep).Yields 0 fun _ => emit event := yields_emit _
      refine (emitted.reaches laterAdmitted (Nat.zero_le _)).bind fun _ _ afterAdmitted _ _ => ?_
      exact reaches_pure afterAdmitted fun _ isSeen => by simp at isSeen
    have instantiated {class_ : ClassId} {generics : Generics}
        (classWithin : env.Scopes later.arena.size class_)
        (genericsWithin : env.Scopes later.arena.size generics) :
        (total env upkeep).Reaches later (fun _ => env.reader.instantiate class_ generics)
          (OnlyInstances env tree arena (levels + 1) set) := by
      refine (reaches_instantiate laterAdmitted classWithin genericsWithin).imp
        fun after seen _ _ holds => ?_
      obtain ⟨id, rfl, idStored⟩ := holds
      intro other isSeen _
      rw [TypeSet.mem_singleton.mp isSeen]
      exact ⟨_, idStored, env.declarations.isInstance_instance class_ generics⟩
    refine reaches_value_bind (Arena.get?_of_le further found) ?_
    cases stored with
    | classObject class_ => exact instantiated laterWithin within_nil
    | genericClass class_ generics => exact instantiated laterWithin.1 laterWithin.2
    | typeVariable variable_ =>
      refine reaches_ite (fun _ => nothing) fun _ => ?_
      refine (nested _ rfl _ (by simp) (within_fallback world.declared variable_) later
        laterAdmitted laterInforms further).imp fun _ _ _ _ holds other isSeen describes => ?_
      exact holds other isSeen (Tree.Meets.nested describes member found rfl (by simp))
    | special form generics =>
      refine (reaches_formInstances_informed provider reads inScope nested matching
        storedWithin laterAdmitted laterInforms further).imp
        fun _ _ _ _ holds other isSeen describes => holds other isSeen ⟨?_, ?_⟩
      · rintro rfl
        cases describes id _ (.member member) found
      · intro sets parts part partMember
        exact Tree.Meets.nested describes member found parts partMember
    | function _ | overloaded _ | boundMethod _ _ => cases meets id _ (.member member) found
    | exactly described =>
      refine reaches_pure laterAdmitted fun _ _ describes => ?_
      cases describes id _ (.member member) found
    | any => exact nothing
    | typeList _ | ellipsis | literal _ =>
      exact reaches_pure laterAdmitted fun _ isSeen => by simp at isSeen
    | instanceOf _ _ | tuple _ | callable _ | packedTuple _ | packedDict _ | typedDict _ | none =>
      refine reaches_pure laterAdmitted fun other isSeen _ => ?_
      rw [TypeSet.mem_singleton.mp isSeen]
      exact ⟨_, Arena.get?_of_le further found, rfl⟩

end Judgement

end TypeInference
