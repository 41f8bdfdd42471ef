import TypeInference.Proofs.Ancestry
import TypeInference.Proofs.FixedTree.Step

/-!
# Annotations admit subclasses

Whether an annotation admits arguments of a class depends on the annotation and on the
ancestors of the class only: somewhere among the alternatives of its unions, optional values
and class variables there is a class that the class descends from, or something that admits
everything.  A subclass has all these ancestors as well, so that whatever admits a class
admits its subclasses.
-/

namespace TypeInference

open Inference

variable {arena : Arena} {tree : Tree} {levels : Nat} {hint argument : ValueId}
  {class_ subclass : ClassId}

/-! ## Descent in arenas that grow -/

section Growth

variable {declarations : Declarations} {later : Arena}
  (world : World.WellFormed ⟨arena, declarations⟩)
  (continues : arena ≤ later)

include world continues

theorem Declarations.descends_of_le : declarations.Descends later = declarations.Descends arena := by
  have sameBases : declarations.HasBase later = declarations.HasBase arena := by
    funext child parent
    refine propext (exists_congr fun declaration => and_congr_right fun declared => ?_)
    refine exists_congr fun base => and_congr_right fun member => ?_
    exact Arena.listsClass_of_le continues
      ((world.declared.classes _ _ declared).bases base member) parent
  rw [Descends, sameBases, Descends]

theorem Declarations.BasesAreFixed.of_le (fixed : declarations.BasesAreFixed arena) :
    declarations.BasesAreFixed later := by
  intro child declaration declared base member id isMember stored found
  obtain ⟨first, isStored⟩ :=
    Arena.exists_get? ((world.declared.classes _ _ declared).bases base member id isMember)
  cases (Arena.get?_of_le continues isStored).symm.trans found
  exact fixed child declaration declared base member id isMember stored isStored

end Growth

/-! ## Admitted classes -/

/-- The class from which an annotation wants arguments to descend. -/
@[simp]
def Value.wantedClass? : Value → Option ClassId
  | .classObject class_ | .genericClass class_ _ => some class_
  | .special .tuple _ => some Builtin.tuple
  | .special .type _ => some Builtin.type
  | .special .callable _ => some Builtin.function
  | _ => Option.none

/-- Annotations that admit every argument. -/
@[simp]
def Value.admitsAll : Value → Bool
  | .typeVariable _ | .any => true
  | _ => false

/-- An annotation admits arguments of a class within some levels. -/
def Tree.Admits (tree : Tree) (declarations : Declarations) (arena : Arena)
    (class_ : ClassId) : Nat → ValueId → Prop
  | 0, _ => False
  | levels + 1, hint => ∃ stored, arena.get? hint = some stored ∧
    (stored.admitsAll = true ∨
      (∃ ancestor, stored.wantedClass? = some ancestor ∧
        declarations.Descends arena class_ ancestor) ∨
      ∃ sets, tree.nested? declarations arena stored = some sets ∧
        ∃ part ∈ sets, ∃ id ∈ part, tree.Admits declarations arena class_ levels id)

theorem Tree.admits_succ {declarations : Declarations} {stored : Value}
    (found : arena.get? hint = some stored) :
    tree.Admits declarations arena class_ (levels + 1) hint ↔
      stored.admitsAll = true ∨
      (∃ ancestor, stored.wantedClass? = some ancestor ∧
        declarations.Descends arena class_ ancestor) ∨
      ∃ sets, tree.nested? declarations arena stored = some sets ∧
        ∃ part ∈ sets, ∃ id ∈ part, tree.Admits declarations arena class_ levels id := by
  simp [Tree.Admits, found]

/-- What admits a class admits the classes that descend from it. -/
theorem Tree.Admits.of_descends {declarations : Declarations}
    (descends : declarations.Descends arena subclass class_)
    (admits : tree.Admits declarations arena class_ levels hint) :
    tree.Admits declarations arena subclass levels hint := by
  induction levels generalizing hint with
  | zero => exact admits
  | succ levels ih =>
    obtain ⟨stored, found, all | ⟨ancestor, wanted, further⟩ | ⟨sets, sets?, part, isPart, id,
      member, nested⟩⟩ := admits
    · exact ⟨stored, found, .inl all⟩
    · exact ⟨stored, found, .inr (.inl ⟨ancestor, wanted, descends.trans further⟩)⟩
    · exact ⟨stored, found, .inr (.inr ⟨sets, sets?, part, isPart, id, member, ih nested⟩)⟩

/-! ## Comparing arguments with annotations -/

/--
The reader finds out whether something holds, in whatever request that continues a world and
remembers of annotations what these evaluate to.
-/
def Environment.Decides (env : Environment) (tree : Tree) (arena : Arena) (step : Inference Bool)
    (holds : Prop) : Prop :=
  ∀ ⦃state⦄, env.Steady tree arena.size state → arena ≤ state.arena →
    (Judgement.total env (.spanning arena.size)).Reaches state (fun _ => step)
      fun after answer => tree.Informs after ∧ (answer = true ↔ holds)

namespace Environment

open Judgement

variable {env : Environment} {step : Engine → Inference Bool} {holds : Prop}
  {test : ValueId → Inference Bool} {passes : ValueId → Prop} {items : List ValueId}

/-- Some item passes a test. -/
theorem decides_anyOf (each : ∀ item ∈ items, env.Decides tree arena (test item) (passes item)) :
    env.Decides tree arena (anyOf test items) (∃ item ∈ items, passes item) := by
  intro state steady continues
  induction items generalizing state with
  | nil => exact reaches_pure steady.admitted ⟨steady.informs, by simp⟩
  | cons item rest ih =>
    refine (each item (by simp) steady continues).bind
      fun after answer afterAdmitted further decided => ?_
    obtain ⟨afterInforms, isPassed⟩ := decided
    refine reaches_ite (fun passed => ?_) fun failed => ?_
    · exact reaches_pure afterAdmitted
        ⟨afterInforms, iff_of_true rfl ⟨item, by simp, isPassed.mp passed⟩⟩
    · refine (ih (fun other member => each other (by simp [member]))
        ⟨afterAdmitted, afterInforms⟩ (Arena.le_trans continues further)).imp
          fun _ _ _ _ others => ?_
      simpa [mt isPassed.mpr failed] using others

variable (provider : env.provider = tree.fixedProvider)

include provider

theorem decides_of_reaches (parametric : Parametric step)
    (reaches : ∀ {state}, env.Steady tree arena.size state → arena ≤ state.arena →
      (total env (.spanning arena.size)).Reaches state (fun _ => step env.reader)
        fun _ answer => answer = true ↔ holds) :
    env.Decides tree arena (step env.reader) holds := by
  intro state steady continues
  obtain ⟨enough, ⟨answer, after⟩, ⟨admitted, further, decided⟩, ran⟩ := reaches steady continues
  have informs := informs_of_parametric provider parametric steady.informs (ran _ (Nat.le_refl _))
  exact ⟨enough, _, ⟨admitted, further, informs, decided⟩, ran⟩

/-- What the reader decides, every engine with fuel answers, and no engine answers otherwise. -/
theorem Decides.answers {state : State} (decides : env.Decides tree arena (step env.reader) holds)
    (parametric : Parametric step) (steady : env.Steady tree arena.size state)
    (continues : arena ≤ state.arena) :
    (∃ answer after, ∀ fuel, step (env.engine (fuel + 1)) state = .ok (answer, after)) ∧
      ∀ fuel answer after, step (env.engine fuel) state = .ok (answer, after) →
        (answer = true ↔ holds) := by
  obtain ⟨enough, ⟨decided, final⟩, ⟨-, -, -, isDecided⟩, succeeds⟩ := decides steady continues
  have read := succeeds enough (Nat.le_refl enough)
  refine ⟨⟨decided, final, fun fuel => env.refines_reader parametric fuel _ _ read⟩, ?_⟩
  intro fuel answer after ran
  rw [(eq_of_engine provider parametric read ran).1]
  exact isDecided

variable (world : World.WellFormed ⟨arena, env.declarations⟩)
  (inScope : tree.InScope env.declarations arena.size)
  (fixed : env.declarations.BasesAreFixed arena)
  (isAt : arena.classAt? argument = some class_)

include inScope

/-- Some value in sets of type arguments passes a test. -/
theorem decides_anyOf_typeArguments {generics : Generics} {sets : TypeArguments → List TypeSet}
    (within : env.Scopes arena.size generics)
    (setsWithin : ∀ arguments : TypeArguments, env.Scopes arena.size arguments →
      ∀ part ∈ sets arguments, env.Scopes arena.size part)
    (each : ∀ id, env.Scopes arena.size id → env.Decides tree arena (test id) (passes id)) :
    env.Decides tree arena
      (env.reader.typeArguments generics >>= fun arguments =>
        anyOf test ((sets arguments).flatMap TypeSet.members))
      (∃ parts, (tree.typeArguments? arena generics).map sets = some parts ∧
        ∃ part ∈ parts, ∃ id ∈ part, passes id) := by
  intro state steady continues
  refine (reaches_typeArguments_informed provider
    (total_reads_of_inScope provider inScope fun spans => spans) inScope within steady.admitted
    steady.informs continues).bind fun after arguments afterAdmitted further read => ?_
  obtain ⟨afterInforms, evaluates, argumentsWithin⟩ := read
  have itemsWithin : ∀ item ∈ (sets arguments).flatMap TypeSet.members,
      env.Scopes arena.size item := by
    intro item member
    obtain ⟨part, isPart, isItem⟩ := List.mem_flatMap.mp member
    exact setsWithin arguments argumentsWithin part isPart item isItem
  refine (decides_anyOf (fun item member => each item (itemsWithin item member))
    ⟨afterAdmitted, afterInforms⟩ (Arena.le_trans continues further)).imp
      fun _ _ _ _ decided => ⟨decided.1, decided.2.trans ?_⟩
  rw [evaluates, Option.map_some]
  constructor
  · rintro ⟨item, member, passed⟩
    obtain ⟨part, isPart, isItem⟩ := List.mem_flatMap.mp member
    exact ⟨_, rfl, part, isPart, item, isItem, passed⟩
  · rintro ⟨_, ⟨⟩, part, isPart, item, isItem, passed⟩
    exact ⟨item, List.mem_flatMap.mpr ⟨part, isPart, isItem⟩, passed⟩

include world fixed isAt

theorem decides_isSubclass (ancestor : ClassId) :
    env.Decides tree arena (env.reader.isSubclass argument ancestor)
      (env.declarations.Descends arena class_ ancestor) := by
  refine decides_of_reaches provider (fun _ _ => Pairing.fits_isSubclass argument ancestor)
    fun steady continues => ?_
  have stillAt := (Arena.classAt?_of_le continues (Arena.lt_size_of_classAt? isAt)).trans isAt
  have reads : (total env (.spanning arena.size)).Reads :=
    total_reads_of_inScope provider inScope fun spans => spans
  have answered := reaches_isSubclass reads trivial steady.admitted
    (fixed.of_le world continues) stillAt ancestor
  rw [Declarations.descends_of_le world continues] at answered
  refine answered.reader (fun engine => engine.isSubclass argument ancestor) fun fuel => ?_
  unfold Engine.isSubclass Engine.ancestor?
  rw [(env.readsAlike_stage provider fuel).ancestors]

theorem decides_admitsWithin (within : env.Scopes arena.size hint) :
    env.Decides tree arena (env.reader.admitsWithin argument levels hint)
      (tree.Admits env.declarations arena class_ levels hint) := by
  induction levels generalizing hint with
  | zero =>
    refine decides_of_reaches provider (fun _ _ => Pairing.fits_admitsWithin argument 0 hint)
      fun steady _ => reaches_bind_of_ok (fun _ => rfl) ?_
    refine ((yields_emit _).reaches steady.admitted (Nat.le_refl _)).bind fun _ _ emitted _ _ => ?_
    exact reaches_pure emitted (iff_of_false Bool.false_ne_true not_false)
  | succ levels ih =>
    intro state steady continues
    obtain ⟨seen, isSeen, isClass⟩ := Option.bind_eq_some_iff.mp isAt
    obtain ⟨stored, found⟩ := Arena.exists_get? within
    have storedWithin := world.within_of_get? found
    have descent (ancestor : ClassId) :=
      decides_isSubclass provider world inScope fixed isAt ancestor steady continues
    have alternatives {generics : Generics} {sets : TypeArguments → List TypeSet}
        (genericsWithin : env.Scopes arena.size generics)
        (setsWithin : ∀ arguments : TypeArguments, env.Scopes arena.size arguments →
          ∀ part ∈ sets arguments, env.Scopes arena.size part) :=
      decides_anyOf_typeArguments provider inScope genericsWithin setsWithin
        (fun id idWithin => ih idWithin) steady continues
    -- A class is neither anything nor nothing, so that the annotation decides.
    have notAny : seen ≠ .any := by rintro rfl; cases isClass
    have notNone : seen ≠ .none := by rintro rfl; cases isClass
    refine reaches_value_bind (Arena.get?_of_le continues isSeen)
      (reaches_ite (fun isAny => absurd isAny notAny) fun _ => ?_)
    refine reaches_value_bind (Arena.get?_of_le continues found) ?_
    simp only [Tree.admits_succ found]
    cases stored with
    | classObject wanted | genericClass wanted _ => simpa [Tree.nested?] using descent wanted
    | special form generics =>
      cases form with
      | tuple => simpa [Tree.nested?] using descent Builtin.tuple
      | type => simpa [Tree.nested?] using descent Builtin.type
      | callable =>
        cases seen with
        | classObject _ | genericClass _ _ =>
          simpa [Tree.nested?] using descent Builtin.function
        | _ => cases isClass
      | union =>
        simpa [Tree.nested?] using alternatives storedWithin fun _ slotsWithin => slotsWithin
      | optional =>
        refine reaches_ite (fun isNone => absurd isNone notNone) fun _ => ?_
        simpa [Tree.nested?] using alternatives storedWithin fun _ slotsWithin => slotsWithin
      | classVar =>
        have firstWithin (arguments : TypeArguments)
            (slotsWithin : env.Scopes arena.size arguments) :
            ∀ part ∈ [arguments.slot 0], env.Scopes arena.size part := by
          simpa using within_slot slotsWithin 0
        simpa [Tree.nested?] using alternatives storedWithin firstWithin
    | none =>
      exact reaches_pure steady.admitted ⟨steady.informs, by simp [notNone, Tree.nested?]⟩
    | _ => exact reaches_pure steady.admitted ⟨steady.informs, by simp [Tree.nested?]⟩

end Environment

/-! ## Subclasses are admitted -/

/--
An annotation that admits a class admits its subclasses.  The questions may be asked one
after another or each on its own, in requests that continue one world and remember of
annotations what these evaluate to, and the last one is always answered.
-/
theorem admits_of_isSubclass {environment : Environment} {tree : Tree} {arena : Arena}
    {hint parent child : ValueId} {parentClass childClass : ClassId}
    {first second third firstAfter secondAfter : State} {fuel other : Nat}
    (provider : environment.provider = tree.fixedProvider)
    (world : World.WellFormed ⟨arena, environment.declarations⟩)
    (inScope : tree.InScope environment.declarations arena.size)
    (fixed : environment.declarations.BasesAreFixed arena)
    (within : Within environment.declarations arena.size hint)
    (parentAt : arena.classAt? parent = some parentClass)
    (childAt : arena.classAt? child = some childClass) (steady : ∀ state ∈ [first, second, third],
      environment.Steady tree arena.size state ∧ arena ≤ state.arena)
    (subclass : (environment.engine fuel).isSubclass child parentClass first =
      .ok (true, firstAfter))
    (admits : (environment.engine other).admits hint parent second = .ok (true, secondAfter)) :
    ∃ after, ∀ more,
      (environment.engine (more + 1)).admits hint child third = .ok (true, after) := by
  have answered {id : ValueId} {class_ : ClassId}
      (isAt : arena.classAt? id = some class_)
      (state : State)
      (member : state ∈ [first, second, third]) :=
    have parametric : Parametric fun engine => engine.admits hint id :=
      fun _ _ => Pairing.fits_admitsWithin id _ hint
    (Environment.decides_admitsWithin provider world inScope fixed isAt within).answers provider
      parametric (steady state member).1 (steady state member).2
  have descends := (Environment.decides_isSubclass provider world inScope fixed childAt
    parentClass).answers provider (fun _ _ => Pairing.fits_isSubclass child parentClass)
      (steady first (by simp)).1 (steady first (by simp)).2
  have ofParent := ((answered parentAt second (by simp)).2 _ _ _ admits).mp rfl
  have ofChild := ofParent.of_descends ((descends.2 _ _ _ subclass).mp rfl)
  obtain ⟨⟨answer, after, ran⟩, isAnswer⟩ := answered childAt third (by simp)
  rw [(isAnswer _ _ _ (ran 0)).mpr ofChild] at ran
  exact ⟨after, ran⟩

/-- The circle of classes, with an optional value that may be itself or a class variable. -/
def World.admitting : World :=
  { World.knotted with
    arena := World.knotted.arena.append
      [.special .optional (.lazy ⟨1⟩), .special .classVar (.ofSlots [.singleton ⟨19⟩])] }

/-- The bottom of the circle is admitted where its left side is. -/
theorem admits_of_isSubclass_of_knotted :
    let tree : Tree := { nodes := #[.fixed (.singleton ⟨5⟩), .fixed (.ofList [⟨25⟩, ⟨26⟩])] }
    let environment : Environment :=
      { declarations := World.admitting.declarations
        provider := tree.fixedProvider
        settings := { unificationDepthLimit := 2 } }
    let state := environment.start World.admitting.arena
    (∃ after, (environment.engine 2).isSubclass ⟨24⟩ ⟨16⟩ state = .ok (true, after)) ∧
      (∃ after, (environment.engine 2).admits ⟨25⟩ ⟨21⟩ state = .ok (true, after)) ∧
      ∃ after, ∀ more,
        (environment.engine (more + 1)).admits ⟨25⟩ ⟨24⟩ state = .ok (true, after) := by
  intro tree environment state
  have world : World.admitting.WellFormed := .ofChecks (by decide +kernel) (by decide +kernel)
  have inScope : tree.InScope environment.declarations World.admitting.arena.size := by
    refine ⟨fun node => ?_, fun _ _ found => nomatch found⟩
    obtain ⟨index⟩ := node
    match index with
    | 0 | 1 => decide +kernel
    | index + 2 => exact within_empty
  have subclass : (environment.engine 2).isSubclass ⟨24⟩ ⟨16⟩ state = .ok (true, _) := rfl
  have admits : (environment.engine 2).admits ⟨25⟩ ⟨21⟩ state = .ok (true, _) := rfl
  refine ⟨⟨_, subclass⟩, ⟨_, admits⟩, ?_⟩
  have parentAt : World.admitting.arena.classAt? ⟨21⟩ = some ⟨16⟩ := rfl
  have childAt : World.admitting.arena.classAt? ⟨24⟩ = some ⟨18⟩ := rfl
  refine admits_of_isSubclass rfl world inScope (by decide +kernel) (by decide +kernel) parentAt
    childAt ?_ subclass admits
  simp only [List.mem_cons, List.not_mem_nil, or_false, or_self, forall_eq]
  exact ⟨.start world, Arena.le_refl _⟩

end TypeInference
