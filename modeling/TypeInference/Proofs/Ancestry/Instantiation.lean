import TypeInference.Proofs.Ancestry.Saturation

/-!
# Type arguments are carried along the ancestors

A search for the ancestors of a class object is traced on trees: what a visit does to an
arena is done to the tree of a class applied to its own type parameters.  Whatever the type
parameters stand for, the search runs in step with its trace.  So the ancestors of an
instantiated class are the instantiated ancestors of the class.
-/

namespace TypeInference

variable {id : ValueId} {tree : ValueTree} {variable_ : TypeVariableId}
  {entry : ClassId × ValueTree} {ancestor : Engine.Ancestor} {class_ : ClassId} {state : State}
  {traced : List (ClassId × ValueTree)} {opens fills : List Engine.Ancestor}

/-! ## Traces -/

namespace Declarations

variable (declarations : Declarations) (origin : Arena)

/-- Extend a trace by the bases of a class object. -/
def traceBases (trace : List (ClassId × ValueTree) → ValueTree → List (ClassId × ValueTree))
    (traced : List (ClassId × ValueTree)) (class_ : ClassId) (tree : ValueTree) :
    List (ClassId × ValueTree) :=
  match declarations.class? class_ with
  | none => traced
  | some declaration =>
    declaration.bases.foldl
      (fun traced base =>
        ((origin.trees base).flatMap (ValueTree.replace (declaration.given tree.parts))).foldl
          trace traced)
      traced

/-- Extend a trace by a class object and its ancestors, depth first. -/
def traceWithin : Nat → List (ClassId × ValueTree) → ValueTree → List (ClassId × ValueTree)
  | 0, traced, _ => traced
  | bound + 1, traced, tree =>
    match tree.outline.class? with
    | none => traced
    | some class_ =>
      if traced.any (fun entry => entry.1 == class_) then traced
      else declarations.traceBases origin (traceWithin bound) (traced ++ [(class_, tree)]) class_ tree

/-- The trace of a search for the ancestors of a class object. -/
def trace (tree : ValueTree) : List (ClassId × ValueTree) :=
  declarations.traceWithin origin (declarations.classes.size + 1) [] tree

end Declarations

/-- An ancestor is what a trace says, once the variables are filled. -/
structure Arena.Traces (arena : Arena) (declarations : Declarations)
    (filling : TypeVariableId → Option (List ValueTree)) (entry : ClassId × ValueTree)
    (ancestor : Engine.Ancestor) : Prop where
  sameClass : entry.1 = ancestor.class_
  read : entry.2.isRead = true
  shows : arena.Shows declarations (.singleton ancestor.value) (entry.2.replace filling)

theorem Arena.Traces.mono (traces : arena.Traces declarations filling entry ancestor)
    (world : World.WellFormed ⟨arena, declarations⟩) (continues : arena ≤ later) :
    later.Traces declarations filling entry ancestor :=
  ⟨traces.sameClass, traces.read, traces.shows.mono world continues⟩

/-- Ancestors that follow a trace, with enough levels left to go on. -/
structure Declarations.Follows (declarations : Declarations)
    (filling : TypeVariableId → Option (List ValueTree)) (limit : Nat) (arena : Arena)
    (traced : List (ClassId × ValueTree)) (reached : List Engine.Ancestor) : Prop where
  once : Judgement.Reached declarations [] limit arena.size reached
  traces : List.Forall₂ (arena.Traces declarations filling) traced reached

namespace Declarations.Follows

variable {declarations : Declarations} {filling : TypeVariableId → Option (List ValueTree)}
  {limit : Nat} {arena later : Arena} {traced : List (ClassId × ValueTree)}
  {reached : List Engine.Ancestor}

theorem mono (follows : declarations.Follows filling limit arena traced reached)
    (world : World.WellFormed ⟨arena, declarations⟩) (continues : arena ≤ later) :
    declarations.Follows filling limit later traced reached where
  once := follows.once.grow (Arena.size_le_of_le continues)
  traces := follows.traces.imp fun _ _ traces => traces.mono world continues

theorem any_class (follows : declarations.Follows filling limit arena traced reached)
    (class_ : ClassId) :
    (traced.any fun entry => entry.1 == class_) =
      reached.any fun ancestor => ancestor.class_ == class_ := by
  have traces := follows.traces
  clear follows
  induction traces with
  | nil => rfl
  | cons first _ ih =>
    rw [List.any_cons, List.any_cons, first.sameClass, ih]

/-- A search and its trace go on from a class object that was not reached before. -/
theorem append (follows : declarations.Follows filling (limit + 1) arena traced reached)
    (new : reached.any (fun ancestor => ancestor.class_ == class_) = false)
    (classWithin : Within declarations arena.size class_)
    (saturates : tree.Saturates declarations class_)
    (shows : arena.Shows declarations (.singleton id) (tree.replace filling)) :
    declarations.Follows filling limit arena (traced ++ [(class_, tree)])
      (reached ++ [⟨class_, id⟩]) where
  once :=
    have within : Within declarations arena.size (⟨class_, id⟩ : Engine.Ancestor) :=
      ⟨classWithin, shows.within id (by simp)⟩
    follows.once.append within new
  traces := List.rel_append follows.traces (.cons ⟨rfl, saturates.isRead, shows⟩ .nil)

theorem relax (follows : declarations.Follows filling limit arena traced reached) :
    declarations.Follows filling (limit + 1) arena traced reached :=
  ⟨follows.once.relax, follows.traces⟩

end Declarations.Follows

/-! ## Visits in step with their traces -/

namespace Judgement

open Inference

variable {env : Environment} {judgement : Judgement env} {origin : Arena}
  {first : ClassId} {filling : TypeVariableId → Option (List ValueTree)} {limit : Nat}
  {visit : Nat → List Engine.Ancestor → ValueId → Inference (List Engine.Ancestor)}
  {trace : List (ClassId × ValueTree) → ValueTree → List (ClassId × ValueTree)}

/-- A visit of a filled class object does what is done to its tree. -/
def Retraces (judgement : Judgement env) (origin : Arena) (first : ClassId)
    (filling : TypeVariableId → Option (List ValueTree)) (limit : Nat)
    (visit : Nat → List Engine.Ancestor → ValueId → Inference (List Engine.Ancestor))
    (trace : List (ClassId × ValueTree) → ValueTree → List (ClassId × ValueTree)) : Prop :=
  ∀ state traced before class_ tree id, judgement.Admits state → origin ≤ state.arena →
    env.declarations.Follows filling limit state.arena traced before →
    env.declarations.Descends origin first class_ →
    tree.Saturates env.declarations class_ →
    state.arena.Shows env.declarations (.singleton id) (tree.replace filling) →
    judgement.Reaches state (fun fuel => visit fuel before id) fun after reached =>
      env.declarations.Follows filling limit after.arena (trace traced tree) reached

variable (matching : judgement.Matching)
  (world : World.WellFormed ⟨origin, env.declarations⟩)
  (handsOn : ∀ class_ declaration, env.declarations.Descends origin first class_ →
    env.declarations.class? class_ = some declaration →
    declaration.HandsOn env.declarations origin env.settings.unificationDepthLimit)
  (fillingSome : ∀ variable_ trees, filling variable_ = some trees → trees ≠ [])

include matching world handsOn fillingSome

/-- Visits of the bases of a filled class object do what is done to the bases of its tree. -/
theorem Retraces.bases (retraces : judgement.Retraces origin first filling limit visit trace)
    (admitted : judgement.Admits state) (continues : origin ≤ state.arena)
    (follows : env.declarations.Follows filling limit state.arena traced before)
    (descends : env.declarations.Descends origin first class_)
    (saturates : tree.Saturates env.declarations class_)
    (shows : state.arena.Shows env.declarations (.singleton id) (tree.replace filling)) :
    judgement.Reaches state
      (fun fuel => (env.stage fuel).visitBases (visit fuel) before class_ id)
      fun after reached => env.declarations.Follows filling limit after.arena
        (env.declarations.traceBases origin trace traced class_ tree) reached := by
  have stateWorld := admitted.wellFormed.world
  obtain ⟨declaration, declared, -⟩ := saturates.each
  obtain ⟨stored, found, ofClass, read, -⟩ := shows.stored stateWorld saturates
  refine reaches_bind_of_ok (classBindings_of_get? found ofClass read declared) ?_
  simp only [classDeclaration_stage declared, pure_bind, Declarations.traceBases, declared]
  refine reaches_foldlM
    (fun later done reached => env.declarations.Follows filling limit later.arena
      (done.foldl
        (fun traced base =>
          ((origin.trees base).flatMap (ValueTree.replace (declaration.given tree.parts))).foldl
            trace traced)
        traced)
      reached)
    admitted follows fun done base member later reached laterAdmitted further holds => ?_
  obtain ⟨parent, parentTree, isBase, parentSaturates, replaced, substitutes⟩ :=
    reaches_substitute_base matching world declared (handsOn _ _ descends declared) fillingSome
      saturates member
  simp only [List.foldl_append, List.foldl_cons, List.foldl_nil, replaced]
  refine (substitutes later id stored laterAdmitted (Arena.le_trans continues further)
    (Arena.get?_of_le further found) (shows.mono stateWorld further)).bind
      fun between parents betweenAdmitted toBetween parentsShow => ?_
  obtain ⟨parentId, rfl, parentShows⟩ := parentsShow
  have one : (TypeSet.singleton parentId).members = [parentId] := rfl
  simp only [one, List.foldlM_cons, List.foldlM_nil, bind_pure]
  exact retraces between _ reached parent parentTree parentId betweenAdmitted
    (Arena.le_trans continues (Arena.le_trans further toBetween))
    (holds.mono laterAdmitted.wellFormed.world toBetween) (descends.tail isBase) parentSaturates
    parentShows

/-- Visits that nest ever more deeply do what is done to trees. -/
theorem retraces_visitWithin (limit : Nat) :
    judgement.Retraces origin first filling limit
      (fun fuel => (env.stage fuel).visitWithin limit)
      (env.declarations.traceWithin origin limit) := by
  induction limit with
  | zero =>
    intro state traced before class_ tree id _ _ follows _ _ _
    exact absurd follows.once.limit_pos (Nat.lt_irrefl 0)
  | succ limit ih =>
    intro state traced before class_ tree id admitted continues follows descends saturates shows
    have stateWorld := admitted.wellFormed.world
    obtain ⟨stored, found, ofClass, -⟩ := shows.stored stateWorld saturates
    refine reaches_value_bind found ?_
    simp only [ofClass, Declarations.traceWithin, saturates.ofClass, follows.any_class class_]
    refine reaches_ite (fun known => ?_) fun new => ?_
    · simp only [known, if_true]
      exact reaches_pure admitted follows
    · simp only [new]
      have appended := follows.append (Bool.eq_false_iff.mpr new)
        (within_class? (stateWorld.within_of_get? found) ofClass) saturates shows
      exact (ih.bases matching world handsOn fillingSome admitted continues
        appended descends saturates shows).imp fun _ _ _ _ visited => visited.relax

/-- The ancestors of a filled class object are those of its tree, filled. -/
theorem reaches_ancestors_trace (admitted : judgement.Admits state)
    (continues : origin ≤ state.arena) (saturates : tree.Saturates env.declarations first)
    (shows : state.arena.Shows env.declarations (.singleton id) (tree.replace filling)) :
    judgement.Attains state (·.ancestors id)
      fun after reached => List.Forall₂ (after.arena.Traces env.declarations filling)
        (env.declarations.trace origin tree) reached := by
  have nothing : env.declarations.Follows filling
      (env.declarations.classes.size + 1) state.arena [] [] :=
    ⟨⟨within_nil, List.nodup_nil, by simp, List.prefix_rfl⟩, .nil⟩
  exact (retraces_visitWithin matching world handsOn fillingSome _ state [] [] first tree id
    admitted continues nothing .refl saturates shows).imp fun _ _ _ _ visited => visited.traces

end Judgement

/-! ## Classes applied to their own type parameters -/

section Applied

variable {declarations : Declarations} {arena : Arena} {class_ : ClassId}
  {declaration : ClassDeclaration} {homogeneous : Bool} {opened filled : ValueId}
  {slots arguments : List TypeSet}

/-- A set that holds a variable has the tree of the variable. -/
theorem Arena.HoldsVariable.trees (world : World.WellFormed ⟨arena, declarations⟩) {set : TypeSet}
    (holds : arena.HoldsVariable variable_ set) :
    arena.trees set = [.node (.typeVariable variable_) []] := by
  obtain ⟨id, rfl, found⟩ := holds
  rw [Arena.trees_singleton, Arena.tree_of_get? world found]
  rfl

/-- A class applied to its own type parameters is saturated. -/
theorem saturates_of_holdsVariable (world : World.WellFormed ⟨arena, declarations⟩)
    (declared : declarations.class? class_ = some declaration)
    (found : arena.get? opened = some (.genericClass class_ (.resolved ⟨slots, homogeneous⟩)))
    (holds : List.Forall₂ arena.HoldsVariable declaration.typeParameters slots) :
    (arena.tree opened).Saturates declarations class_ := by
  rw [Arena.tree_of_get? world found]
  have partIs : ∀ part ∈ slots.map arena.trees,
      ∃ variable_, part = [.node (.typeVariable variable_) []] := by
    intro part member
    obtain ⟨slot, slotMember, rfl⟩ := List.mem_map.mp member
    obtain ⟨variable_, -, holdsIt⟩ := ValueTree.exists_mem_of_forall₂ holds slotMember
    exact ⟨variable_, Arena.HoldsVariable.trees world holdsIt⟩
  refine ⟨rfl, rfl, ⟨declaration, declared, ?_⟩, fun part member => ?_, fun part member => ?_⟩
  · exact (List.length_map _).trans holds.length_eq.symm
  · obtain ⟨variable_, rfl⟩ := partIs part member
    exact List.cons_ne_nil _ _
  · obtain ⟨variable_, rfl⟩ := partIs part member
    intro inner isInner
    rw [List.mem_singleton.mp isInner]
    rfl

/-- The slots of distinct variables meet what is in their places. -/
theorem forall₂_lookup_of_holdsVariable (distinct : typeParameters.Nodup)
    (holds : List.Forall₂ arena.HoldsVariable typeParameters slots)
    (length : arguments.length = typeParameters.length) :
    List.Forall₂
      (fun slot argument => ∃ variable_, arena.HoldsVariable variable_ slot ∧
        (typeParameters.zip arguments).lookup variable_ = some argument)
      slots arguments := by
  induction holds generalizing arguments with
  | nil =>
    rw [List.eq_nil_of_length_eq_zero length]
    exact .nil
  | @cons parameter slot others slots first rest ih =>
    obtain ⟨argument, more, rfl⟩ := List.exists_cons_of_length_eq_add_one length
    obtain ⟨new, othersDistinct⟩ := List.nodup_cons.mp distinct
    refine .cons ⟨parameter, first, by simp⟩ ?_
    refine (ih othersDistinct (Nat.succ.inj length)).imp ?_
    rintro slot argument ⟨variable_, holdsIt, isGiven⟩
    have different : variable_ ≠ parameter := by
      rintro rfl
      exact new (mem_of_lookup_zip isGiven).1
    refine ⟨variable_, holdsIt, ?_⟩
    rw [List.zip_cons_cons, List.lookup_cons, beq_eq_false_iff_ne.mpr different]
    exact isGiven

variable {limit : Nat} (handsOn : declaration.HandsOn declarations arena limit)
  (nonempty : ∀ argument ∈ arguments, argument.isEmpty = false)

include handsOn nonempty

/-- What is bound to a type parameter is what is in its place. -/
theorem given_bindings_of_lookup
    (isBound : (declaration.typeParameters.zip arguments).lookup variable_ = some argument) :
    (declaration.bindings arguments).given declarations arena variable_ =
      some (arena.trees argument) := by
  have bound : (declaration.bindings arguments).get? variable_ = some argument := by
    rw [ClassDeclaration.bindings, Substitution.get?_ofList_zipWith handsOn.distinct nonempty]
    exact isBound
  rw [Substitution.given, bound, handsOn.unconstrained variable_ (mem_of_lookup_zip isBound).1]
  rfl

theorem given_bindings_ne_nil
    (isGiven : (declaration.bindings arguments).given declarations arena variable_ = some trees) :
    trees ≠ [] := by
  obtain ⟨argument, bound, -⟩ := Option.map_eq_some_iff.mp isGiven
  rw [ClassDeclaration.bindings, Substitution.get?_ofList_zipWith handsOn.distinct nonempty]
    at bound
  rw [given_bindings_of_lookup handsOn nonempty bound] at isGiven
  cases isGiven
  have hasMembers := nonempty argument (mem_of_lookup_zip bound).2
  intro nothing
  rw [Arena.trees, List.map_eq_nil_iff] at nothing
  rw [TypeSet.isEmpty, nothing] at hasMembers
  cases hasMembers

/-- An instantiated class shows the class applied to its own type parameters, filled. -/
theorem shows_instantiated (world : World.WellFormed ⟨arena, declarations⟩)
    (openedFound : arena.get? opened = some (.genericClass class_ (.resolved ⟨slots, homogeneous⟩)))
    (holds : List.Forall₂ arena.HoldsVariable declaration.typeParameters slots)
    (filledFound : arena.get? filled =
      some (.genericClass class_ (.resolved ⟨arguments, homogeneous⟩)))
    (length : arguments.length = declaration.typeParameters.length) :
    arena.Shows declarations (.singleton filled)
      ((arena.tree opened).replace ((declaration.bindings arguments).given declarations arena)) := by
  refine ⟨within_singleton (Arena.lt_size_of_get? filledFound), ?_⟩
  have sameOutline :
      (Value.genericClass class_ (.resolved ⟨arguments, homogeneous⟩)).outline =
        (Value.genericClass class_ (.resolved ⟨slots, homogeneous⟩)).outline := by
    have holdsTypes : (Value.genericClass class_ (.resolved ⟨slots, homogeneous⟩)).holdsTypes =
        true := rfl
    exact Value.outline_withParts holdsTypes (length.trans holds.length_eq)
  rw [Arena.trees_singleton, Arena.tree_of_get? world filledFound,
    Arena.tree_of_get? world openedFound, sameOutline, ValueTree.replace_of_holdsTypes rfl,
    ValueTree.SetsAlike.singleton_iff, ValueTree.alike_node]
  refine ⟨rfl, ?_⟩
  rw [List.map_map, List.forall₂_map_left_iff, List.forall₂_map_right_iff]
  refine (forall₂_lookup_of_holdsVariable handsOn.distinct holds length).flip.imp ?_
  rintro argument slot ⟨variable_, holdsIt, isBound⟩
  rw [Function.comp_apply, Arena.HoldsVariable.trees world holdsIt, List.flatMap_singleton,
    ValueTree.replace_typeVariable, given_bindings_of_lookup handsOn nonempty isBound]
  exact .refl _

end Applied

/-! ## Instantiated ancestors -/

/-- One value becomes another when variables are replaced. -/
def Environment.Instantiates (environment : Environment) (substitution : Substitution)
    (state : State) (id other : ValueId) : Prop :=
  ∃ after, ∀ fuel,
    environment.answer fuel (.substitute (.singleton id) substitution) state =
      .ok (.singleton other, after)

/-- One ancestor becomes another when variables are replaced. -/
structure Environment.InstantiatesAncestor (environment : Environment) (substitution : Substitution)
    (state : State) (ancestor other : Engine.Ancestor) : Prop where
  sameClass : ancestor.class_ = other.class_
  instantiates : environment.Instantiates substitution state ancestor.value other.value

section Instantiated

variable {env : Environment} {origin : Arena} {substitution : Substitution} {state : State}

section

variable (world : World.WellFormed ⟨origin, env.declarations⟩)
  (within : env.Scopes origin.size substitution)
  (admitted : (Judgement.immediate env (.spanning 0)).Admits state)
  (continues : origin ≤ state.arena)

include world within admitted continues

/-- Of one entry of a trace, what is left open becomes what is filled. -/
theorem instantiatesAncestor_of_traces
    (isOpen : state.arena.Traces env.declarations (fun _ => none) entry ancestor)
    (isFilled : state.arena.Traces env.declarations
      (substitution.given env.declarations origin) entry other)
    (shallow : (state.arena.tree ancestor.value).depth ≤ env.settings.unificationDepthLimit) :
    env.InstantiatesAncestor substitution state ancestor other := by
  refine ⟨isOpen.sameClass.symm.trans isFilled.sameClass, ?_⟩
  have alike : (state.arena.tree ancestor.value).Alike entry.2 := by
    have shown := isOpen.shows.alike
    rw [Arena.trees_singleton, ValueTree.replace_of_given_none fun _ => rfl,
      ValueTree.SetsAlike.singleton_iff] at shown
    exact shown
  obtain ⟨⟨replaced, after⟩, ⟨afterAdmitted, further, shows⟩, succeeds⟩ :=
    Judgement.reaches_substitute_shows trivial admitted
      ((Substitution.showsGiven world within).mono world continues) isOpen.shows.within
      (by simp [alike.symm.isRead isOpen.read]) (by simpa using shallow)
  rw [Arena.trees_singleton, List.flatMap_singleton] at shows
  have filled := isFilled.shows.mono admitted.wellFormed.world further
  have same : replaced = .singleton other.value :=
    Arena.eq_of_setsAlike afterAdmitted.wellFormed.world shows.within filled.within
      (shows.alike.trans ((alike.replace _).trans filled.alike.symm))
  cases same
  simp only [env.stage_eq_engine] at succeeds
  exact ⟨after, succeeds⟩

theorem forall₂_instantiatesAncestor
    (areOpen : List.Forall₂ (state.arena.Traces env.declarations fun _ => none) traced opens)
    (areFilled : List.Forall₂ (state.arena.Traces env.declarations
      (substitution.given env.declarations origin)) traced fills)
    (shallow : ∀ ancestor ∈ opens, (state.arena.tree ancestor.value).depth ≤
      env.settings.unificationDepthLimit) :
    List.Forall₂ (env.InstantiatesAncestor substitution state) opens fills := by
  induction areOpen generalizing fills with
  | nil =>
    cases areFilled
    exact .nil
  | cons isOpen _ ih =>
    cases areFilled with
    | cons isFilled areFilled =>
      exact .cons
        (instantiatesAncestor_of_traces world within admitted continues isOpen isFilled
          (shallow _ List.mem_cons_self))
        (ih areFilled fun _ member => shallow _ (List.mem_cons_of_mem _ member))

end

/-- The first ancestor of a class becomes the first one of that class. -/
theorem rel_find?_instantiatesAncestor
    (instantiates : List.Forall₂ (env.InstantiatesAncestor substitution state) opens fills)
    (class_ : ClassId) :
    Option.Rel (env.Instantiates substitution state)
      ((opens.find? fun ancestor => ancestor.class_ == class_).map Engine.Ancestor.value)
      ((fills.find? fun ancestor => ancestor.class_ == class_).map Engine.Ancestor.value) := by
  induction instantiates with
  | nil => exact .none
  | @cons ancestor other _ _ first _ ih =>
    rw [List.find?_cons, List.find?_cons, ← first.sameClass]
    cases ancestor.class_ == class_ with
    | true => exact .some first.instantiates
    | false => exact ih

/-- What the ancestors are, the resolution order lists and a search by class finds. -/
theorem answers_of_ancestors
    (succeeds : ∀ fuel, (env.engine fuel).ancestors id state = .ok (reached, after)) :
    (∀ fuel, env.answer fuel (.resolutionOrder id) state =
      .ok (reached.map Engine.Ancestor.value, after)) ∧
    ∀ class_ fuel, env.answer fuel (.ancestor id class_) state =
      .ok ((reached.find? fun ancestor => ancestor.class_ == class_).map Engine.Ancestor.value,
        after) :=
  ⟨fun fuel => Inference.bind_of_ok (succeeds fuel),
    fun _ fuel => Inference.bind_of_ok (succeeds fuel)⟩

end Instantiated

/--
Type arguments are carried along the ancestors.  Let all classes from which a class descends
hand their type arguments on to their bases.  Then the resolution order of the class with
type arguments is, entry by entry, that of the class applied to its own type parameters, with
the type arguments put in the place of the parameters, and so is the ancestor of any class.
-/
theorem resolutionOrder_of_instantiated
    {environment : Environment}
    {state : State}
    (wellFormed : state.WellFormed environment.declarations)
    {class_ : ClassId}
    {declaration : ClassDeclaration}
    (declared : environment.declarations.class? class_ = some declaration)
    (handsOn : ∀ other otherDeclaration,
      environment.declarations.Descends state.arena class_ other →
      environment.declarations.class? other = some otherDeclaration →
      otherDeclaration.HandsOn environment.declarations state.arena
        environment.settings.unificationDepthLimit)
    {homogeneous : Bool}
    {opened : ValueId}
    {slots : List TypeSet}
    (openedFound : state.arena.get? opened =
      some (.genericClass class_ (.resolved ⟨slots, homogeneous⟩)))
    (holds : List.Forall₂ state.arena.HoldsVariable declaration.typeParameters slots)
    {filled : ValueId}
    {arguments : List TypeSet}
    (filledFound : state.arena.get? filled =
      some (.genericClass class_ (.resolved ⟨arguments, homogeneous⟩)))
    (length : arguments.length = declaration.typeParameters.length)
    (nonempty : ∀ argument ∈ arguments, argument.isEmpty = false) :
    ∃ opens afterOpen fills afterFill,
      (∀ fuel, environment.answer fuel (.resolutionOrder opened) state = .ok (opens, afterOpen)) ∧
      (∀ fuel, environment.answer fuel (.resolutionOrder filled) afterOpen =
        .ok (fills, afterFill)) ∧
      ((∀ entry ∈ opens, (afterOpen.arena.tree entry).depth ≤
          environment.settings.unificationDepthLimit) →
        List.Forall₂
          (environment.Instantiates (declaration.bindings arguments) afterFill) opens fills ∧
        ∀ ancestor, ∃ openOne fillOne,
          (∀ fuel, environment.answer fuel (.ancestor opened ancestor) state =
            .ok (openOne, afterOpen)) ∧
          (∀ fuel, environment.answer fuel (.ancestor filled ancestor) afterOpen =
            .ok (fillOne, afterFill)) ∧
          Option.Rel (environment.Instantiates (declaration.bindings arguments) afterFill)
            openOne fillOne) := by
  have world := wellFormed.world
  have admitted : (Judgement.immediate environment (.spanning 0)).Admits state :=
    ⟨wellFormed, Nat.zero_le _⟩
  have ownHandsOn := handsOn class_ declaration .refl declared
  have saturates := saturates_of_holdsVariable world declared openedFound holds
  have bindingsWithin :=
    declaration.within_bindings (within_parts (world.within_of_get? filledFound))
  have nothingEmpty : ∀ variable_ trees,
      (fun _ => none : TypeVariableId → Option (List ValueTree)) variable_ = some trees →
        trees ≠ [] := fun _ _ isGiven => nomatch isGiven
  have openedShows : state.arena.Shows environment.declarations (.singleton opened)
      ((state.arena.tree opened).replace fun _ => none) := by
    rw [ValueTree.replace_of_given_none fun _ => rfl]
    exact Arena.shows_self (within_singleton (Arena.lt_size_of_get? openedFound))
  have filledShows :=
    shows_instantiated ownHandsOn nonempty world openedFound holds filledFound length
  obtain ⟨⟨opens, afterOpen⟩, ⟨openAdmitted, toOpen, areOpen⟩, openSucceeds⟩ :=
    Judgement.reaches_ancestors_trace trivial world handsOn nothingEmpty admitted
      (Arena.le_refl _) saturates openedShows
  obtain ⟨⟨fills, afterFill⟩, ⟨fillAdmitted, toFill, areFilled⟩, fillSucceeds⟩ :=
    Judgement.reaches_ancestors_trace trivial world handsOn
      (fun _ _ isGiven => given_bindings_ne_nil ownHandsOn nonempty isGiven)
      openAdmitted toOpen saturates (filledShows.mono world toOpen)
  simp only [environment.stage_eq_engine] at openSucceeds fillSucceeds
  obtain ⟨openOrder, openAncestor⟩ := answers_of_ancestors openSucceeds
  obtain ⟨fillOrder, fillAncestor⟩ := answers_of_ancestors fillSucceeds
  refine ⟨_, afterOpen, _, afterFill, openOrder, fillOrder, fun shallow => ?_⟩
  have openWorld := openAdmitted.wellFormed.world
  have stillOpen := areOpen.imp fun _ _ traces => traces.mono openWorld toFill
  have instantiates := forall₂_instantiatesAncestor world bindingsWithin fillAdmitted
    (Arena.le_trans toOpen toFill) stillOpen areFilled fun ancestor member => by
      obtain ⟨_, -, traces⟩ := ValueTree.exists_mem_of_forall₂ areOpen member
      rw [Arena.tree_of_le openWorld toFill (traces.shows.within _ (by simp))]
      exact shallow _ (List.mem_map_of_mem member)
  refine ⟨?_, fun ancestor => ⟨_, _, openAncestor ancestor, fillAncestor ancestor,
    rel_find?_instantiatesAncestor instantiates ancestor⟩⟩
  rw [List.forall₂_map_left_iff, List.forall₂_map_right_iff]
  exact instantiates.imp fun _ _ both => both.instantiates

/--
Classes that hand their type arguments on in another order, nested, and along two ways to one
class, with the bottom applied to its own type parameters and to type arguments.
-/
def World.permuted : World :=
  let (first, declared) := World.initial.declarations.addTypeVariable "T"
  let (second, declared) := declared.addTypeVariable "U"
  let (top, declared) := declared.addClass
    { name := "Top", typeParameters := [first, second], bases := [.singleton ⟨3⟩] }
  let (left, declared) := declared.addClass
    { name := "Left", typeParameters := [first, second], bases := [.singleton ⟨23⟩] }
  let (right, declared) := declared.addClass
    { name := "Right", typeParameters := [first], bases := [.singleton ⟨24⟩] }
  let (bottom, declared) := declared.addClass
    { name := "Bottom", typeParameters := [first, second],
      bases := [.singleton ⟨25⟩, .singleton ⟨26⟩] }
  { arena := World.initial.arena.append
      [.typeVariable first, .typeVariable second,
        .genericClass Builtin.list (.ofSlots [.singleton ⟨20⟩]),
        .genericClass Builtin.list (.ofSlots [.singleton ⟨19⟩]),
        .genericClass top (.ofSlots [.singleton ⟨20⟩, .singleton ⟨19⟩]),
        .genericClass top (.ofSlots [.singleton ⟨19⟩, .singleton ⟨22⟩]),
        .genericClass left (.ofSlots [.singleton ⟨21⟩, .singleton ⟨19⟩]),
        .genericClass right (.ofSlots [.singleton ⟨20⟩]),
        .genericClass bottom (.ofSlots [.singleton ⟨19⟩, .singleton ⟨20⟩]),
        .genericClass bottom (.ofSlots [.singleton ⟨4⟩, .ofList [⟨4⟩, ⟨5⟩]])]
    declarations := declared }

/-- Both ways lead to the top, which is reached along the first one only. -/
theorem resolutionOrder_of_instantiated_of_permuted :
    let environment : Environment :=
      { declarations := World.permuted.declarations, provider := Tree.fixedProvider {} }
    let state := environment.start World.permuted.arena
    let bindings : Substitution :=
      .ofList [⟨⟨8⟩, .singleton ⟨4⟩⟩, ⟨⟨9⟩, .ofList [⟨4⟩, ⟨5⟩]⟩]
    (∀ declaration ∈ environment.declarations.classes.toList,
      declaration.HandsOn environment.declarations state.arena
        environment.settings.unificationDepthLimit) ∧
    ∃ opens afterOpen fills afterFill,
      (∀ fuel, environment.answer fuel (.resolutionOrder ⟨27⟩) state = .ok (opens, afterOpen)) ∧
      (∀ fuel, environment.answer fuel (.resolutionOrder ⟨28⟩) afterOpen =
        .ok (fills, afterFill)) ∧
      opens.length = 5 ∧
      List.Forall₂ (environment.Instantiates bindings afterFill) opens fills := by
  intro environment state bindings
  have wellFormed : World.permuted.WellFormed := .ofChecks (by decide +kernel) (by decide +kernel)
  have handsOn : ∀ declaration ∈ environment.declarations.classes.toList,
      declaration.HandsOn environment.declarations state.arena
        environment.settings.unificationDepthLimit := by decide +kernel
  refine ⟨handsOn, ?_⟩
  have holds : List.Forall₂ state.arena.HoldsVariable [⟨8⟩, ⟨9⟩]
      [.singleton ⟨19⟩, .singleton ⟨20⟩] := .cons ⟨⟨19⟩, rfl, rfl⟩ (.cons ⟨⟨20⟩, rfl, rfl⟩ .nil)
  have nonempty : ∀ argument ∈ [TypeSet.singleton ⟨4⟩, .ofList [⟨4⟩, ⟨5⟩]],
      argument.isEmpty = false := by decide
  obtain ⟨opens, afterOpen, fills, afterFill, openSucceeds, fillSucceeds, instantiates⟩ :=
    resolutionOrder_of_instantiated (.ofWorld wellFormed _) rfl
      (fun _ declaration _ declared => handsOn declaration
        (Array.mem_toList_iff.mpr (Array.mem_of_getElem? declared)))
      (rfl : state.arena.get? ⟨27⟩ = some (.genericClass ⟨18⟩
        (.resolved ⟨[.singleton ⟨19⟩, .singleton ⟨20⟩], false⟩))) holds
      (rfl : state.arena.get? ⟨28⟩ = some (.genericClass ⟨18⟩
        (.resolved ⟨[.singleton ⟨4⟩, .ofList [⟨4⟩, ⟨5⟩]], false⟩))) rfl nonempty
  have computed : ((environment.answer 0 (.resolutionOrder ⟨27⟩) state).toOption.map
      fun result => (result.1.length, result.1.all fun entry =>
        (result.2.arena.tree entry).depth ≤ environment.settings.unificationDepthLimit)) =
        some (5, true) := by decide +kernel
  rw [openSucceeds 0] at computed
  obtain ⟨five, shallow⟩ := Prod.ext_iff.mp (Option.some.inj computed)
  refine ⟨opens, afterOpen, fills, afterFill, openSucceeds, fillSucceeds, five,
    (instantiates fun entry member => ?_).1⟩
  exact of_decide_eq_true (List.all_eq_true.mp shallow entry member)

end TypeInference
