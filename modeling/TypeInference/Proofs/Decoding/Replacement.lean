import TypeInference.Proofs.Decoding
import TypeInference.Proofs.Judgement.Request
import TypeInference.Proofs.Reachability

/-!
# Replacing type variables is simultaneous substitution

On trees, replacing type variables is one pass: every variable that something is given for
makes way for it, inside of the type arguments of classes and typing forms and inside of
parameter lists, and what is given is not looked into.  Replacing the variables of a set in
an arena comes to the same, however values are shared, left alone or interned on the way,
if all type arguments were read and nest no deeper than the depth limit.
-/

namespace TypeInference

variable {expected : TypeSet → List ValueTree} {set : TypeSet} {id : ValueId}
  {slots replaced : List TypeSet} {nested : Nat → TypeSet → Inference TypeSet} {levels : Nat}
  {substitution : Substitution} {stored : Value}

/-! ## Replacement on trees -/

namespace Value

/-- Values inside of which type variables are replaced. -/
def holdsTypes : Value → Bool
  | genericClass _ (.resolved _) | special _ (.resolved _) | typeList _ => true
  | _ => false

/-- Classes and typing forms whose type arguments were not read. -/
def isUnread : Value → Bool
  | genericClass _ (.lazy _) | special _ (.lazy _) => true
  | _ => false

end Value

namespace ValueTree

mutual

/-- Replace the variables of a tree by what is given for them. -/
def replace (given : TypeVariableId → Option (List ValueTree)) : ValueTree → List ValueTree
  | .node (.typeVariable variable_) parts =>
    (given variable_).getD [.node (.typeVariable variable_) parts]
  | .node outline parts =>
    [.node outline (if outline.holdsTypes then replaceParts given parts else parts)]

def replaceParts (given : TypeVariableId → Option (List ValueTree)) :
    List (List ValueTree) → List (List ValueTree)
  | [] => []
  | part :: rest => replaceAll given part :: replaceParts given rest

def replaceAll (given : TypeVariableId → Option (List ValueTree)) :
    List ValueTree → List ValueTree
  | [] => []
  | tree :: rest => replace given tree ++ replaceAll given rest

end

mutual

/-- How deeply the sets nest in which variables are replaced. -/
def depth : ValueTree → Nat
  | .node outline parts => if outline.holdsTypes then depthOfParts parts else 0

/-- How deeply sets nest in any of some parts. -/
def depthOfParts : List (List ValueTree) → Nat
  | [] => 0
  | part :: rest => max (depthOfAll part) (depthOfParts rest)

/-- How deeply sets nest below the one of some trees. -/
def depthOfAll : List ValueTree → Nat
  | [] => 0
  | tree :: rest => max (depth tree + 1) (depthOfAll rest)

end

mutual

/-- Whether all type arguments were read where variables are replaced. -/
def isRead : ValueTree → Bool
  | .node outline parts => !outline.isUnread && (!outline.holdsTypes || arePartsRead parts)

/-- Whether all type arguments were read in every part. -/
def arePartsRead : List (List ValueTree) → Bool
  | [] => true
  | part :: rest => areAllRead part && arePartsRead rest

/-- Whether all type arguments were read in every tree. -/
def areAllRead : List ValueTree → Bool
  | [] => true
  | tree :: rest => isRead tree && areAllRead rest

end

section Trees

variable {given : TypeVariableId → Option (List ValueTree)} {outline : Value}
  {parts : List (List ValueTree)}

theorem replaceAll_eq_flatMap (trees : List ValueTree) :
    replaceAll given trees = trees.flatMap (replace given) := by
  induction trees with
  | nil => rfl
  | cons tree rest ih => rw [replaceAll, ih, List.flatMap_cons]

theorem replaceParts_eq_map (parts : List (List ValueTree)) :
    replaceParts given parts = parts.map fun part => part.flatMap (replace given) := by
  induction parts with
  | nil => rfl
  | cons part rest ih =>
    rw [replaceParts, ih, replaceAll_eq_flatMap, List.map_cons]

theorem replace_typeVariable (variable_ : TypeVariableId) (parts : List (List ValueTree)) :
    replace given (.node (.typeVariable variable_) parts) =
      (given variable_).getD [.node (.typeVariable variable_) parts] := by
  rw [replace]

/-- Variables are replaced inside of what holds types. -/
theorem replace_of_holdsTypes (holds : outline.holdsTypes = true) :
    replace given (.node outline parts) =
      [.node outline (parts.map fun part => part.flatMap (replace given))] := by
  rw [replace, if_pos holds, replaceParts_eq_map]
  rintro variable_ rfl
  cases holds

/-- Anything else is left as it is. -/
theorem replace_of_not_holdsTypes (holdsNone : outline.holdsTypes = false)
    (noVariable : ∀ variable_, outline ≠ .typeVariable variable_) :
    replace given (.node outline parts) = [.node outline parts] := by
  rw [replace, if_neg (by simp [holdsNone])]
  exact noVariable

theorem depth_le_iff (holds : outline.holdsTypes = true) :
    (node outline parts).depth ≤ levels ↔ ∀ part ∈ parts, ∀ tree ∈ part, tree.depth < levels := by
  have ofAll : ∀ trees : List ValueTree,
      depthOfAll trees ≤ levels ↔ ∀ tree ∈ trees, tree.depth < levels := by
    intro trees
    induction trees with
    | nil => simp [depthOfAll]
    | cons tree rest ih =>
      simp only [depthOfAll, Nat.max_le, Nat.succ_le_iff, ih, List.forall_mem_cons]
  rw [depth, if_pos holds]
  induction parts with
  | nil => simp [depthOfParts]
  | cons part rest ih => simp [depthOfParts, ih, ofAll]

theorem isRead_iff :
    (node outline parts).isRead = true ↔ outline.isUnread = false ∧
      (outline.holdsTypes = true → ∀ part ∈ parts, ∀ tree ∈ part, tree.isRead = true) := by
  have ofAll : ∀ trees : List ValueTree,
      areAllRead trees = true ↔ ∀ tree ∈ trees, tree.isRead = true := by
    intro trees
    induction trees with
    | nil => simp [areAllRead]
    | cons tree rest ih => simp [areAllRead, ih]
  have ofParts : arePartsRead parts = true ↔ ∀ part ∈ parts, ∀ tree ∈ part, tree.isRead = true := by
    induction parts with
    | nil => simp [arePartsRead]
    | cons part rest ih => simp [arePartsRead, ih, ofAll]
  rw [isRead, ← ofParts]
  cases outline.holdsTypes <;> simp

/-- A tree is a variable, or it holds types and is replaced in its parts, or it is left alone. -/
@[elab_as_elim]
theorem replacementInduction {motive : ValueTree → Prop}
    (typeVariable : ∀ variable_ parts, motive (.node (.typeVariable variable_) parts))
    (holding : ∀ outline parts, outline.holdsTypes = true →
      (∀ part ∈ parts, ∀ tree ∈ part, motive tree) → motive (.node outline parts))
    (other : ∀ outline parts, outline.holdsTypes = false →
      (∀ variable_, outline ≠ .typeVariable variable_) → motive (.node outline parts))
    (tree : ValueTree) :
    motive tree := by
  induction tree using ValueTree.induction with
  | node outline parts ih =>
    cases holds : outline.holdsTypes with
    | true => exact holding outline parts holds ih
    | false =>
      by_cases isVariable : ∃ variable_, outline = .typeVariable variable_
      · obtain ⟨variable_, rfl⟩ := isVariable
        exact typeVariable variable_ parts
      · exact other outline parts holds fun variable_ same => isVariable ⟨variable_, same⟩

/-- Where nothing is given, nothing is replaced. -/
theorem replace_of_given_none (nothing : ∀ variable_, given variable_ = none) (tree : ValueTree) :
    replace given tree = [tree] := by
  induction tree using replacementInduction with
  | typeVariable variable_ parts =>
    rw [replace_typeVariable, nothing]
    rfl
  | holding outline parts holds ih =>
    have same : (parts.map fun part => part.flatMap (replace given)) = parts := by
      refine (List.map_congr_left fun part member => ?_).trans (List.map_id parts)
      rw [List.flatMap_congr fun tree inPart => ih part member tree inPart]
      simp
    rw [replace_of_holdsTypes holds, same]
  | other outline parts holds noVariable => exact replace_of_not_holdsTypes holds noVariable

end Trees

end ValueTree

/-! ## What a substitution gives -/

/-- Whether a tree is that of the unconstrained value. -/
def ValueTree.isAny : ValueTree → Bool
  | .node .any _ => true
  | _ => false

/--
The trees that a substitution gives for a variable: those of the values it is bound to,
with the declared constraints in the place of the unconstrained value.
-/
def Substitution.given (substitution : Substitution) (declarations : Declarations) (arena : Arena)
    (variable_ : TypeVariableId) :
    Option (List ValueTree) :=
  (substitution.get? variable_).map fun found =>
    match declarations.typeVariables.constraints? variable_ with
    | some constraints => (arena.trees found).flatMap fun tree =>
      if tree.isAny then arena.trees constraints else [tree]
    | none => arena.trees found

/-- A set within the scope whose members have the trees that are expected. -/
structure Arena.Shows (arena : Arena) (declarations : Declarations) (set : TypeSet)
    (expected : List ValueTree) : Prop where
  within : Within declarations arena.size set
  alike : ValueTree.SetsAlike (arena.trees set) expected

/-- A substitution within the scope that puts the given trees in the place of variables. -/
structure Arena.ShowsGiven (arena : Arena) (declarations : Declarations)
    (substitution : Substitution) (given : TypeVariableId → Option (List ValueTree)) : Prop where
  bound : ∀ variable_ found, substitution.get? variable_ = some found →
    ∃ expected, given variable_ = some expected ∧
      arena.Shows declarations
        (declarations.typeVariables.narrow variable_ found Arena.anyId) expected
  unbound : ∀ variable_, substitution.get? variable_ = none → given variable_ = none

section Shows

variable {declarations : Declarations} {arena later : Arena}

theorem Arena.Shows.mono (world : World.WellFormed ⟨arena, declarations⟩)
    (continues : arena ≤ later) {expected : List ValueTree}
    (shows : arena.Shows declarations set expected) :
    later.Shows declarations set expected where
  within := shows.within.grow (Arena.size_le_of_le continues)
  alike := by
    rw [Arena.trees_of_le world continues shows.within]
    exact shows.alike

theorem Arena.ShowsGiven.mono (world : World.WellFormed ⟨arena, declarations⟩)
    (continues : arena ≤ later) (shows : arena.ShowsGiven declarations substitution given) :
    later.ShowsGiven declarations substitution given where
  bound := fun variable_ found isFound =>
    (shows.bound variable_ found isFound).imp fun _ holds => ⟨holds.1, holds.2.mono world continues⟩
  unbound := shows.unbound

theorem Arena.shows_self (within : Within declarations arena.size set) :
    arena.Shows declarations set (arena.trees set) :=
  ⟨within, .refl _⟩

theorem Arena.Shows.union (leftShows : arena.Shows declarations left leftExpected)
    (rightShows : arena.Shows declarations right rightExpected) :
    arena.Shows declarations (left ∪ right) (leftExpected ++ rightExpected) where
  within := within_union leftShows.within rightShows.within
  alike :=
    have listed : ValueTree.SetsAlike (arena.trees (left ∪ right))
        (arena.trees left ++ arena.trees right) :=
      .of_mem_iff fun tree => by rw [Arena.mem_trees_union, List.mem_append]
    listed.trans (leftShows.alike.append rightShows.alike)

section

variable (world : World.WellFormed ⟨arena, declarations⟩)

include world

/-- Only the unconstrained value has its tree. -/
theorem Arena.isAny_tree (within : id.index < arena.size) :
    (arena.tree id).isAny = true ↔ id = Arena.anyId := by
  obtain ⟨stored, found⟩ := Arena.exists_get? within
  rw [Arena.tree_of_get? world found]
  constructor
  · intro isAny
    have isStored : stored = .any := by
      cases stored with
      | any => rfl
      | _ => cases isAny
    have first := (world.indexed stored id).mpr found
    have second := (world.indexed .any Arena.anyId).mpr world.anyStored
    rw [isStored, second] at first
    exact (Option.some.inj first).symm
  · rintro rfl
    have anyStored : arena.get? Arena.anyId = some .any := world.anyStored
    rw [anyStored] at found
    cases found
    rfl

/-- Narrowing puts the constraints in the place of the unconstrained value. -/
theorem Arena.mem_trees_narrowed (within : Within declarations arena.size found)
    (tree : ValueTree) :
    tree ∈ arena.trees
        (if found.contains Arena.anyId then found.erase Arena.anyId ∪ constraints else found) ↔
      tree ∈ (arena.trees found).flatMap fun present =>
        if present.isAny then arena.trees constraints else [present] := by
  have perMember : (tree ∈ (arena.trees found).flatMap fun present =>
        if present.isAny then arena.trees constraints else [present]) ↔
      ∃ id ∈ found, if id = Arena.anyId then tree ∈ arena.trees constraints
        else arena.tree id = tree := by
    have listed : arena.trees found = found.members.map arena.tree := rfl
    rw [listed, List.flatMap_map, List.mem_flatMap]
    refine exists_congr fun id => and_congr_right fun member => ?_
    have isAny := Arena.isAny_tree world (within id member)
    by_cases same : id = Arena.anyId
    · simp only [if_pos same, if_pos (isAny.mpr same)]
    · simp only [if_neg same, if_neg fun holds => same (isAny.mp holds), List.mem_singleton]
      exact eq_comm
  rw [perMember]
  by_cases contained : Arena.anyId ∈ found
  · rw [if_pos (TypeSet.contains_iff.mpr contained), Arena.mem_trees_union, Arena.mem_trees]
    simp only [TypeSet.mem_erase]
    constructor
    · rintro (⟨id, ⟨member, other⟩, rfl⟩ | constrained)
      · exact ⟨id, member, by rw [if_neg other]⟩
      · exact ⟨Arena.anyId, contained, by rwa [if_pos rfl]⟩
    · rintro ⟨id, member, holds⟩
      split at holds
      · exact Or.inr holds
      · rename_i other
        exact Or.inl ⟨id, ⟨member, other⟩, holds⟩
  · rw [if_neg fun holds => contained (TypeSet.contains_iff.mp holds), Arena.mem_trees]
    refine exists_congr fun id => and_congr_right fun member => ?_
    have other : id ≠ Arena.anyId := fun same => contained (same ▸ member)
    rw [if_neg other]

/-- A substitution within the scope gives the trees of its bindings. -/
theorem Substitution.showsGiven (within : Within declarations arena.size substitution) :
    arena.ShowsGiven declarations substitution (substitution.given declarations arena) where
  unbound := fun variable_ notFound => by rw [Substitution.given, notFound]; rfl
  bound := by
    intro variable_ found isFound
    have foundWithin := within_substitution_get? within isFound
    refine ⟨_, by rw [Substitution.given, isFound]; rfl,
      within_narrow world.declared foundWithin variable_ _, .of_mem_iff fun tree => ?_⟩
    unfold TypeVariables.narrow
    cases declarations.typeVariables.constraints? variable_ with
    | none => exact Iff.rfl
    | some constraints => exact Arena.mem_trees_narrowed world foundWithin tree

end

end Shows

/-! ## Replacement in an arena -/

namespace Judgement

open Inference

variable {env : Environment} {judgement : Judgement env} {state : State}

/-- A loop unites sets that are shown one by one. -/
theorem reaches_unionOver_shows {setOf : Nat → α → Inference TypeSet} {items : List α}
    {expected : α → List ValueTree} (admitted : judgement.Admits state)
    (each : ∀ item ∈ items, ∀ later, judgement.Admits later → state.arena ≤ later.arena →
      judgement.Reaches later (fun fuel => setOf fuel item)
        fun after set => after.arena.Shows env.declarations set (expected item)) :
    judgement.Reaches state (fun fuel => unionOver (setOf fuel) items)
      fun after set => after.arena.Shows env.declarations set (items.flatMap expected) := by
  induction items generalizing state with
  | nil => exact reaches_pure admitted ⟨within_empty, .refl _⟩
  | cons item rest ih =>
    refine (each item (by simp) state admitted (Arena.le_refl _)).bind
      fun between first betweenAdmitted continues firstShows => ?_
    have restReaches := ih betweenAdmitted
      fun other member later laterAdmitted further =>
        each other (by simp [member]) later laterAdmitted (Arena.le_trans continues further)
    refine restReaches.bind fun after others afterAdmitted further othersShow => ?_
    exact reaches_pure afterAdmitted
      ((firstShows.mono betweenAdmitted.wellFormed.world further).union othersShow)

end Judgement

/-! ### Values that hold types -/

namespace Value

variable {stored : Value} {replaced : List TypeSet}

theorem parts_withParts (holds : stored.holdsTypes = true) (replaced : List TypeSet) :
    (stored.withParts replaced).parts = replaced := by
  cases stored with
  | genericClass class_ generics | special form generics =>
    cases generics with
    | resolved arguments => rfl
    | lazy node => cases holds
  | typeList items => rfl
  | _ => cases holds

theorem outline_withParts (holds : stored.holdsTypes = true)
    (lengths : replaced.length = stored.parts.length) :
    (stored.withParts replaced).outline = stored.outline := by
  have emptied : (replaced.map fun _ => (∅ : TypeSet)) = stored.parts.map fun _ => ∅ := by
    simp only [List.map_const', lengths]
  have filled : (stored.withParts replaced).outline =
      stored.withParts (replaced.map fun _ => ∅) := by
    rw [outline, parts_withParts holds]
    cases stored with
    | genericClass class_ generics | special form generics => cases generics <;> rfl
    | typeList items => rfl
    | _ => cases holds
  rw [filled, emptied, outline]

theorem holdsTypes_outline (stored : Value) : stored.outline.holdsTypes = stored.holdsTypes := by
  cases stored with
  | genericClass class_ generics | special form generics => cases generics <;> rfl
  | _ => rfl

theorem isUnread_outline (stored : Value) : stored.outline.isUnread = stored.isUnread := by
  cases stored with
  | genericClass class_ generics | special form generics => cases generics <;> rfl
  | _ => rfl

end Value

namespace Arena

variable {declarations : Declarations} {arena : Arena} {id : ValueId} {stored : Value}

/-- A value that refers to sets that are shown is shown with them in its parts. -/
theorem shows_withParts (world : World.WellFormed ⟨arena, declarations⟩)
    (holds : stored.holdsTypes = true)
    (shows : List.Forall₂ (fun slot set => arena.Shows declarations set (expected slot))
      stored.parts replaced)
    (found : arena.get? id = some (stored.withParts replaced)) :
    arena.Shows declarations (.singleton id) [.node stored.outline (stored.parts.map expected)] where
  within := within_singleton (Arena.lt_size_of_get? found)
  alike := by
    rw [Arena.trees_singleton, ValueTree.SetsAlike.singleton_iff, Arena.tree_of_get? world found,
      ValueTree.alike_node, Value.outline_withParts holds shows.length_eq.symm,
      Value.parts_withParts holds]
    refine ⟨rfl, ?_⟩
    rw [List.forall₂_map_left_iff, List.forall₂_map_right_iff]
    exact shows.flip.imp fun set slot slotShows => slotShows.alike

end Arena

theorem within_of_forall₂ {γ : Type} {related : γ → TypeSet → Prop} {keys : List γ}
    (becomes : List.Forall₂ related keys sets)
    (each : ∀ key set, related key set → Within declarations bound set) :
    Within declarations bound sets := by
  induction becomes with
  | nil => exact within_nil
  | cons first _ ih => exact within_cons.mpr ⟨each _ _ first, ih⟩

namespace Judgement

open Inference

variable {env : Environment} {judgement : Judgement env} {state : State}
  {substitution : Substitution} {given : TypeVariableId → Option (List ValueTree)}

section Becoming

variable {γ : Type} {keys : List γ} (standsFor becomes : Arena → γ → TypeSet → Prop)
  (standsStill : ∀ arena later key slot, arena ≤ later → standsFor arena key slot →
    standsFor later key slot)
  (survives : ∀ arena later key set, World.WellFormed ⟨arena, env.declarations⟩ →
    arena ≤ later → becomes arena key set → becomes later key set)
  (admitted : judgement.Admits state)
  (each : ∀ key ∈ keys, ∀ slot later, judgement.Admits later → state.arena ≤ later.arena →
    standsFor later.arena key slot →
    judgement.Reaches later (fun fuel => nested fuel slot)
      fun after set => becomes after.arena key set)

include standsStill survives admitted each

/-- Slots become what they should one by one, whether or not that changes them. -/
theorem reaches_substituteSlots (stand : List.Forall₂ (standsFor state.arena) keys slots) :
    judgement.Reaches state (fun fuel => Engine.substituteSlots (nested fuel) slots)
      fun after changed => List.Forall₂ (becomes after.arena) keys (changed.getD slots) := by
  refine (reaches_mapM standsFor becomes standsStill survives admitted stand each).bind
    fun after replaced afterAdmitted _ holds => reaches_pure afterAdmitted ?_
  by_cases same : replaced = slots
  · rw [if_pos same, ← same]
    exact holds
  · rw [if_neg same]
    exact holds

/-- A value that holds types is stored with what its parts become. -/
theorem reaches_substituteValue_of_holdsTypes
    (within : ∀ {arena key set}, becomes arena key set → env.Scopes arena.size set)
    (matching : stored.isCallable = true → judgement.Matching)
    (found : state.arena.get? id = some stored) (holds : stored.holdsTypes = true)
    (stand : List.Forall₂ (standsFor state.arena) keys stored.parts) :
    judgement.Reaches state
      (fun fuel => (env.stage fuel).substituteValue substitution (nested fuel) id)
      fun after replaced => ∃ new parts, replaced.getD (.singleton id) = .singleton new ∧
        after.arena.get? new = some (stored.withParts parts) ∧
        List.Forall₂ (becomes after.arena) keys parts := by
  have storedWithin := admitted.wellFormed.world.within_of_get? found
  have slots := reaches_substituteSlots standsFor becomes standsStill survives admitted each stand
  have stores {after : State} {parts : List TypeSet} (afterAdmitted : judgement.Admits after)
      (continues : state.arena ≤ after.arena)
      (become : List.Forall₂ (becomes after.arena) keys parts) :
      judgement.Reaches after
        (fun _ => (do return some (← internSet (stored.withParts parts))
          : Inference (Option TypeSet)))
        fun final replaced => ∃ new parts, replaced.getD (.singleton id) = .singleton new ∧
          final.arena.get? new = some (stored.withParts parts) ∧
          List.Forall₂ (becomes final.arena) keys parts := by
    have partsWithin := within_of_forall₂ become fun _ _ => within
    have storedWithin := storedWithin.grow (Arena.size_le_of_le continues)
    obtain ⟨valueWithin, noFunction, sameKind⟩ :
        env.Scopes after.arena.size (stored.withParts parts) ∧
          (stored.withParts parts).isFunction = false ∧
          (stored.withParts parts).isCallable = stored.isCallable := by
      cases stored with
      | genericClass class_ generics =>
        cases generics with
        | resolved arguments => exact ⟨⟨storedWithin.1, partsWithin⟩, rfl, rfl⟩
        | lazy node => cases holds
      | special form generics =>
        cases generics with
        | resolved arguments => exact ⟨partsWithin, rfl, by cases form <;> rfl⟩
        | lazy node => cases holds
      | typeList items => exact ⟨partsWithin, rfl, rfl⟩
      | _ => cases holds
    simp only [internSet, bind_assoc, pure_bind]
    exact (reaches_intern_of_matching afterAdmitted valueWithin noFunction
      (matching ∘ sameKind.symm.trans)).bind
      fun final new finalAdmitted continues found => reaches_pure finalAdmitted
        ⟨new, parts, rfl, found, become.imp fun _ _ =>
          survives _ _ _ _ afterAdmitted.wellFormed.world continues⟩
  refine reaches_value_bind found ?_
  cases stored with
  | genericClass class_ generics | special form generics =>
    cases generics with
    | lazy node => cases holds
    | resolved arguments =>
      simp only [Engine.substituteGenerics, Engine.typeArguments, pure_bind, bind_assoc]
      refine slots.bind fun after changed afterAdmitted continues become => ?_
      cases changed with
      | none =>
        exact reaches_pure afterAdmitted ⟨id, _, rfl, Arena.get?_of_le continues found, become⟩
      | some parts => exact stores afterAdmitted continues become
  | typeList items =>
    refine slots.bind fun after changed afterAdmitted continues become => ?_
    cases changed with
    | none =>
      exact reaches_pure afterAdmitted ⟨id, _, rfl, Arena.get?_of_le continues found, become⟩
    | some parts => exact stores afterAdmitted continues become
  | _ => cases holds

end Becoming

section

variable (matching : judgement.Matching) (admitted : judgement.Admits state)
  (gives : state.arena.ShowsGiven env.declarations substitution given)

include matching admitted gives

/-- One value is replaced as its tree is. -/
theorem reaches_substituteValue_shows (found : state.arena.get? id = some stored)
    (read : stored.isUnread = false)
    (each : stored.holdsTypes = true → ∀ slot ∈ stored.parts, ∀ later, judgement.Admits later →
      state.arena ≤ later.arena →
      judgement.Reaches later (fun fuel => nested fuel slot) fun after set =>
        after.arena.Shows env.declarations set
          ((state.arena.trees slot).flatMap (ValueTree.replace given))) :
    judgement.Reaches state
      (fun fuel => (env.stage fuel).substituteValue substitution (nested fuel) id)
      fun after replaced => after.arena.Shows env.declarations
        (replaced.getD (.singleton id)) ((state.arena.tree id).replace given) := by
  have world := admitted.wellFormed.world
  have shown : state.arena.Shows env.declarations (.singleton id) [state.arena.tree id] :=
    Arena.shows_self (within_singleton (Arena.lt_size_of_get? found))
  have treeFound := Arena.tree_of_get? world found
  by_cases holds : stored.holdsTypes = true
  · refine (reaches_substituteValue_of_holdsTypes (fun _ slot other => slot = other)
      (fun arena slot set => arena.Shows env.declarations set
        ((state.arena.trees slot).flatMap (ValueTree.replace given)))
      (fun _ _ _ _ _ same => same) (fun _ _ _ _ world further shows => shows.mono world further)
      admitted (fun slot member _ later laterAdmitted further same =>
        same ▸ each holds slot member later laterAdmitted further)
      Arena.Shows.within (fun _ => matching) found holds
      (List.forall₂_same.mpr fun _ _ => rfl)).imp fun after _ afterAdmitted _ replaces => ?_
    obtain ⟨new, parts, same, stores, shows⟩ := replaces
    rw [same, treeFound, ValueTree.replace_of_holdsTypes ((stored.holdsTypes_outline).trans holds),
      List.map_map]
    exact Arena.shows_withParts afterAdmitted.wellFormed.world holds shows stores
  simp only [Engine.substituteValue, Environment.stage_toEnvironment]
  cases stored with
  | typeVariable variable_ =>
    refine reaches_value_bind found (reaches_pure admitted ?_)
    have outlined : (Value.typeVariable variable_).outline = .typeVariable variable_ := rfl
    rw [treeFound, outlined] at shown ⊢
    rw [ValueTree.replace_typeVariable]
    cases bound : substitution.get? variable_ with
    | none =>
      rw [gives.unbound variable_ bound]
      exact shown
    | some set =>
      obtain ⟨expected, isGiven, shows⟩ := gives.bound variable_ set bound
      rw [isGiven]
      exact shows
  | genericClass class_ generics | special form generics =>
    cases generics with
    | lazy node => cases read
    | resolved arguments => cases holds rfl
  | typeList items => cases holds rfl
  | _ =>
    refine reaches_value_bind found (reaches_pure admitted ?_)
    rw [treeFound] at shown ⊢
    rw [ValueTree.replace_of_not_holdsTypes ((Value.holdsTypes_outline _).trans rfl)
      (by simp [Value.outline, Value.withParts])]
    exact shown

section

variable (within : env.Scopes state.arena.size set)
  (read : ∀ tree ∈ state.arena.trees set, tree.isRead = true)

include within read

/-- A set within the levels is replaced as its trees are. -/
theorem reaches_substituteWithin_shows
    (shallow : ∀ tree ∈ state.arena.trees set, tree.depth < levels) :
    judgement.Attains state (·.substituteWithin substitution levels set)
      fun after replaced => after.arena.Shows env.declarations replaced
        ((state.arena.trees set).flatMap (ValueTree.replace given)) := by
  induction levels generalizing state set with
  | zero =>
    -- Nothing nests less than not at all, so the set is empty.
    have nothing : state.arena.trees set = [] :=
      List.eq_nil_iff_forall_not_mem.mpr fun tree member => absurd (shallow tree member) (by simp)
    refine reaches_pure admitted ?_
    have shown := Arena.shows_self within
    rw [nothing] at shown ⊢
    exact shown
  | succ levels ih =>
    have world := admitted.wellFormed.world
    rw [Arena.trees, List.flatMap_map]
    refine reaches_unionOver_shows admitted fun id member later laterAdmitted continues => ?_
    have idWithin := within id member
    obtain ⟨stored, found⟩ := Arena.exists_get? idWithin
    have treeMember : state.arena.tree id ∈ state.arena.trees set :=
      Arena.mem_trees.mpr ⟨id, member, rfl⟩
    have treeRead := read _ treeMember
    have treeShallow := shallow _ treeMember
    rw [Arena.tree_of_get? world found, ValueTree.isRead_iff, Value.isUnread_outline,
      Value.holdsTypes_outline] at treeRead
    rw [Arena.tree_of_get? world found] at treeShallow
    have laterWorld := laterAdmitted.wellFormed.world
    have laterFound := Arena.get?_of_le continues found
    have replaced := reaches_substituteValue_shows matching laterAdmitted
      (gives.mono world continues) laterFound treeRead.1
      fun holds slot slotMember final finalAdmitted further => by
        have slotWithin := within_parts (world.within_of_get? found) slot slotMember
        have laterWithin := slotWithin.grow (Arena.size_le_of_le continues)
        have partMember : state.arena.trees slot ∈ stored.parts.map state.arena.trees :=
          List.mem_map_of_mem slotMember
        have sameTrees : final.arena.trees slot = state.arena.trees slot :=
          Arena.trees_of_le world (Arena.le_trans continues further) slotWithin
        have nested := ih finalAdmitted
          (gives.mono world (Arena.le_trans continues further))
          (laterWithin.grow (Arena.size_le_of_le further))
          (sameTrees ▸ treeRead.2 holds _ partMember)
          (sameTrees ▸ (ValueTree.depth_le_iff ((Value.holdsTypes_outline _).trans holds)).mp
            (Nat.le_of_lt_succ treeShallow) _ partMember)
        rw [Arena.trees_of_le laterWorld further laterWithin] at nested
        exact nested
    refine replaced.bind fun after _ afterAdmitted _ shows => reaches_pure afterAdmitted ?_
    rw [Arena.tree_of_le world continues idWithin] at shows
    exact shows

/-- Replacing the variables of a set replaces those of its trees. -/
theorem reaches_substitute_shows (shallow : ∀ tree ∈ state.arena.trees set,
      tree.depth ≤ env.settings.unificationDepthLimit) :
    judgement.Attains state (·.substitute set substitution)
      fun after replaced => after.arena.Shows env.declarations replaced
        ((state.arena.trees set).flatMap (ValueTree.replace given)) := by
  cases nothing : substitution.isEmpty || set.isEmpty with
  | true =>
    simp only [Engine.substitute, nothing, if_true]
    refine reaches_pure admitted ⟨within, ?_⟩
    rcases Bool.or_eq_true_iff.mp nothing with noBindings | noMembers
    · have unchanged : ValueTree.replace given = fun tree => [tree] :=
        funext (ValueTree.replace_of_given_none fun variable_ =>
          gives.unbound variable_ (Substitution.get?_eq_none_of_isEmpty noBindings))
      rw [unchanged, List.flatMap_singleton']
      exact .refl _
    · have noTrees : state.arena.trees set = [] := by
        rw [Arena.trees, List.isEmpty_iff.mp noMembers, List.map_nil]
      rw [noTrees]
      exact .refl _
  | false =>
    simp only [Engine.substitute, nothing, Bool.false_eq_true, if_false]
    exact reaches_substituteWithin_shows matching admitted gives within read
      fun tree member => Nat.lt_succ_of_le (shallow tree member)

end

end

end Judgement

/--
Replacing the type variables of a set is simultaneous substitution on its trees: if all
type arguments in which variables are replaced were read and nest no deeper than the depth
limit, then the trees of the result are those that one pass makes of the trees of the set.
Every variable that is bound makes way for the trees of its binding, in which the declared
constraints stand for the unconstrained value, and these are not looked into again.
-/
theorem substitute_replaces_simultaneously
    {environment : Environment}
    {state : State}
    (wellFormed : state.WellFormed environment.declarations)
    {set : TypeSet}
    (setWithin : Within environment.declarations state.arena.size set)
    {substitution : Substitution}
    (substitutionWithin : Within environment.declarations state.arena.size substitution)
    (read : ∀ tree ∈ state.arena.trees set, tree.isRead = true)
    (shallow : ∀ tree ∈ state.arena.trees set,
      tree.depth ≤ environment.settings.unificationDepthLimit) :
    ∃ replaced after,
      (∀ fuel, environment.answer fuel (.substitute set substitution) state =
        .ok (replaced, after)) ∧
      after.WellFormed environment.declarations ∧
      state.arena ≤ after.arena ∧
      ValueTree.SetsAlike (after.arena.trees replaced)
        ((state.arena.trees set).flatMap
          (ValueTree.replace (substitution.given environment.declarations state.arena))) := by
  have admitted : (Judgement.immediate environment (.spanning 0)).Admits state :=
    ⟨wellFormed, Nat.zero_le _⟩
  obtain ⟨⟨replaced, after⟩, ⟨afterAdmitted, continues, shows⟩, succeeds⟩ :=
    Judgement.reaches_substitute_shows trivial admitted
      (Substitution.showsGiven wellFormed.world substitutionWithin) setWithin read shallow
  simp only [environment.stage_eq_engine] at succeeds
  exact ⟨replaced, after, succeeds, afterAdmitted.wellFormed, continues, shows.alike⟩

/-- The arena every analysis starts from, with functions from dictionaries to their keys. -/
def Arena.exchange : Arena :=
  World.initial.arena.append
    [.genericClass Builtin.dict (.ofSlots [.singleton ⟨16⟩, .singleton ⟨17⟩]),
      .typeList [.singleton ⟨16⟩, .ofList [⟨17⟩, ⟨19⟩]],
      .special .callable (.ofSlots [.singleton ⟨20⟩, .singleton ⟨16⟩])]

/-- Keys and values change places, and a value may be anything. -/
def Substitution.exchange : Substitution :=
  .ofList [⟨⟨6⟩, .singleton ⟨17⟩⟩, ⟨⟨7⟩, .ofList [⟨16⟩, Arena.anyId]⟩]

/-- Keys and values change places everywhere at once, and a value is an integer or a string. -/
theorem substitute_replaces_simultaneously_of_exchange :
    let environment : Environment :=
      { declarations := World.initial.declarations.setConstraints ⟨7⟩ (.ofList [⟨4⟩, ⟨5⟩])
        provider := Tree.fixedProvider {} }
    let state := environment.start Arena.exchange
    let key : ValueTree := .node (.typeVariable ⟨6⟩) []
    let value : ValueTree := .node (.typeVariable ⟨7⟩) []
    let int : ValueTree := .node (.classObject Builtin.int) []
    let str : ValueTree := .node (.classObject Builtin.str) []
    let dict (parts : List (List ValueTree)) : ValueTree :=
      .node (.genericClass Builtin.dict (.ofSlots [∅, ∅])) parts
    let function (parameters : List (List ValueTree)) (returns : List ValueTree) : ValueTree :=
      .node (.special .callable (.ofSlots [∅, ∅])) [[.node (.typeList [∅, ∅]) parameters], returns]
    state.arena.trees (.ofList [⟨17⟩, ⟨21⟩]) =
        [value, function [[key], [value, dict [[key], [value]]]] [key]] ∧
      ∃ replaced after,
        (∀ fuel, environment.answer fuel (.substitute (.ofList [⟨17⟩, ⟨21⟩]) .exchange) state =
          .ok (replaced, after)) ∧
        ValueTree.SetsAlike (after.arena.trees replaced)
          [int, str, key,
            function [[value], [int, str, key, dict [[value], [int, str, key]]]] [value]] := by
  intro environment state key value int str dict function
  have wellFormed : World.WellFormed ⟨Arena.exchange, environment.declarations⟩ :=
    .ofChecks (by decide +kernel) (by decide +kernel)
  have written : state.arena.trees (.ofList [⟨17⟩, ⟨21⟩]) =
      [value, function [[key], [value, dict [[key], [value]]]] [key]] := rfl
  have stateWellFormed : state.WellFormed environment.declarations := .ofWorld wellFormed _
  have setWithin : Within environment.declarations state.arena.size
      (TypeSet.ofList [⟨17⟩, ⟨21⟩]) := by decide +kernel
  have substitutionWithin : Within environment.declarations state.arena.size
      Substitution.exchange := by decide +kernel
  obtain ⟨replaced, after, succeeds, -, -, alike⟩ :=
    substitute_replaces_simultaneously stateWellFormed setWithin substitutionWithin
      (by rw [written]; decide) (by rw [written]; decide)
  exact ⟨written, replaced, after, succeeds, alike⟩

end TypeInference
