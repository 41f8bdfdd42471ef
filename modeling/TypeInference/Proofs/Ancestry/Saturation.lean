import TypeInference.Proofs.Ancestry
import TypeInference.Proofs.Decoding.Composition

/-!
# Saturated class objects

A class object is saturated if it was given something for each type parameter of its class.
The bases of such a class object are again saturated where every class hands its type
arguments on to its bases.  Whatever the type arguments of the class object are filled with,
its bases are filled with the same: replacing the type parameters of a class after those of
its subclass is replacing them once.
-/

namespace TypeInference

/-! ## Saturated class objects -/

namespace ValueTree

/-- What is at the root of a tree. -/
def outline : ValueTree → Value
  | .node outline _ => outline

def parts : ValueTree → List (List ValueTree)
  | .node _ parts => parts

@[simp] theorem outline_node (outline : Value) (parts : List (List ValueTree)) :
    (node outline parts).outline = outline := rfl

@[simp] theorem parts_node (outline : Value) (parts : List (List ValueTree)) :
    (node outline parts).parts = parts := rfl

/-- A class object that has been given something for each type parameter of its class. -/
structure Saturates (tree : ValueTree) (declarations : Declarations) (class_ : ClassId) : Prop where
  ofClass : tree.outline.class? = some class_
  read : tree.outline.isUnread = false
  each : ∃ declaration, declarations.class? class_ = some declaration ∧
    tree.parts.length = declaration.typeParameters.length
  nonempty : ∀ part ∈ tree.parts, part ≠ []
  partsRead : ∀ part ∈ tree.parts, ∀ inner ∈ part, inner.isRead = true

theorem Saturates.isRead {tree : ValueTree} {class_ : ClassId}
    (saturates : tree.Saturates declarations class_) :
    tree.isRead = true := by
  obtain ⟨outline, parts⟩ := tree
  exact isRead_iff.mpr ⟨saturates.read, fun _ => saturates.partsRead⟩

instance (tree : ValueTree) (declarations : Declarations) (class_ : ClassId) :
    Decidable (tree.Saturates declarations class_) :=
  decidable_of_iff
    (tree.outline.class? = some class_ ∧ tree.outline.isUnread = false ∧
      (declarations.class? class_).map (fun declaration => declaration.typeParameters.length) =
        some tree.parts.length ∧
      (∀ part ∈ tree.parts, part.isEmpty = false) ∧
      ∀ part ∈ tree.parts, ∀ inner ∈ part, inner.isRead = true)
    ⟨fun ⟨ofClass, read, each, nonempty, partsRead⟩ =>
      { ofClass, read, partsRead
        each := (Option.map_eq_some_iff.mp each).imp fun _ holds => ⟨holds.1, holds.2.symm⟩
        nonempty := fun part member => List.isEmpty_eq_false_iff.mp (nonempty part member) },
      fun saturates => ⟨saturates.ofClass, saturates.read,
        Option.map_eq_some_iff.mpr (saturates.each.imp fun _ holds => ⟨holds.1, holds.2.symm⟩),
        fun part member => List.isEmpty_eq_false_iff.mpr (saturates.nonempty part member),
        saturates.partsRead⟩⟩

end ValueTree

theorem Value.class?_outline (stored : Value) : stored.outline.class? = stored.class? := by
  cases stored with
  | _ => rfl

/--
A class that hands its type arguments on to its bases: its type parameters are distinct and
have no constraints, and each of its bases is one class object that is saturated, mentions
type parameters of the class only, and nests no deeper than the depth limit.
-/
structure ClassDeclaration.HandsOn (declaration : ClassDeclaration) (declarations : Declarations)
    (arena : Arena) (limit : Nat) : Prop where
  distinct : declaration.typeParameters.Nodup
  unconstrained : ∀ variable_ ∈ declaration.typeParameters,
    declarations.typeVariables.constraints? variable_ = none
  bases : ∀ base ∈ declaration.bases, ∃ id parent, base = .singleton id ∧
    (arena.tree id).Saturates declarations parent ∧
    (arena.tree id).depth ≤ limit ∧
    ∀ variable_ ∈ (arena.tree id).mentions, variable_ ∈ declaration.typeParameters

instance (declaration : ClassDeclaration) (declarations : Declarations) (arena : Arena)
    (limit : Nat) :
    Decidable (declaration.HandsOn declarations arena limit) :=
  decidable_of_iff
    (declaration.typeParameters.Nodup ∧
      (∀ variable_ ∈ declaration.typeParameters,
        declarations.typeVariables.constraints? variable_ = none) ∧
      ∀ base ∈ declaration.bases, ∃ id ∈ base.members,
        ∃ parent ∈ (arena.tree id).outline.class?, base = .singleton id ∧
          (arena.tree id).Saturates declarations parent ∧
          (arena.tree id).depth ≤ limit ∧
          ∀ variable_ ∈ (arena.tree id).mentions, variable_ ∈ declaration.typeParameters)
    ⟨fun ⟨distinct, unconstrained, bases⟩ =>
      { distinct, unconstrained
        bases := fun base member => by
          obtain ⟨id, -, parent, -, holds⟩ := bases base member
          exact ⟨id, parent, holds⟩ },
      fun handsOn => ⟨handsOn.distinct, handsOn.unconstrained, fun base member => by
        obtain ⟨id, parent, rfl, saturates, holds⟩ := handsOn.bases base member
        exact ⟨id, List.mem_singleton_self id, parent, saturates.ofClass, rfl, saturates, holds⟩⟩⟩

/-- What the parts of a class object give for the type parameters of its class. -/
def ClassDeclaration.given (declaration : ClassDeclaration) (parts : List (List ValueTree))
    (variable_ : TypeVariableId) :
    Option (List ValueTree) :=
  (declaration.typeParameters.zip parts).lookup variable_

section Saturation

variable {declarations : Declarations} {arena : Arena} {class_ : ClassId} {tree : ValueTree}
  {given filling : TypeVariableId → Option (List ValueTree)}

theorem ValueTree.flatMap_replace_ne_nil
    (givenSome : ∀ variable_ trees, given variable_ = some trees → trees ≠ [])
    (nonempty : part ≠ []) :
    part.flatMap (ValueTree.replace given) ≠ [] := by
  obtain ⟨tree, member⟩ := List.exists_mem_of_ne_nil part nonempty
  intro nothing
  exact ValueTree.replace_ne_nil givenSome tree (List.flatMap_eq_nil_iff.mp nothing tree member)

/-- A class object stays one, and saturated, when its variables are replaced. -/
theorem ValueTree.Saturates.replace (saturates : tree.Saturates declarations class_)
    (givenSome : ∀ variable_ trees, given variable_ = some trees → trees ≠ [])
    (givenRead : ∀ variable_ trees, given variable_ = some trees → ∀ tree ∈ trees,
      tree.isRead = true) :
    ∃ replaced, tree.replace given = [replaced] ∧ replaced.Saturates declarations class_ := by
  obtain ⟨outline, parts⟩ := tree
  obtain ⟨ofClass, read, ⟨declaration, declared, length⟩, nonempty, partsRead⟩ := saturates
  simp only [ValueTree.outline_node, ValueTree.parts_node] at ofClass length nonempty partsRead
  cases holds : outline.holdsTypes with
  | true =>
    refine ⟨_, ValueTree.replace_of_holdsTypes holds, ofClass, read,
      ⟨declaration, declared, by simp [length]⟩, fun part member => ?_, fun part member => ?_⟩
    · obtain ⟨source, sourceMember, rfl⟩ := List.mem_map.mp member
      exact ValueTree.flatMap_replace_ne_nil givenSome (nonempty source sourceMember)
    · obtain ⟨source, sourceMember, rfl⟩ := List.mem_map.mp member
      intro inner inPart
      obtain ⟨origin, originMember, inReplaced⟩ := List.mem_flatMap.mp inPart
      exact ValueTree.isRead_of_mem_replace givenRead
        (partsRead source sourceMember origin originMember) inReplaced
  | false =>
    have noVariable : ∀ variable_, outline ≠ .typeVariable variable_ := by
      rintro variable_ rfl
      cases ofClass
    exact ⟨_, ValueTree.replace_of_not_holdsTypes holds noVariable, ofClass, read,
      ⟨declaration, declared, length⟩, nonempty, partsRead⟩

/-- A class object is replaced by one. -/
theorem ValueTree.exists_replace_eq (ofClass : tree.outline.class? = some class_)
    (given : TypeVariableId → Option (List ValueTree)) :
    ∃ replaced, tree.replace given = [replaced] := by
  obtain ⟨outline, parts⟩ := tree
  cases holds : outline.holdsTypes with
  | true => exact ⟨_, ValueTree.replace_of_holdsTypes holds⟩
  | false =>
    refine ⟨_, ValueTree.replace_of_not_holdsTypes holds ?_⟩
    rintro variable_ rfl
    cases ofClass

/-- A set of which one tree is shown has one member. -/
theorem Arena.Shows.eq_singleton (world : World.WellFormed ⟨arena, declarations⟩) {set : TypeSet}
    (shows : arena.Shows declarations set [tree]) :
    ∃ id, set = .singleton id := by
  obtain ⟨found, foundMember, -⟩ := shows.alike.2 tree (by simp)
  obtain ⟨id, member, rfl⟩ := Arena.mem_trees.mp foundMember
  have likeTree : ∀ other ∈ set, (arena.tree other).Alike tree := by
    intro other otherMember
    obtain ⟨_, isTree, alike⟩ := shows.alike.1 _ (Arena.mem_trees.mpr ⟨other, otherMember, rfl⟩)
    exact List.mem_singleton.mp isTree ▸ alike
  refine ⟨id, TypeSet.ext_mem fun other => ⟨fun otherMember => ?_, fun same => ?_⟩⟩
  · exact TypeSet.mem_singleton.mpr (Arena.eq_of_alike world (shows.within other otherMember)
      (shows.within id member) ((likeTree other otherMember).trans (likeTree id member).symm))
  · exact TypeSet.mem_singleton.mp same ▸ member

/-- The parts of a stored class object show what the parts of its tree are filled with. -/
theorem Arena.Shows.stored (world : World.WellFormed ⟨arena, declarations⟩)
    (saturates : tree.Saturates declarations class_) {id : ValueId}
    (shows : arena.Shows declarations (.singleton id) (tree.replace filling)) :
    ∃ stored, arena.get? id = some stored ∧ stored.class? = some class_ ∧
      stored.isUnread = false ∧
      List.Forall₂
        (fun slot part => ValueTree.SetsAlike (arena.trees slot)
          (part.flatMap (ValueTree.replace filling)))
        stored.parts tree.parts := by
  obtain ⟨outline, parts⟩ := tree
  obtain ⟨stored, found⟩ := Arena.exists_get? (shows.within id (by simp))
  have ofClass : outline.class? = some class_ := saturates.ofClass
  have read : outline.isUnread = false := saturates.read
  have alike := shows.alike
  rw [Arena.trees_singleton, Arena.tree_of_get? world found] at alike
  refine ⟨stored, found, ?_⟩
  cases holds : outline.holdsTypes with
  | true =>
    rw [ValueTree.replace_of_holdsTypes holds, ValueTree.SetsAlike.singleton_iff,
      ValueTree.alike_node, List.forall₂_map_left_iff, List.forall₂_map_right_iff] at alike
    obtain ⟨rfl, partsAlike⟩ := alike
    exact ⟨stored.class?_outline ▸ ofClass, stored.isUnread_outline ▸ read, partsAlike⟩
  | false =>
    have noVariable : ∀ variable_, outline ≠ .typeVariable variable_ := by
      rintro variable_ rfl
      cases ofClass
    rw [ValueTree.replace_of_not_holdsTypes holds noVariable, ValueTree.SetsAlike.singleton_iff,
      ValueTree.alike_node] at alike
    obtain ⟨rfl, partsAlike⟩ := alike
    rw [stored.class?_outline] at ofClass
    rw [stored.isUnread_outline] at read
    rw [stored.holdsTypes_outline] at holds
    refine ⟨ofClass, read, ?_⟩
    -- A class object in which no variables are replaced has no type arguments.
    cases stored with
    | classObject own =>
      cases partsAlike
      exact .nil
    | genericClass own generics =>
      cases generics with
      | resolved arguments => cases holds
      | lazy node => cases read
    | _ => cases ofClass

/-- What a type parameter stands for is in one of the places. -/
theorem mem_of_lookup_zip {typeParameters : List TypeVariableId}
    (found : (typeParameters.zip places).lookup variable_ = some place) :
    variable_ ∈ typeParameters ∧ place ∈ places := by
  obtain ⟨before, after, split, -⟩ := List.lookup_eq_some_iff.mp found
  have member : (variable_, place) ∈ typeParameters.zip places := by
    rw [split]
    simp
  exact List.of_mem_zip member

/-- Type parameters stand for what is in their places. -/
theorem exists_lookup_zip (holds : List.Forall₂ related lefts rights)
    {typeParameters : List TypeVariableId} (length : rights.length = typeParameters.length)
    (member : variable_ ∈ typeParameters) :
    ∃ left right, (typeParameters.zip lefts).lookup variable_ = some left ∧
      (typeParameters.zip rights).lookup variable_ = some right ∧ related left right := by
  induction holds generalizing typeParameters with
  | nil =>
    rw [List.eq_nil_of_length_eq_zero length.symm] at member
    cases member
  | @cons left right lefts rights first _ ih =>
    cases typeParameters with
    | nil => cases member
    | cons parameter others =>
      simp only [List.zip_cons_cons, List.lookup_cons]
      by_cases same : variable_ = parameter
      · simp only [same, beq_self_eq_true]
        exact ⟨left, right, rfl, rfl, first⟩
      · simp only [beq_eq_false_iff_ne.mpr same]
        exact ih (Nat.succ.inj length) ((List.mem_cons.mp member).resolve_left same)

end Saturation

/-! ## Bindings of class objects -/

section Bindings

variable {env : Environment} {state : State} {id : ValueId} {stored : Value}
  {class_ : ClassId} {declaration : ClassDeclaration}

/-- The bindings that a class object gives the type parameters of its class, part by part. -/
def ClassDeclaration.bindings (declaration : ClassDeclaration) (parts : List TypeSet) :
    Substitution :=
  .ofList (List.zipWith TypeBinding.mk declaration.typeParameters parts)

theorem ClassDeclaration.within_bindings (within : env.Scopes bound parts)
    (declaration : ClassDeclaration) :
    env.Scopes bound (declaration.bindings parts) :=
  within_ofList (Judgement.within_zipWith_typeBinding within _)

/-- The type arguments of a class object that were read bind the type parameters. -/
theorem classBindings_of_get? (found : state.arena.get? id = some stored)
    (ofClass : stored.class? = some class_) (read : stored.isUnread = false)
    (declared : env.declarations.class? class_ = some declaration) (fuel : Nat) :
    (env.stage fuel).classBindings id state = .ok (declaration.bindings stored.parts, state) := by
  refine (Inference.bind_of_ok (Inference.value_of_get? found)).trans ?_
  cases stored with
  | classObject own =>
    have nothing : declaration.bindings (Value.classObject own).parts = ∅ :=
      congrArg Substitution.ofList List.zipWith_nil_right
    rw [nothing]
    rfl
  | genericClass own generics =>
    cases ofClass
    cases generics with
    | lazy node => cases read
    | resolved arguments =>
      simp only [Engine.typeArguments, Engine.classDeclaration, Environment.stage_toEnvironment,
        declared, pure_bind]
      rfl
  | _ => cases ofClass

/-- What is bound to the type parameters, replaced, is what the parts give, replaced. -/
theorem exists_given_bindings (handsOn : declaration.HandsOn env.declarations arena limit)
    {parts : List (List ValueTree)} (length : parts.length = declaration.typeParameters.length)
    (nonempty : ∀ slot ∈ slots, slot.isEmpty = false) (alike : List.Forall₂
      (fun slot part => ValueTree.SetsAlike (later.trees slot)
        (part.flatMap (ValueTree.replace filling)))
      slots parts)
    (member : variable_ ∈ declaration.typeParameters) :
    ∃ first second, declaration.given parts variable_ = some first ∧
      (declaration.bindings slots).given env.declarations later variable_ = some second ∧
      ValueTree.SetsAlike second (first.flatMap (ValueTree.replace filling)) := by
  obtain ⟨slot, part, slotFound, partFound, holds⟩ := exists_lookup_zip alike length member
  have bound : (declaration.bindings slots).get? variable_ = some slot := by
    rw [ClassDeclaration.bindings, Substitution.get?_ofList_zipWith handsOn.distinct nonempty]
    exact slotFound
  refine ⟨part, later.trees slot, partFound, ?_, holds⟩
  rw [Substitution.given, bound, handsOn.unconstrained variable_ member]
  rfl

/-- Parts that are not empty show slots that are not. -/
theorem nonempty_of_forall₂_alike {arena : Arena}
    (fillingSome : ∀ variable_ trees, filling variable_ = some trees → trees ≠ [])
    {slots : List TypeSet} {parts : List (List ValueTree)} (nonempty : ∀ part ∈ parts, part ≠ [])
    (alike : List.Forall₂
      (fun slot part => ValueTree.SetsAlike (arena.trees slot)
        (part.flatMap (ValueTree.replace filling)))
      slots parts) :
    ∀ slot ∈ slots, slot.isEmpty = false := by
  intro slot member
  obtain ⟨part, partMember, partAlike⟩ := ValueTree.exists_mem_of_forall₂ alike.flip member
  obtain ⟨tree, treeMember⟩ := List.exists_mem_of_ne_nil _
    (ValueTree.flatMap_replace_ne_nil fillingSome (nonempty part partMember))
  obtain ⟨found, foundMember, -⟩ := partAlike.2 tree treeMember
  obtain ⟨id, idMember, -⟩ := Arena.mem_trees.mp foundMember
  exact TypeSet.isEmpty_eq_false_of_mem idMember

/-- What a saturated class object gives for type parameters is not empty and was read. -/
theorem ValueTree.Saturates.given {tree : ValueTree}
    (saturates : tree.Saturates declarations class_)
    (isGiven : declaration.given tree.parts variable_ = some trees) :
    trees ≠ [] ∧ ∀ inner ∈ trees, inner.isRead = true := by
  have isPart := (mem_of_lookup_zip isGiven).2
  exact ⟨saturates.nonempty trees isPart, saturates.partsRead trees isPart⟩

end Bindings

/-! ## Bases of class objects -/

namespace Judgement

open Inference

variable {env : Environment} {judgement : Judgement env} {origin : Arena}

/-- The base of a class object is filled as its type arguments are. -/
theorem reaches_substitute_base (matching : judgement.Matching)
    (world : World.WellFormed ⟨origin, env.declarations⟩) {class_ : ClassId}
    {declaration : ClassDeclaration} (declared : env.declarations.class? class_ = some declaration)
    (handsOn : declaration.HandsOn env.declarations origin env.settings.unificationDepthLimit)
    {filling : TypeVariableId → Option (List ValueTree)}
    (fillingSome : ∀ variable_ trees, filling variable_ = some trees → trees ≠ [])
    {tree : ValueTree} (saturates : tree.Saturates env.declarations class_)
    (member : base ∈ declaration.bases) :
    ∃ parent parentTree, env.declarations.HasBase origin class_ parent ∧
      parentTree.Saturates env.declarations parent ∧
      (origin.trees base).flatMap (ValueTree.replace (declaration.given tree.parts)) =
        [parentTree] ∧
      ∀ (state : State) (id : ValueId) (stored : Value), judgement.Admits state →
        origin ≤ state.arena → state.arena.get? id = some stored →
        state.arena.Shows env.declarations (.singleton id) (tree.replace filling) →
        judgement.Reaches state
          (fun fuel => (env.stage fuel).substitute base (declaration.bindings stored.parts))
          fun after parents => ∃ parentId, parents = .singleton parentId ∧
            after.arena.Shows env.declarations (.singleton parentId)
              (parentTree.replace filling) := by
  obtain ⟨baseId, parent, rfl, baseSaturates, shallow, mentioned⟩ := handsOn.bases base member
  obtain ⟨own, isOwn, length⟩ := saturates.each
  rw [declared] at isOwn
  cases isOwn
  have baseWithin := (world.declared.classes _ _ declared).bases _ member
  have idWithin : baseId.index < origin.size := baseWithin baseId (by simp)
  have isBase : env.declarations.HasBase origin class_ parent := by
    refine ⟨declaration, declared, _, member, baseId, by simp, ?_⟩
    obtain ⟨stored, found⟩ := Arena.exists_get? idWithin
    have ofClass := baseSaturates.ofClass
    rw [Arena.tree_of_get? world found, ValueTree.outline_node, stored.class?_outline] at ofClass
    rw [Arena.classAt?_of_get? found, ofClass]
  have givenRead : ∀ variable_ trees, declaration.given tree.parts variable_ = some trees →
      trees ≠ [] ∧ ∀ part ∈ trees, part.isRead = true :=
    fun _ _ isGiven => saturates.given isGiven
  obtain ⟨parentTree, replaced, parentSaturates⟩ := baseSaturates.replace
    (fun variable_ trees isGiven => (givenRead variable_ trees isGiven).1)
    fun variable_ trees isGiven => (givenRead variable_ trees isGiven).2
  refine ⟨parent, parentTree, isBase, parentSaturates, by simp [replaced], ?_⟩
  intro state id stored admitted continues found shows
  have stateWorld := admitted.wellFormed.world
  obtain ⟨_, isFound, -, -, alike⟩ := shows.stored stateWorld saturates
  rw [found] at isFound
  cases isFound
  have nonempty := nonempty_of_forall₂_alike fillingSome saturates.nonempty alike
  have bindingsWithin :=
    declaration.within_bindings (within_parts (stateWorld.within_of_get? found))
  have sameTree : state.arena.tree baseId = origin.tree baseId :=
    Arena.tree_of_le world continues idWithin
  have composed := ValueTree.replace_replace (origin.tree baseId)
    fun variable_ inBase => exists_given_bindings handsOn length nonempty alike
      (mentioned variable_ inBase)
  rw [replaced, List.flatMap_singleton] at composed
  refine (reaches_substitute_shows matching admitted
    (Substitution.showsGiven stateWorld bindingsWithin)
    (baseWithin.grow (Arena.size_le_of_le continues)) ?_ ?_).imp
      fun after parents afterAdmitted _ parentsShow => ?_
  · simp [sameTree, baseSaturates.isRead]
  · simp [sameTree, shallow]
  · rw [Arena.trees_singleton, List.flatMap_singleton, sameTree] at parentsShow
    have shown : after.arena.Shows env.declarations parents
        (parentTree.replace filling) := ⟨parentsShow.within, parentsShow.alike.trans composed⟩
    obtain ⟨final, isFinal⟩ := ValueTree.exists_replace_eq parentSaturates.ofClass filling
    obtain ⟨parentId, rfl⟩ := (isFinal ▸ shown).eq_singleton afterAdmitted.wellFormed.world
    exact ⟨parentId, rfl, shown⟩

end Judgement

end TypeInference
