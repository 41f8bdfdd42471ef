import Mathlib.Data.List.Forall2
import TypeInference.Proofs.Substitution
import TypeInference.Proofs.WellFormed

/-!
# Values as trees

An identifier stands for a tree: the value that is stored for it, with the trees of the
members in the place of every set that the value refers to.  Trees are alike if they
differ in no more than the order and the repetition of members.  In a well-formed world
the tree of an identifier does not change when the arena continues, and identifiers of
trees that are alike are the same, since every value is stored once.
-/

namespace TypeInference

/-! ## Parts of values -/

/-- The slots of type arguments; nothing is known of those that were not read. -/
def Generics.slots : Generics → List TypeSet
  | .resolved arguments => arguments.slots
  | .lazy _ => []

/-- Type arguments with other slots. -/
def Generics.withSlots : Generics → List TypeSet → Generics
  | .resolved arguments, slots => .resolved { arguments with slots := slots }
  | .lazy node, _ => .lazy node

namespace Value

/-- The sets that a value refers to; one value counts as the set of that value. -/
def parts : Value → List TypeSet
  | genericClass _ generics | instanceOf _ generics | special _ generics
  | callable generics | tuple generics => generics.slots
  | typeList items | packedTuple items => items
  | packedDict entries => entries.map Prod.snd
  | boundMethod callee receiver => [.singleton callee, .singleton receiver]
  | exactly described => [.singleton described]
  | _ => []

/-- The only member of a set, or the absent value. -/
def reference (part : TypeSet) : ValueId :=
  part.single?.getD Arena.noneId

/-- A value that refers to other sets. -/
def withParts : Value → List TypeSet → Value
  | genericClass class_ generics, parts => genericClass class_ (generics.withSlots parts)
  | instanceOf class_ generics, parts => instanceOf class_ (generics.withSlots parts)
  | special form generics, parts => special form (generics.withSlots parts)
  | callable generics, parts => callable (generics.withSlots parts)
  | tuple generics, parts => tuple (generics.withSlots parts)
  | typeList _, parts => typeList parts
  | packedTuple _, parts => packedTuple parts
  | packedDict entries, parts => packedDict ((entries.map Prod.fst).zip parts)
  | boundMethod _ _, parts =>
    boundMethod (reference (parts.getD 0 ∅)) (reference (parts.getD 1 ∅))
  | exactly _, parts => exactly (reference (parts.getD 0 ∅))
  | stored, _ => stored

/-- A value with nothing in the places where it refers to other values. -/
def outline (stored : Value) : Value :=
  stored.withParts (stored.parts.map fun _ => ∅)

/-- What is filled in again is as it was. -/
theorem withParts_outline (stored : Value) : stored.outline.withParts stored.parts = stored := by
  cases stored with
  | genericClass class_ generics | instanceOf class_ generics | special form generics
  | callable generics | tuple generics => cases generics <;> rfl
  | packedDict entries =>
    have keys : ((entries.map Prod.fst).zip
        ((entries.map Prod.snd).map fun _ => (∅ : TypeSet))).map Prod.fst =
          entries.map Prod.fst := List.map_fst_zip (by simp)
    simp only [outline, parts, withParts, keys]
    rw [← List.unzip_fst, ← List.unzip_snd, List.zip_unzip]
  | _ => rfl

/-- Values with the same outline and the same parts are the same. -/
theorem ext_outline {left right : Value} (outlines : left.outline = right.outline)
    (parts : left.parts = right.parts) :
    left = right := by
  rw [← withParts_outline left, outlines, parts, withParts_outline]

end Value

/-- What a value refers to is within the scope of the value. -/
theorem within_parts {declarations : Declarations} {bound : Nat} {stored : Value}
    (within : Within declarations bound stored) :
    Within declarations bound stored.parts := by
  cases stored with
  | genericClass class_ generics | instanceOf class_ generics =>
    cases generics with
    | resolved arguments => exact within.2
    | lazy node => exact within_nil
  | special form generics | callable generics | tuple generics =>
    cases generics with
    | resolved arguments => exact within
    | lazy node => exact within_nil
  | typeList items | packedTuple items => exact within
  | packedDict entries => exact within_map _ fun entry member => (within entry member).2
  | boundMethod callee receiver =>
    exact within_cons.mpr ⟨within_singleton within.1,
      within_cons.mpr ⟨within_singleton within.2, within_nil⟩⟩
  | exactly described => exact within_cons.mpr ⟨within_singleton within, within_nil⟩
  | _ => exact within_nil

/-! ## Trees -/

/-- A value with trees in the place of the values that it refers to. -/
inductive ValueTree where
  | node (outline : Value) (parts : List (List ValueTree))

namespace ValueTree

/-- What holds of a tree if it holds of the trees in its parts holds of every tree. -/
@[elab_as_elim]
theorem induction {motive : ValueTree → Prop}
    (node : ∀ outline parts, (∀ part ∈ parts, ∀ tree ∈ part, motive tree) →
      motive (.node outline parts))
    (tree : ValueTree) :
    motive tree :=
  @ValueTree.rec motive (fun parts => ∀ part ∈ parts, ∀ tree ∈ part, motive tree)
    (fun part => ∀ tree ∈ part, motive tree) node (by simp)
    (fun _ _ first rest => List.forall_mem_cons.mpr ⟨first, rest⟩) (by simp)
    (fun _ _ first rest => List.forall_mem_cons.mpr ⟨first, rest⟩) tree

mutual

/-- Trees with the same outline and, part for part, the same members. -/
def Alike : ValueTree → ValueTree → Prop
  | .node outline parts, .node other others => outline = other ∧ PartsAlike parts others

/-- Each part has members like those of the other part in its place. -/
def PartsAlike : List (List ValueTree) → List (List ValueTree) → Prop
  | [], [] => True
  | part :: parts, other :: others =>
    (HasAll part other ∧ ∀ tree ∈ other, HasOne part tree) ∧ PartsAlike parts others
  | _, _ => False

/-- Each of some trees is like one of the others. -/
def HasAll : List ValueTree → List ValueTree → Prop
  | [], _ => True
  | tree :: rest, others => (∃ other ∈ others, Alike tree other) ∧ HasAll rest others

/-- One of some trees is like another. -/
def HasOne : List ValueTree → ValueTree → Prop
  | [], _ => False
  | tree :: rest, other => Alike tree other ∨ HasOne rest other

end

/-- Trees with members like each other, in any order and with any repetition. -/
def SetsAlike (left right : List ValueTree) : Prop :=
  (∀ tree ∈ left, ∃ other ∈ right, tree.Alike other) ∧
    ∀ other ∈ right, ∃ tree ∈ left, tree.Alike other

theorem hasAll_iff : HasAll left right ↔ ∀ tree ∈ left, ∃ other ∈ right, tree.Alike other := by
  induction left with
  | nil => simp [HasAll]
  | cons tree rest ih => simp [HasAll, ih]

theorem hasOne_iff : HasOne left other ↔ ∃ tree ∈ left, tree.Alike other := by
  induction left with
  | nil => simp [HasOne]
  | cons tree rest ih => simp [HasOne, ih]

theorem partsAlike_iff_forall₂ : PartsAlike parts others ↔ List.Forall₂ SetsAlike parts others := by
  induction parts generalizing others with
  | nil => cases others <;> simp [PartsAlike]
  | cons part parts ih =>
    cases others <;>
      simp [PartsAlike, SetsAlike, hasAll_iff, hasOne_iff, ih]

theorem alike_node :
    (node outline parts).Alike (node other others) ↔
      outline = other ∧ List.Forall₂ SetsAlike parts others := by
  rw [Alike, partsAlike_iff_forall₂]

/-! ### Being alike is an equivalence -/

theorem Alike.refl (tree : ValueTree) : tree.Alike tree := by
  induction tree using ValueTree.induction with
  | node outline parts ih =>
    refine alike_node.mpr ⟨rfl, List.forall₂_same.mpr fun part member => ?_⟩
    exact ⟨fun tree inPart => ⟨tree, inPart, ih part member tree inPart⟩,
      fun tree inPart => ⟨tree, inPart, ih part member tree inPart⟩⟩

theorem Alike.symm {left right : ValueTree} (alike : left.Alike right) :
    right.Alike left := by
  induction left using ValueTree.induction generalizing right with
  | node outline parts ih =>
    obtain ⟨other, others⟩ := right
    obtain ⟨rfl, sets⟩ := alike_node.mp alike
    refine alike_node.mpr ⟨rfl, (List.Forall₂.flip ?_)⟩
    have both := (List.forall₂_and_left parts others).mpr ⟨fun _ member => member, sets⟩
    refine both.imp fun part other holds => ⟨fun tree inOther => ?_, fun tree inPart => ?_⟩
    · obtain ⟨found, inPart, foundAlike⟩ := holds.2.2 tree inOther
      exact ⟨found, inPart, ih part holds.1 found inPart foundAlike⟩
    · obtain ⟨found, inOther, foundAlike⟩ := holds.2.1 tree inPart
      exact ⟨found, inOther, ih part holds.1 tree inPart foundAlike⟩

theorem Alike.trans {first second third : ValueTree} (left : first.Alike second)
    (right : second.Alike third) :
    first.Alike third := by
  induction first using ValueTree.induction generalizing second third with
  | node outline parts ih =>
    obtain ⟨secondOutline, seconds⟩ := second
    obtain ⟨thirdOutline, thirds⟩ := third
    obtain ⟨rfl, leftSets⟩ := alike_node.mp left
    obtain ⟨rfl, rightSets⟩ := alike_node.mp right
    refine alike_node.mpr ⟨rfl, List.forall₂_iff_get.mpr ⟨?_, fun index below thirdBelow => ?_⟩⟩
    · rw [leftSets.length_eq, rightSets.length_eq]
    have secondBelow : index < seconds.length := leftSets.length_eq ▸ below
    have leftHolds := leftSets.get below secondBelow
    have rightHolds := rightSets.get secondBelow thirdBelow
    have among : parts.get ⟨index, below⟩ ∈ parts := List.get_mem _ _
    constructor
    · intro tree member
      obtain ⟨middle, middleMember, treeAlike⟩ := leftHolds.1 tree member
      obtain ⟨last, lastMember, middleAlike⟩ := rightHolds.1 middle middleMember
      exact ⟨last, lastMember, ih _ among tree member treeAlike middleAlike⟩
    · intro last lastMember
      obtain ⟨middle, middleMember, middleAlike⟩ := rightHolds.2 last lastMember
      obtain ⟨tree, member, treeAlike⟩ := leftHolds.2 middle middleMember
      exact ⟨tree, member, ih _ among tree member treeAlike middleAlike⟩

namespace SetsAlike

variable {left right third : List ValueTree}

theorem refl (trees : List ValueTree) : SetsAlike trees trees :=
  ⟨fun tree member => ⟨tree, member, .refl tree⟩, fun tree member => ⟨tree, member, .refl tree⟩⟩

theorem symm (alike : SetsAlike left right) : SetsAlike right left :=
  ⟨fun tree member => (alike.2 tree member).imp fun _ holds => ⟨holds.1, holds.2.symm⟩,
    fun tree member => (alike.1 tree member).imp fun _ holds => ⟨holds.1, holds.2.symm⟩⟩

theorem trans (first : SetsAlike left right) (second : SetsAlike right third) :
    SetsAlike left third := by
  constructor
  · intro tree member
    obtain ⟨middle, middleMember, treeAlike⟩ := first.1 tree member
    obtain ⟨last, lastMember, middleAlike⟩ := second.1 middle middleMember
    exact ⟨last, lastMember, treeAlike.trans middleAlike⟩
  · intro last member
    obtain ⟨middle, middleMember, middleAlike⟩ := second.2 last member
    obtain ⟨tree, treeMember, treeAlike⟩ := first.2 middle middleMember
    exact ⟨tree, treeMember, treeAlike.trans middleAlike⟩

/-- Lists with the same members are alike as sets. -/
theorem of_mem_iff (same : ∀ tree, tree ∈ left ↔ tree ∈ right) : SetsAlike left right :=
  ⟨fun tree member => ⟨tree, (same tree).mp member, .refl tree⟩,
    fun tree member => ⟨tree, (same tree).mpr member, .refl tree⟩⟩

theorem append (alike : SetsAlike left right) (moreAlike : SetsAlike leftMore rightMore) :
    SetsAlike (left ++ leftMore) (right ++ rightMore) := by
  simp only [SetsAlike, List.mem_append]
  constructor
  · rintro tree (member | member)
    · obtain ⟨other, otherMember, holds⟩ := alike.1 tree member
      exact ⟨other, .inl otherMember, holds⟩
    · obtain ⟨other, otherMember, holds⟩ := moreAlike.1 tree member
      exact ⟨other, .inr otherMember, holds⟩
  · rintro other (member | member)
    · obtain ⟨tree, treeMember, holds⟩ := alike.2 other member
      exact ⟨tree, .inl treeMember, holds⟩
    · obtain ⟨tree, treeMember, holds⟩ := moreAlike.2 other member
      exact ⟨tree, .inr treeMember, holds⟩

@[simp] theorem singleton_iff {tree other : ValueTree} :
    SetsAlike [tree] [other] ↔ tree.Alike other := by
  simp [SetsAlike]

end SetsAlike

end ValueTree

/-! ## Decoding -/

namespace Arena

/-- The tree of an identifier whose references nest below a bound. -/
def treeWithin (arena : Arena) : Nat → ValueId → ValueTree
  | 0, _ => .node .none []
  | bound + 1, id =>
    match arena.get? id with
    | some stored =>
      .node stored.outline (stored.parts.map fun part => part.members.map (treeWithin arena bound))
    | none => .node .none []

/--
The tree of an identifier.  A value only refers to values interned before it, so its
identifier bounds how deeply the tree nests.
-/
def tree (arena : Arena) (id : ValueId) : ValueTree :=
  arena.treeWithin (id.index + 1) id

def trees (arena : Arena) (set : TypeSet) : List ValueTree :=
  set.members.map arena.tree

@[simp] theorem trees_singleton (arena : Arena) (id : ValueId) :
    arena.trees (.singleton id) = [arena.tree id] := rfl

theorem mem_trees {arena : Arena} {set : TypeSet} {tree : ValueTree} :
    tree ∈ arena.trees set ↔ ∃ id ∈ set, arena.tree id = tree := by
  simp [trees]

theorem mem_trees_union {arena : Arena} {tree : ValueTree} :
    tree ∈ arena.trees (left ∪ right) ↔ tree ∈ arena.trees left ∨ tree ∈ arena.trees right := by
  simp only [mem_trees, TypeSet.mem_union]
  grind

variable {declarations : Declarations} {arena later : Arena} {id : ValueId}

section

variable (world : World.WellFormed ⟨arena, declarations⟩)

include world

/-- What a stored value refers to was stored before it. -/
theorem lt_of_mem_part (found : arena.get? id = some stored) (member : part ∈ stored.parts)
    (inPart : other ∈ part) :
    other.index < id.index :=
  within_parts (world.descending id stored found) part member other inPart

/-- A bound beyond the identifier makes no difference. -/
theorem treeWithin_of_lt (below : id.index < bound) (otherBelow : id.index < other) :
    arena.treeWithin bound id = arena.treeWithin other id := by
  induction bound generalizing id other with
  | zero => omega
  | succ bound ih =>
    obtain ⟨other, rfl⟩ : ∃ less, other = less + 1 := ⟨other - 1, by omega⟩
    rw [treeWithin, treeWithin]
    cases found : arena.get? id with
    | none => rfl
    | some stored =>
      simp only [ValueTree.node.injEq, true_and]
      refine List.map_congr_left fun part member => List.map_congr_left fun inner inPart => ?_
      have earlier := lt_of_mem_part world found member inPart
      exact ih (by omega) (by omega)

/-- The tree of an identifier is its value with the trees of what it refers to. -/
theorem tree_of_get? (found : arena.get? id = some stored) :
    arena.tree id = .node stored.outline (stored.parts.map arena.trees) := by
  rw [tree, treeWithin, found]
  simp only [ValueTree.node.injEq, true_and]
  refine List.map_congr_left fun part member => List.map_congr_left fun inner inPart => ?_
  exact treeWithin_of_lt world (lt_of_mem_part world found member inPart) (Nat.lt_succ_self _)

theorem treeWithin_of_le (continues : arena ≤ later) (bound : Nat)
    (within : id.index < arena.size) :
    later.treeWithin bound id = arena.treeWithin bound id := by
  induction bound generalizing id with
  | zero => rfl
  | succ bound ih =>
    obtain ⟨stored, found⟩ := exists_get? within
    rw [treeWithin, treeWithin, found, get?_of_le continues found]
    simp only [ValueTree.node.injEq, true_and]
    refine List.map_congr_left fun part member => List.map_congr_left fun inner inPart => ?_
    have earlier := lt_of_mem_part world found member inPart
    exact ih (by omega)

/-- No tree changes when the arena continues. -/
theorem trees_of_le (continues : arena ≤ later) {set : TypeSet}
    (within : Within declarations arena.size set) :
    later.trees set = arena.trees set :=
  List.map_congr_left fun id member => treeWithin_of_le world continues _ (within id member)

theorem tree_of_le (continues : arena ≤ later) (within : id.index < arena.size) :
    later.tree id = arena.tree id :=
  treeWithin_of_le world continues _ within

end

/-! ### Identifiers of trees -/

/-- Sets whose members are told apart by their trees are the same if their trees are alike. -/
theorem eq_of_setsAlike_of {left right : TypeSet}
    (apart : ∀ id ∈ left, ∀ other ∈ right, (arena.tree id).Alike (arena.tree other) → id = other)
    (alike : ValueTree.SetsAlike (arena.trees left) (arena.trees right)) :
    left = right := by
  refine TypeSet.ext_mem fun id => ⟨fun member => ?_, fun member => ?_⟩
  · obtain ⟨tree, treeMember, treeAlike⟩ := alike.1 _ (mem_trees.mpr ⟨id, member, rfl⟩)
    obtain ⟨other, otherMember, rfl⟩ := mem_trees.mp treeMember
    exact apart id member other otherMember treeAlike ▸ otherMember
  · obtain ⟨tree, treeMember, treeAlike⟩ := alike.2 _ (mem_trees.mpr ⟨id, member, rfl⟩)
    obtain ⟨other, otherMember, rfl⟩ := mem_trees.mp treeMember
    exact apart other otherMember id member treeAlike ▸ otherMember

/-- Identifiers of trees that are alike are the same, since every value is stored once. -/
theorem eq_of_alike (world : World.WellFormed ⟨arena, declarations⟩)
    (within : id.index < arena.size) (otherWithin : other.index < arena.size)
    (alike : (arena.tree id).Alike (arena.tree other)) :
    id = other := by
  -- The induction is on the identifier, since the parts of a value were stored before it.
  induction index : id.index using Nat.strong_induction_on generalizing id other with
  | _ index ih =>
    obtain ⟨stored, found⟩ := exists_get? within
    obtain ⟨otherStored, otherFound⟩ := exists_get? otherWithin
    rw [tree_of_get? world found, tree_of_get? world otherFound, ValueTree.alike_node] at alike
    obtain ⟨outlines, parts⟩ := alike
    have partsEqual : stored.parts = otherStored.parts := by
      rw [List.forall₂_map_left_iff, List.forall₂_map_right_iff] at parts
      have both := (List.forall₂_and_left _ _).mpr ⟨fun _ member => member, parts⟩
      have flipped := (List.forall₂_and_left _ _).mpr ⟨fun _ member => member, both.flip⟩
      refine (List.forall₂_eq_eq_eq ▸ flipped.flip.imp fun part otherPart holds => ?_)
      obtain ⟨otherMember, member, partsAlike⟩ := holds
      refine eq_of_setsAlike_of (fun inner inPart otherInner inOther innerAlike => ?_) partsAlike
      have earlier := lt_of_mem_part world found member inPart
      have otherEarlier := lt_of_mem_part world otherFound otherMember inOther
      exact ih inner.index (index ▸ earlier) (by omega) (by omega) innerAlike rfl
    have same : stored = otherStored := Value.ext_outline outlines partsEqual
    subst same
    have first := (world.indexed stored id).mpr found
    have second := (world.indexed stored other).mpr otherFound
    exact Option.some.inj (first.symm.trans second)

/-- Sets of trees that are alike are the same. -/
theorem eq_of_setsAlike (world : World.WellFormed ⟨arena, declarations⟩)
    (leftWithin : Within declarations arena.size left)
    (rightWithin : Within declarations arena.size right)
    (alike : ValueTree.SetsAlike (arena.trees left) (arena.trees right)) :
    left = right :=
  eq_of_setsAlike_of
    (fun id member other otherMember =>
      eq_of_alike world (leftWithin id member) (rightWithin other otherMember)) alike

end Arena

end TypeInference
