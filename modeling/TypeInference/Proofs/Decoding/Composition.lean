import TypeInference.Proofs.Decoding.Replacement

/-!
# Replacing variables twice

Replacing the variables of a tree and then those of what was given for them is the same as
replacing them by what becomes of it, if something is given for every variable that the
tree mentions.  Neither the order nor the repetition of members makes a difference to what
is replaced.
-/

namespace TypeInference

variable {first second : ValueTree → List ValueTree}

namespace ValueTree

/-! ## Alike trees -/

/-- What is made of alike sets member by member is alike. -/
theorem SetsAlike.flatMap (alike : SetsAlike left right)
    (each : ∀ tree ∈ left, ∀ other ∈ right, tree.Alike other →
      SetsAlike (first tree) (second other)) :
    SetsAlike (left.flatMap first) (right.flatMap second) := by
  constructor
  · intro result member
    obtain ⟨tree, treeMember, inTree⟩ := List.mem_flatMap.mp member
    obtain ⟨other, otherMember, treeAlike⟩ := alike.1 tree treeMember
    obtain ⟨found, foundMember, holds⟩ :=
      (each tree treeMember other otherMember treeAlike).1 result inTree
    exact ⟨found, List.mem_flatMap.mpr ⟨other, otherMember, foundMember⟩, holds⟩
  · intro result member
    obtain ⟨other, otherMember, inOther⟩ := List.mem_flatMap.mp member
    obtain ⟨tree, treeMember, treeAlike⟩ := alike.2 other otherMember
    obtain ⟨found, foundMember, holds⟩ :=
      (each tree treeMember other otherMember treeAlike).2 result inOther
    exact ⟨found, List.mem_flatMap.mpr ⟨tree, treeMember, foundMember⟩, holds⟩

/-- What is made of one set member by member in alike ways is alike. -/
theorem SetsAlike.flatMap_congr {trees : List ValueTree}
    (each : ∀ tree ∈ trees, SetsAlike (first tree) (second tree)) :
    SetsAlike (trees.flatMap first) (trees.flatMap second) := by
  simp only [SetsAlike, List.mem_flatMap]
  constructor
  · rintro result ⟨tree, member, inTree⟩
    obtain ⟨found, foundMember, holds⟩ := (each tree member).1 result inTree
    exact ⟨found, ⟨tree, member, foundMember⟩, holds⟩
  · rintro result ⟨tree, member, inTree⟩
    obtain ⟨found, foundMember, holds⟩ := (each tree member).2 result inTree
    exact ⟨found, ⟨tree, member, foundMember⟩, holds⟩

theorem exists_mem_of_forall₂ (holds : List.Forall₂ related lefts rights)
    (member : right ∈ rights) :
    ∃ left ∈ lefts, related left right := by
  induction holds with
  | nil => cases member
  | cons first _ ih =>
    rcases List.mem_cons.mp member with rfl | inRest
    · exact ⟨_, List.mem_cons_self, first⟩
    · obtain ⟨left, leftMember, leftHolds⟩ := ih inRest
      exact ⟨left, List.mem_cons_of_mem _ leftMember, leftHolds⟩

variable {given others last : TypeVariableId → Option (List ValueTree)} {left right : ValueTree}

/-- Variables are replaced alike in alike trees. -/
theorem Alike.replace (alike : left.Alike right)
    (given : TypeVariableId → Option (List ValueTree)) :
    SetsAlike (left.replace given) (right.replace given) := by
  induction left using replacementInduction generalizing right with
  | typeVariable variable_ parts =>
    obtain ⟨outline, otherParts⟩ := right
    obtain ⟨rfl, -⟩ := alike_node.mp alike
    rw [replace_typeVariable, replace_typeVariable]
    cases given variable_ with
    | none => exact SetsAlike.singleton_iff.mpr alike
    | some trees => exact .refl trees
  | holding outline parts holds ih =>
    obtain ⟨other, otherParts⟩ := right
    obtain ⟨rfl, partsAlike⟩ := alike_node.mp alike
    rw [replace_of_holdsTypes holds, replace_of_holdsTypes holds, SetsAlike.singleton_iff,
      alike_node, List.forall₂_map_left_iff, List.forall₂_map_right_iff]
    have both := (List.forall₂_and_left _ _).mpr ⟨fun _ member => member, partsAlike⟩
    exact ⟨rfl, both.imp fun part otherPart partAlike => partAlike.2.flatMap
      fun tree member _ _ treeAlike => ih part partAlike.1 tree member treeAlike⟩
  | other outline parts holds noVariable =>
    obtain ⟨other, otherParts⟩ := right
    obtain ⟨rfl, -⟩ := alike_node.mp alike
    rw [replace_of_not_holdsTypes holds noVariable, replace_of_not_holdsTypes holds noVariable]
    exact SetsAlike.singleton_iff.mpr alike

/-- All type arguments were read in both of alike trees, or in neither. -/
theorem Alike.isRead (alike : left.Alike right) (read : left.isRead = true) :
    right.isRead = true := by
  induction left using ValueTree.induction generalizing right with
  | node outline parts ih =>
    obtain ⟨other, otherParts⟩ := right
    obtain ⟨rfl, partsAlike⟩ := alike_node.mp alike
    rw [isRead_iff] at read ⊢
    refine ⟨read.1, fun holds otherPart member tree inOther => ?_⟩
    obtain ⟨part, partMember, partAlike⟩ := exists_mem_of_forall₂ partsAlike member
    obtain ⟨found, foundMember, treeAlike⟩ := partAlike.2 tree inOther
    exact ih part partMember found foundMember treeAlike
      (read.2 holds part partMember found foundMember)

/-! ## Mentioned variables -/

mutual

/-- The variables that a tree mentions where they are replaced. -/
def mentions : ValueTree → List TypeVariableId
  | .node (.typeVariable variable_) _ => [variable_]
  | .node outline parts => if outline.holdsTypes then mentionsOfParts parts else []

def mentionsOfParts : List (List ValueTree) → List TypeVariableId
  | [] => []
  | part :: rest => mentionsOfAll part ++ mentionsOfParts rest

def mentionsOfAll : List ValueTree → List TypeVariableId
  | [] => []
  | tree :: rest => mentions tree ++ mentionsOfAll rest

end

theorem mem_mentions (holds : outline.holdsTypes = true) :
    variable_ ∈ (node outline parts).mentions ↔
      ∃ part ∈ parts, ∃ tree ∈ part, variable_ ∈ tree.mentions := by
  have ofAll : ∀ trees : List ValueTree,
      variable_ ∈ mentionsOfAll trees ↔ ∃ tree ∈ trees, variable_ ∈ tree.mentions := by
    intro trees
    induction trees with
    | nil => simp [mentionsOfAll]
    | cons tree rest ih => simp [mentionsOfAll, ih]
  have ofParts : variable_ ∈ mentionsOfParts parts ↔
      ∃ part ∈ parts, ∃ tree ∈ part, variable_ ∈ tree.mentions := by
    induction parts with
    | nil => simp [mentionsOfParts]
    | cons part rest ih => simp [mentionsOfParts, ih, ofAll]
  rw [mentions, if_pos holds, ofParts]
  rintro other rfl
  cases holds

/-- Replacing variables, and then those of what was given for them, is replacing them once. -/
theorem replace_replace (tree : ValueTree)
    (covered : ∀ variable_ ∈ tree.mentions, ∃ first second, given variable_ = some first ∧
      others variable_ = some second ∧ SetsAlike second (first.flatMap (replace last))) :
    SetsAlike (tree.replace others) ((tree.replace given).flatMap (replace last)) := by
  induction tree using replacementInduction with
  | typeVariable variable_ parts =>
    obtain ⟨first, second, isGiven, isOther, alike⟩ := covered variable_ (by simp [mentions])
    rw [replace_typeVariable, replace_typeVariable, isGiven, isOther]
    exact alike
  | holding outline parts holds ih =>
    rw [replace_of_holdsTypes holds, replace_of_holdsTypes holds, List.flatMap_singleton,
      replace_of_holdsTypes holds, SetsAlike.singleton_iff, alike_node, List.map_map,
      List.forall₂_map_left_iff, List.forall₂_map_right_iff, List.forall₂_same]
    refine ⟨rfl, fun part member => ?_⟩
    rw [Function.comp, List.flatMap_assoc]
    exact SetsAlike.flatMap_congr fun tree inPart => ih part member tree inPart
      fun variable_ mentioned => covered variable_
        ((mem_mentions holds).mpr ⟨part, member, tree, inPart, mentioned⟩)
  | other outline parts holds noVariable =>
    simp only [replace_of_not_holdsTypes holds noVariable, List.flatMap_singleton]
    exact .refl _

/-- What replaces read trees by read trees is read. -/
theorem isRead_of_mem_replace
    (givenRead : ∀ variable_ trees, given variable_ = some trees → ∀ tree ∈ trees,
      tree.isRead = true)
    {tree result : ValueTree} (read : tree.isRead = true) (member : result ∈ tree.replace given) :
    result.isRead = true := by
  induction tree using replacementInduction generalizing result with
  | typeVariable variable_ parts =>
    rw [replace_typeVariable] at member
    cases isGiven : given variable_ with
    | none =>
      rw [isGiven] at member
      exact List.mem_singleton.mp member ▸ read
    | some trees =>
      rw [isGiven] at member
      exact givenRead variable_ trees isGiven result member
  | holding outline parts holds ih =>
    rw [replace_of_holdsTypes holds, List.mem_singleton] at member
    rw [isRead_iff] at read
    rw [member, isRead_iff]
    refine ⟨read.1, fun _ part partMember tree inPart => ?_⟩
    obtain ⟨source, sourceMember, rfl⟩ := List.mem_map.mp partMember
    obtain ⟨origin, originMember, inReplaced⟩ := List.mem_flatMap.mp inPart
    exact ih source sourceMember origin originMember
      (read.2 holds source sourceMember origin originMember) inReplaced
  | other outline parts holds noVariable =>
    rw [replace_of_not_holdsTypes holds noVariable, List.mem_singleton] at member
    exact member ▸ read

/-- Where nothing is replaced by nothing, something is left. -/
theorem replace_ne_nil (givenSome : ∀ variable_ trees, given variable_ = some trees → trees ≠ [])
    (tree : ValueTree) :
    tree.replace given ≠ [] := by
  induction tree using replacementInduction with
  | typeVariable variable_ parts =>
    rw [replace_typeVariable]
    cases isGiven : given variable_ with
    | none => simp
    | some trees => exact givenSome variable_ trees isGiven
  | holding outline parts holds _ => simp [replace_of_holdsTypes holds]
  | other outline parts holds noVariable => simp [replace_of_not_holdsTypes holds noVariable]

end ValueTree

end TypeInference
