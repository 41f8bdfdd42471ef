import TypeInference.Identifier

/-!
# Value sets

A value set is the finite set of values that an expression may evaluate to.
Members are kept in increasing order of interning, so that two sets with the
same members are the same set.  The empty set means that nothing is known.
-/

namespace TypeInference

/-- A finite set of values in increasing order of interning. -/
structure TypeSet where
  members : List ValueId
  /-- Every member was interned before the members that follow it. -/
  increasing : members.Pairwise (fun left right => left.index < right.index)
deriving DecidableEq

namespace TypeSet

theorem ext_members {left right : TypeSet} (equal : left.members = right.members) :
    left = right := by
  cases left
  cases right
  cases equal
  rfl

/-- The set of which nothing is known. -/
def empty : TypeSet :=
  ⟨[], List.Pairwise.nil⟩

instance : EmptyCollection TypeSet := ⟨empty⟩

instance : Inhabited TypeSet := ⟨empty⟩

def singleton (id : ValueId) : TypeSet :=
  ⟨[id], List.pairwise_singleton _ _⟩

instance : Membership ValueId TypeSet := ⟨fun set id => id ∈ set.members⟩

@[simp] theorem mem_members {id : ValueId} {set : TypeSet} :
    id ∈ set.members ↔ id ∈ set := Iff.rfl

@[simp] theorem members_empty : empty.members = [] := rfl

@[simp] theorem members_singleton (id : ValueId) : (singleton id).members = [id] := rfl

def size (set : TypeSet) : Nat :=
  set.members.length

def isEmpty (set : TypeSet) : Bool :=
  set.members.isEmpty

def single? (set : TypeSet) : Option ValueId :=
  match set.members with
  | [id] => some id
  | _ => none

/-! ## Union -/

/-- Weave `head`, followed by what `tail` weaves, into an increasing list. -/
def weaveHead (head : ValueId) (tail : List ValueId → List ValueId) :
    List ValueId → List ValueId
  | [] => head :: tail []
  | other :: right =>
    if head.index < other.index then head :: tail (other :: right)
    else if other.index < head.index then other :: weaveHead head tail right
    else head :: tail right

/-- Merge two increasing lists; a member of both is listed once. -/
def weave : List ValueId → List ValueId → List ValueId
  | [], right => right
  | head :: left, right => weaveHead head (weave left) right

@[simp] theorem weave_nil_left (right : List ValueId) : weave [] right = right := rfl

theorem weave_cons_nil (head : ValueId) (left : List ValueId) :
    weave (head :: left) [] = head :: weave left [] := rfl

theorem weave_cons_cons (head other : ValueId) (left right : List ValueId) :
    weave (head :: left) (other :: right) =
      if head.index < other.index then head :: weave left (other :: right)
      else if other.index < head.index then other :: weave (head :: left) right
      else head :: weave left right := rfl

theorem mem_weave (id : ValueId) (left right : List ValueId) :
    id ∈ weave left right ↔ id ∈ left ∨ id ∈ right := by
  induction left generalizing right with
  | nil => simp
  | cons head left leftHypothesis =>
    induction right with
    | nil => simp [weave_cons_nil, leftHypothesis]
    | cons other right rightHypothesis =>
      rw [weave_cons_cons]
      split
      · simp [leftHypothesis, or_assoc]
      · split
        · simp only [List.mem_cons, rightHypothesis]
          grind
        · have same : head = other := by
            cases head
            cases other
            simp_all
            omega
          subst same
          simp only [List.mem_cons, leftHypothesis]
          grind

theorem pairwise_weave {left right : List ValueId}
    (leftIncreasing : left.Pairwise (fun first second => first.index < second.index))
    (rightIncreasing : right.Pairwise (fun first second => first.index < second.index)) :
    (weave left right).Pairwise (fun first second => first.index < second.index) := by
  induction left generalizing right with
  | nil => simpa using rightIncreasing
  | cons head left leftHypothesis =>
    have headBelow := (List.pairwise_cons.mp leftIncreasing).1
    have leftTail := (List.pairwise_cons.mp leftIncreasing).2
    induction right with
    | nil =>
      rw [weave_cons_nil]
      refine List.pairwise_cons.mpr ⟨?_, leftHypothesis leftTail List.Pairwise.nil⟩
      intro id member
      rcases (mem_weave id left []).mp member with inLeft | inRight
      · exact headBelow id inLeft
      · simp at inRight
    | cons other right rightHypothesis =>
      have otherBelow := (List.pairwise_cons.mp rightIncreasing).1
      have rightTail := (List.pairwise_cons.mp rightIncreasing).2
      rw [weave_cons_cons]
      split
      · rename_i headFirst
        refine List.pairwise_cons.mpr ⟨?_, leftHypothesis leftTail rightIncreasing⟩
        intro id member
        rcases (mem_weave id _ _).mp member with inLeft | inRight
        · exact headBelow id inLeft
        · rcases List.mem_cons.mp inRight with rfl | inTail
          · exact headFirst
          · exact Nat.lt_trans headFirst (otherBelow id inTail)
      · split
        · rename_i otherFirst
          refine List.pairwise_cons.mpr ⟨?_, rightHypothesis rightTail⟩
          intro id member
          rcases (mem_weave id _ _).mp member with inLeft | inRight
          · rcases List.mem_cons.mp inLeft with rfl | inTail
            · exact otherFirst
            · exact Nat.lt_trans otherFirst (headBelow id inTail)
          · exact otherBelow id inRight
        · rename_i notHeadFirst notOtherFirst
          refine List.pairwise_cons.mpr ⟨?_, leftHypothesis leftTail rightTail⟩
          intro id member
          rcases (mem_weave id _ _).mp member with inLeft | inRight
          · exact headBelow id inLeft
          · have := otherBelow id inRight
            omega

def union (left right : TypeSet) : TypeSet :=
  ⟨weave left.members right.members, pairwise_weave left.increasing right.increasing⟩

instance : Union TypeSet := ⟨union⟩

@[simp] theorem mem_union {id : ValueId} {left right : TypeSet} :
    id ∈ left ∪ right ↔ id ∈ left ∨ id ∈ right :=
  mem_weave id left.members right.members

def unions : List TypeSet → TypeSet
  | [] => empty
  | set :: rest => set ∪ unions rest

/-! ## Insertion, selection and search -/

def insert (id : ValueId) (set : TypeSet) : TypeSet :=
  singleton id ∪ set

/-- The set of the listed values, in any order and with any repetition. -/
def ofList : List ValueId → TypeSet
  | [] => empty
  | id :: rest => insert id (ofList rest)

def filter (condition : ValueId → Bool) (set : TypeSet) : TypeSet :=
  ⟨set.members.filter condition, set.increasing.filter condition⟩

def erase (set : TypeSet) (id : ValueId) : TypeSet :=
  set.filter (fun member => member != id)

/-- Search an increasing list, giving up at the first later value. -/
def search (id : ValueId) : List ValueId → Bool
  | [] => false
  | member :: rest =>
    if member.index < id.index then search id rest
    else member.index == id.index

def contains (set : TypeSet) (id : ValueId) : Bool :=
  search id set.members

/-! ## Order -/

/-- Compare two listings from the front; a proper beginning comes first. -/
def compareMembers : List ValueId → List ValueId → Ordering
  | [], [] => .eq
  | [], _ :: _ => .lt
  | _ :: _, [] => .gt
  | left :: lefts, right :: rights =>
    if left.index < right.index then .lt
    else if right.index < left.index then .gt
    else compareMembers lefts rights

instance : Ord TypeSet := ⟨fun left right => compareMembers left.members right.members⟩

end TypeSet

end TypeInference
