import TypeInference.TypeSet

/-!
# Substitutions

A substitution binds type variables to the value sets inferred for them.
Bindings of one variable widen by union, and an empty set binds nothing.  The
bindings are kept in the order of the variables, so that two substitutions with
the same bindings are the same substitution.
-/

namespace TypeInference

structure TypeBinding where
  variable_ : TypeVariableId
  set : TypeSet
deriving DecidableEq

/-- A finite map from type variables to non-empty value sets. -/
structure Substitution where
  bindings : List TypeBinding
  /-- Every variable is bound once and in order. -/
  increasing : bindings.Pairwise (fun left right => left.variable_.index < right.variable_.index)
  /-- No variable is bound to the empty set. -/
  nonempty : ∀ binding ∈ bindings, binding.set.isEmpty = false
deriving DecidableEq

namespace Substitution

def empty : Substitution :=
  ⟨[], List.Pairwise.nil, by simp⟩

instance : EmptyCollection Substitution := ⟨empty⟩

instance : Inhabited Substitution := ⟨empty⟩

def size (substitution : Substitution) : Nat :=
  substitution.bindings.length

def isEmpty (substitution : Substitution) : Bool :=
  substitution.bindings.isEmpty

def domain (substitution : Substitution) : List TypeVariableId :=
  substitution.bindings.map TypeBinding.variable_

def get? (substitution : Substitution) (variable_ : TypeVariableId) : Option TypeSet :=
  (substitution.bindings.find? (fun binding => binding.variable_ == variable_)).map TypeBinding.set

def contains (substitution : Substitution) (variable_ : TypeVariableId) : Bool :=
  (substitution.get? variable_).isSome

/-! ## Binding -/

/-- Widen one variable in an ordered list of bindings. -/
def widen (variable_ : TypeVariableId) (set : TypeSet) : List TypeBinding → List TypeBinding
  | [] => [⟨variable_, set⟩]
  | binding :: rest =>
    if binding.variable_.index < variable_.index then binding :: widen variable_ set rest
    else if variable_.index < binding.variable_.index then ⟨variable_, set⟩ :: binding :: rest
    else ⟨variable_, binding.set ∪ set⟩ :: rest

theorem variable_of_mem_widen {variable_ : TypeVariableId} {set : TypeSet} {binding : TypeBinding}
    {bindings : List TypeBinding} (member : binding ∈ widen variable_ set bindings) :
    binding.variable_ = variable_ ∨ ∃ present ∈ bindings, binding.variable_ = present.variable_ := by
  induction bindings with
  | nil =>
    simp only [widen, List.mem_singleton] at member
    simp [member]
  | cons first rest ih =>
    simp only [widen] at member
    split at member
    · rcases List.mem_cons.mp member with rfl | inRest
      · exact Or.inr ⟨binding, by simp, rfl⟩
      · rcases ih inRest with same | ⟨present, presentMember, same⟩
        · exact Or.inl same
        · exact Or.inr ⟨present, by simp [presentMember], same⟩
    · split at member
      · rcases List.mem_cons.mp member with rfl | inRest
        · exact Or.inl rfl
        · exact Or.inr ⟨binding, inRest, rfl⟩
      · rcases List.mem_cons.mp member with rfl | inRest
        · exact Or.inl rfl
        · exact Or.inr ⟨binding, by simp [inRest], rfl⟩

theorem pairwise_widen {variable_ : TypeVariableId} {set : TypeSet} {bindings : List TypeBinding}
    (increasing :
      bindings.Pairwise (fun left right => left.variable_.index < right.variable_.index)) :
    (widen variable_ set bindings).Pairwise
      (fun left right => left.variable_.index < right.variable_.index) := by
  induction bindings with
  | nil => simp [widen]
  | cons first rest ih =>
    have firstBelow := (List.pairwise_cons.mp increasing).1
    have restIncreasing := (List.pairwise_cons.mp increasing).2
    simp only [widen]
    split
    · rename_i firstEarlier
      refine List.pairwise_cons.mpr ⟨?_, ih restIncreasing⟩
      intro binding member
      rcases variable_of_mem_widen member with same | ⟨present, presentMember, same⟩
      · rw [same]
        exact firstEarlier
      · rw [same]
        exact firstBelow present presentMember
    · split
      · rename_i firstLater
        refine List.pairwise_cons.mpr ⟨?_, increasing⟩
        intro binding member
        rcases List.mem_cons.mp member with rfl | inRest
        · exact firstLater
        · exact Nat.lt_trans firstLater (firstBelow binding inRest)
      · rename_i notEarlier notLater
        refine List.pairwise_cons.mpr ⟨?_, restIncreasing⟩
        intro binding member
        have := firstBelow binding member
        simp only
        omega

theorem isEmpty_union_right {left right : TypeSet} (nonempty : right.isEmpty = false) :
    (left ∪ right).isEmpty = false := by
  obtain ⟨id, member⟩ : ∃ id, id ∈ right := by
    cases listing : right.members with
    | nil => simp [TypeSet.isEmpty, listing] at nonempty
    | cons id rest => exact ⟨id, by simp [← TypeSet.mem_members, listing]⟩
  have inUnion : id ∈ left ∪ right := TypeSet.mem_union.mpr (Or.inr member)
  cases listing : (left ∪ right).members with
  | nil => simp [← TypeSet.mem_members, listing] at inUnion
  | cons => simp [TypeSet.isEmpty, listing]

/-- Widening by a set that is not empty binds no variable to the empty set. -/
theorem nonempty_widen {variable_ : TypeVariableId} {set : TypeSet} {bindings : List TypeBinding}
    (setNonempty : set.isEmpty = false)
    (nonempty : ∀ binding ∈ bindings, binding.set.isEmpty = false) :
    ∀ binding ∈ widen variable_ set bindings, binding.set.isEmpty = false := by
  induction bindings with
  | nil => simpa [widen] using setNonempty
  | cons first rest ih =>
    have firstNonempty := nonempty first (by simp)
    have restNonempty : ∀ binding ∈ rest, binding.set.isEmpty = false :=
      fun binding member => nonempty binding (by simp [member])
    intro binding member
    simp only [widen] at member
    split at member
    · rcases List.mem_cons.mp member with rfl | inRest
      · exact firstNonempty
      · exact ih restNonempty binding inRest
    · split at member
      · rcases List.mem_cons.mp member with rfl | inRest
        · exact setNonempty
        · exact nonempty binding inRest
      · rcases List.mem_cons.mp member with rfl | inRest
        · exact isEmpty_union_right setNonempty
        · exact restNonempty binding inRest

/-- Widen the binding of a variable; the empty set binds nothing. -/
def bind (substitution : Substitution) (variable_ : TypeVariableId) (set : TypeSet) :
    Substitution :=
  if setEmpty : set.isEmpty = true then substitution
  else
    ⟨widen variable_ set substitution.bindings, pairwise_widen substitution.increasing,
      nonempty_widen (by simpa using setEmpty) substitution.nonempty⟩

def singleton (variable_ : TypeVariableId) (set : TypeSet) : Substitution :=
  empty.bind variable_ set

/-- The substitution of a list of bindings, of which those of one variable are united. -/
def ofList (bindings : List TypeBinding) : Substitution :=
  bindings.foldl (fun substitution binding => substitution.bind binding.variable_ binding.set) empty

/-- Widen every binding of one substitution by those of another. -/
def merge (left right : Substitution) : Substitution :=
  right.bindings.foldl
    (fun substitution binding => substitution.bind binding.variable_ binding.set) left

/-- The number of values bound to each variable. -/
def text (substitution : Substitution) : String :=
  let bindingText (binding : TypeBinding) :=
    "'" ++ toString binding.variable_.index ++ ": " ++ toString binding.set.size ++ " value(s)"
  "\x7b" ++ ", ".intercalate (substitution.bindings.map bindingText) ++ "\x7d"

end Substitution

end TypeInference
