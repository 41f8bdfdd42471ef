import Mathlib.Data.List.Sort
import TypeInference.Proofs.Scope

/-!
# Sets and substitutions by what is in them

Two sets with the same members are equal, and so are two substitutions with the same
bindings.  Hence what merges substitutions can be described variable by variable.  A
substitution can be restricted to some variables, and merging two of its restrictions
restricts it to the variables of both.
-/

namespace TypeInference

variable {entry : TypeVariableId × ValueId}

/-! ## Sets -/

namespace TypeSet

variable {id other : ValueId} {set left right : TypeSet}

theorem nodup_members (set : TypeSet) : set.members.Nodup :=
  set.increasing.imp fun earlier same => absurd (same ▸ earlier) (Nat.lt_irrefl _)

theorem ext_mem (same : ∀ id, id ∈ left ↔ id ∈ right) :
    left = right := by
  apply ext_members
  have permuted : left.members.Perm right.members :=
    (List.perm_ext_iff_of_nodup left.nodup_members right.nodup_members).mpr same
  refine permuted.eq_of_pairwise (fun first second _ _ earlier later => ?_)
    left.increasing right.increasing
  exact absurd earlier (Nat.lt_asymm later)

@[simp] theorem not_mem_empty : id ∉ (∅ : TypeSet) := List.not_mem_nil

@[simp] theorem mem_singleton : id ∈ singleton other ↔ id = other := List.mem_singleton

@[simp] theorem mem_insert : id ∈ set.insert other ↔ id = other ∨ id ∈ set := by
  simp [insert]

@[simp] theorem mem_erase : id ∈ set.erase other ↔ id ∈ set ∧ id ≠ other := by
  show id ∈ set.members.filter _ ↔ _
  simp

@[simp] theorem union_empty (set : TypeSet) : set ∪ ∅ = set := ext_mem fun _ => by simp

theorem erase_of_not_mem (absent : id ∉ set) : set.erase id = set := by
  apply ext_mem
  intro other
  rw [mem_erase]
  exact ⟨fun both => both.1, fun member => ⟨member, fun same => absent (same ▸ member)⟩⟩

theorem erase_erase (set : TypeSet) (id : ValueId) : (set.erase id).erase id = set.erase id :=
  erase_of_not_mem (by simp)

theorem erase_insert (set : TypeSet) (id : ValueId) : (set.insert id).erase id = set.erase id := by
  apply ext_mem
  intro other
  simp only [mem_erase, mem_insert]
  exact ⟨fun both => ⟨both.1.resolve_left both.2, both.2⟩, fun both => ⟨Or.inr both.1, both.2⟩⟩

theorem isEmpty_eq_false_of_mem (member : id ∈ set) : set.isEmpty = false := by
  cases listing : set.members with
  | nil => simp [← mem_members, listing] at member
  | cons => simp [isEmpty, listing]

theorem eq_empty_of_isEmpty (isEmpty : set.isEmpty = true) : set = ∅ := by
  apply ext_mem
  intro id
  simp only [not_mem_empty, iff_false]
  intro member
  simp [isEmpty_eq_false_of_mem member] at isEmpty

theorem exists_mem_of_isEmpty_eq_false (nonempty : set.isEmpty = false) : ∃ id, id ∈ set := by
  cases listing : set.members with
  | nil => simp [isEmpty, listing] at nonempty
  | cons id rest => exact ⟨id, by simp [← mem_members, listing]⟩

theorem mem_of_contains (found : set.contains id = true) : id ∈ set := by
  have searched : ∀ members : List ValueId, search id members = true → id ∈ members := by
    intro members
    induction members with
    | nil => simp [search]
    | cons member rest ih =>
      simp only [search]
      split
      · exact fun later => List.mem_cons_of_mem _ (ih later)
      · intro same
        cases id
        cases member
        simp_all
  exact searched set.members found

theorem contains_of_mem (member : id ∈ set) : set.contains id = true := by
  have searched : ∀ members : List ValueId,
      members.Pairwise (fun left right => left.index < right.index) → id ∈ members →
        search id members = true := by
    intro members increasing
    induction members with
    | nil => simp
    | cons first rest ih =>
      rw [List.pairwise_cons] at increasing
      intro member
      simp only [search]
      rcases List.mem_cons.mp member with rfl | inRest
      · simp
      · rw [if_pos (increasing.1 id inRest)]
        exact ih increasing.2 inRest
  exact searched set.members set.increasing member

theorem contains_iff : set.contains id = true ↔ id ∈ set := ⟨mem_of_contains, contains_of_mem⟩

end TypeSet

/-! ## Substitutions -/

namespace Substitution

variable {variable_ other : TypeVariableId} {set : TypeSet} {bindings : List TypeBinding}
  {substitution left right : Substitution}

theorem get?_eq_some_iff :
    substitution.get? variable_ = some set ↔ ⟨variable_, set⟩ ∈ substitution.bindings := by
  rw [get?, Option.map_eq_some_iff]
  constructor
  · rintro ⟨binding, found, rfl⟩
    have same : binding.variable_ = variable_ := by simpa using List.find?_some found
    exact same ▸ List.mem_of_find?_eq_some found
  · intro member
    refine ⟨⟨variable_, set⟩, ?_, rfl⟩
    rw [List.find?_eq_some_iff_append]
    obtain ⟨before, after, split⟩ := List.append_of_mem member
    refine ⟨by simp, before, after, split, fun earlier earlierMember => ?_⟩
    have below := substitution.increasing
    rw [split, List.pairwise_append] at below
    have smaller := below.2.2 earlier earlierMember _ List.mem_cons_self
    simp only [beq_eq_false_iff_ne, Bool.not_eq_true', ne_eq]
    intro same
    exact absurd (same ▸ smaller) (Nat.lt_irrefl _)

theorem isEmpty_eq_false_of_get? (found : substitution.get? variable_ = some set) :
    set.isEmpty = false :=
  substitution.nonempty _ (get?_eq_some_iff.mp found)

/-- Nothing is given for a variable outside the domain. -/
theorem get?_eq_none_of_not_mem_domain (outside : variable_ ∉ substitution.domain) :
    substitution.get? variable_ = none := by
  by_contra bound
  obtain ⟨set, found⟩ := Option.ne_none_iff_exists'.mp bound
  exact outside (List.mem_map_of_mem (get?_eq_some_iff.mp found))

@[simp] theorem get?_empty : (∅ : Substitution).get? variable_ = none := rfl

theorem get?_eq_none_of_isEmpty (isEmpty : substitution.isEmpty = true) :
    substitution.get? variable_ = none := by
  rw [Substitution.isEmpty, List.isEmpty_iff] at isEmpty
  simp [get?, isEmpty]

theorem ext_get? (same : ∀ variable_, left.get? variable_ = right.get? variable_) :
    left = right := by
  have sameMembers : ∀ binding, binding ∈ left.bindings ↔ binding ∈ right.bindings := by
    rintro ⟨variable_, set⟩
    rw [← get?_eq_some_iff, ← get?_eq_some_iff, same]
  have once : ∀ substitution : Substitution, substitution.bindings.Nodup := fun substitution =>
    substitution.increasing.imp fun earlier same => absurd (same ▸ earlier) (Nat.lt_irrefl _)
  have permuted : left.bindings.Perm right.bindings :=
    (List.perm_ext_iff_of_nodup (once left) (once right)).mpr sameMembers
  have equal : left.bindings = right.bindings :=
    permuted.eq_of_pairwise
      (fun first second _ _ earlier later => absurd earlier (Nat.lt_asymm later))
      left.increasing right.increasing
  cases left
  cases right
  cases equal
  rfl

/-! ## Widening and merging -/

theorem find?_widen_of_ne (different : other ≠ variable_) :
    (widen variable_ set bindings).find? (fun binding => binding.variable_ == other) =
      bindings.find? (fun binding => binding.variable_ == other) := by
  have unfound : (variable_ == other) = false := by simpa using different.symm
  induction bindings with
  | nil => simp [widen, unfound]
  | cons first rest ih =>
    simp only [widen]
    split
    · rw [List.find?_cons, List.find?_cons, ih]
    · split
      · rw [List.find?_cons, unfound]
      · rename_i notEarlier notLater
        have same : first.variable_ = variable_ := by
          cases firstVariable : first.variable_
          cases variable_
          simp_all
          omega
        simp [unfound, same]

theorem find?_widen_self (increasing :
      bindings.Pairwise (fun left right => left.variable_.index < right.variable_.index)) :
    ((widen variable_ set bindings).find? (fun binding => binding.variable_ == variable_)).map
        TypeBinding.set =
      some ((bindings.find? (fun binding => binding.variable_ == variable_)).elim set
        (fun binding => binding.set ∪ set)) := by
  induction bindings with
  | nil => simp [widen]
  | cons first rest ih =>
    obtain ⟨firstBelow, restIncreasing⟩ := List.pairwise_cons.mp increasing
    simp only [widen]
    split
    · rename_i earlier
      have unfound : (first.variable_ == variable_) = false := by
        rw [beq_eq_false_iff_ne]
        exact fun same => absurd (same ▸ earlier) (Nat.lt_irrefl _)
      rw [List.find?_cons, List.find?_cons, unfound]
      exact ih restIncreasing
    · split
      · rename_i later
        have unfound : (first :: rest).find? (fun binding => binding.variable_ == variable_) =
            none := by
          rw [List.find?_eq_none]
          intro binding member
          have below : variable_.index < binding.variable_.index := by
            rcases List.mem_cons.mp member with rfl | inRest
            · exact later
            · exact Nat.lt_trans later (firstBelow binding inRest)
          rw [beq_iff_eq]
          exact fun same => absurd (same ▸ below) (Nat.lt_irrefl _)
        rw [unfound]
        simp
      · rename_i notEarlier notLater
        have same : first.variable_ = variable_ := by
          cases firstVariable : first.variable_
          cases variable_
          simp_all
          omega
        simp [same]

/-- What widening a binding makes of it. -/
def widened (old : Option TypeSet) (set : TypeSet) : TypeSet :=
  old.elim set (fun present => present ∪ set)

theorem get?_bind_of_ne (different : other ≠ variable_) :
    (substitution.bind variable_ set).get? other = substitution.get? other := by
  unfold bind
  split
  · rfl
  · exact congrArg (Option.map TypeBinding.set) (find?_widen_of_ne different)

theorem get?_bind_self (nonempty : set.isEmpty = false) :
    (substitution.bind variable_ set).get? variable_ =
      some (widened (substitution.get? variable_) set) := by
  have notEmpty : ¬set.isEmpty = true := by simp [nonempty]
  rw [bind, dif_neg notEmpty]
  refine (find?_widen_self substitution.increasing).trans ?_
  cases found : substitution.bindings.find? (fun binding => binding.variable_ == variable_) <;>
    simp [widened, get?, found]

theorem get?_singleton_self (nonempty : set.isEmpty = false) :
    (singleton variable_ set).get? variable_ = some set :=
  get?_bind_self nonempty

theorem get?_singleton_of_ne (different : other ≠ variable_) :
    (singleton variable_ set).get? other = none :=
  get?_bind_of_ne different

theorem get?_foldl_bind (increasing :
      bindings.Pairwise (fun left right => left.variable_.index < right.variable_.index))
    (nonempty : ∀ binding ∈ bindings, binding.set.isEmpty = false) (variable_ : TypeVariableId) :
    (bindings.foldl
        (fun substitution binding => substitution.bind binding.variable_ binding.set)
        substitution).get? variable_ =
      ((bindings.find? (fun binding => binding.variable_ == variable_)).map
        (fun binding => widened (substitution.get? variable_) binding.set)).or
        (substitution.get? variable_) := by
  induction bindings generalizing substitution with
  | nil => simp
  | cons first rest ih =>
    obtain ⟨firstBelow, restIncreasing⟩ := List.pairwise_cons.mp increasing
    have restNonempty : ∀ binding ∈ rest, binding.set.isEmpty = false :=
      fun binding member => nonempty binding (by simp [member])
    rw [List.foldl_cons, ih restIncreasing restNonempty, List.find?_cons]
    cases same : first.variable_ == variable_ with
    | false =>
      rw [beq_eq_false_iff_ne] at same
      rw [get?_bind_of_ne same.symm]
    | true =>
      rw [beq_iff_eq] at same
      subst same
      have unfound : rest.find? (fun binding => binding.variable_ == first.variable_) = none := by
        rw [List.find?_eq_none]
        intro binding member
        rw [beq_iff_eq]
        exact fun same => absurd (same ▸ firstBelow binding member) (Nat.lt_irrefl _)
      rw [unfound, get?_bind_self (nonempty first (by simp))]
      rfl

/-- A merge binds what either substitution binds, and to both sets what both bind. -/
theorem get?_merge (left right : Substitution) (variable_ : TypeVariableId) :
    (left.merge right).get? variable_ =
      ((right.get? variable_).map (widened (left.get? variable_))).or (left.get? variable_) := by
  rw [merge, get?_foldl_bind right.increasing right.nonempty]
  refine congrArg (Option.or · (left.get? variable_)) ?_
  simp only [get?, Option.map_map]
  rfl

@[simp] theorem merge_empty (substitution : Substitution) : substitution.merge ∅ = substitution :=
  rfl

/-- Distinct variables are bound each to the set in its place. -/
theorem get?_ofList_zipWith (distinct : typeVariables.Nodup)
    (nonempty : ∀ set ∈ sets, set.isEmpty = false) (variable_ : TypeVariableId) :
    (ofList (List.zipWith TypeBinding.mk typeVariables sets)).get? variable_ =
      (typeVariables.zip sets).lookup variable_ := by
  have fromAny : ∀ substitution : Substitution,
      (∀ bound ∈ typeVariables, substitution.get? bound = none) →
      ((List.zipWith TypeBinding.mk typeVariables sets).foldl
        (fun substitution binding => substitution.bind binding.variable_ binding.set)
        substitution).get? variable_ =
          ((typeVariables.zip sets).lookup variable_).or (substitution.get? variable_) := by
    induction typeVariables generalizing sets with
    | nil => simp
    | cons first rest ih =>
      obtain ⟨firstNew, restDistinct⟩ := List.nodup_cons.mp distinct
      intro substitution unbound
      cases sets with
      | nil => simp
      | cons set sets =>
        have others : ∀ bound ∈ rest, (substitution.bind first set).get? bound = none := by
          intro bound member
          rw [get?_bind_of_ne (by rintro rfl; exact firstNew member)]
          exact unbound bound (by simp [member])
        rw [List.zipWith_cons_cons, List.foldl_cons,
          ih restDistinct (fun other member => nonempty other (by simp [member]))
            _ others, List.zip_cons_cons, List.lookup_cons]
        by_cases same : variable_ = first
        · subst same
          have notIn : (rest.zip sets).lookup variable_ = none := by
            rw [List.lookup_eq_none_iff]
            rintro ⟨other, otherSet⟩ member
            have different : variable_ ≠ other := by
              rintro rfl
              exact firstNew (List.of_mem_zip member).1
            simpa using different
          rw [notIn, get?_bind_self (nonempty set (by simp)), unbound variable_ (by simp)]
          simp [widened]
        · rw [get?_bind_of_ne same, beq_eq_false_iff_ne.mpr same]
  have fromNothing := fromAny ∅ fun _ _ => rfl
  rwa [get?_empty, Option.or_none] at fromNothing

/-! ## Bound members -/

/-- A variable is bound to a set with a certain member. -/
def Holds (substitution : Substitution) (entry : TypeVariableId × ValueId) : Prop :=
  entry.2 ∈ (substitution.get? entry.1).getD ∅

theorem not_holds_empty (entry : TypeVariableId × ValueId) : ¬(∅ : Substitution).Holds entry :=
  TypeSet.not_mem_empty

theorem holds_merge : (left.merge right).Holds entry ↔ left.Holds entry ∨ right.Holds entry := by
  unfold Holds
  rw [get?_merge]
  cases left.get? entry.1 <;> cases right.get? entry.1 <;> simp [widened]

theorem holds_singleton :
    (singleton variable_ set).Holds entry ↔ entry.1 = variable_ ∧ entry.2 ∈ set := by
  unfold Holds
  cases isEmpty : set.isEmpty with
  | true =>
    have unbound : singleton variable_ set = ∅ := dif_pos isEmpty
    have absent : entry.2 ∉ set := fun member => by
      simp [TypeSet.isEmpty_eq_false_of_mem member] at isEmpty
    simp [unbound, absent]
  | false =>
    by_cases same : entry.1 = variable_
    · simp [same, get?_singleton_self isEmpty]
    · simp [same, get?_singleton_of_ne same]

/-- The variable of a single binding stands for what it is bound to, which may be nothing. -/
theorem getD_get?_singleton (variable_ : TypeVariableId) (set : TypeSet) :
    ((singleton variable_ set).get? variable_).getD ∅ = set := by
  apply TypeSet.ext_mem
  intro id
  have held : (singleton variable_ set).Holds (variable_, id) ↔ _ := holds_singleton
  simpa [Holds] using held

/-! ## Restrictions -/

/-- The bindings of some variables. -/
def restrict (substitution : Substitution) (kept : List TypeVariableId) : Substitution where
  bindings := substitution.bindings.filter (fun binding => binding.variable_ ∈ kept)
  increasing := substitution.increasing.filter _
  nonempty := fun binding member => substitution.nonempty binding (List.mem_of_mem_filter member)

theorem get?_restrict (substitution : Substitution) (kept : List TypeVariableId)
    (variable_ : TypeVariableId) :
    (substitution.restrict kept).get? variable_ =
      if variable_ ∈ kept then substitution.get? variable_ else none := by
  apply Option.ext
  intro set
  rw [get?_eq_some_iff]
  simp only [restrict, List.mem_filter, decide_eq_true_eq, ← get?_eq_some_iff]
  by_cases member : variable_ ∈ kept <;> simp [member]

@[simp] theorem restrict_nil (substitution : Substitution) : substitution.restrict [] = ∅ := by
  apply ext_get?
  intro variable_
  simp [get?_restrict]

theorem restrict_congr (substitution : Substitution)
    (same : ∀ variable_, variable_ ∈ kept ↔ variable_ ∈ others) :
    substitution.restrict kept = substitution.restrict others := by
  apply ext_get?
  intro variable_
  simp only [get?_restrict, same]

theorem restrict_singleton (found : substitution.get? variable_ = some set) :
    substitution.restrict [variable_] = singleton variable_ set := by
  apply ext_get?
  intro other
  rw [get?_restrict]
  by_cases same : other = variable_
  · rw [if_pos (by simp [same]), same, found, get?_singleton_self (isEmpty_eq_false_of_get? found)]
  · rw [if_neg (by simp [same]), get?_singleton_of_ne same]

/-- Merging two restrictions restricts a substitution to the variables of both. -/
theorem merge_restrict (substitution : Substitution) (earlier later : List TypeVariableId) :
    (substitution.restrict earlier).merge (substitution.restrict later) =
      substitution.restrict (earlier ++ later) := by
  have united : ∀ set : TypeSet, set ∪ set = set := fun set =>
    TypeSet.ext_mem fun _ => by rw [TypeSet.mem_union, or_self]
  apply ext_get?
  intro variable_
  simp only [get?_merge, get?_restrict, List.mem_append]
  cases found : substitution.get? variable_ <;>
    by_cases first : variable_ ∈ earlier <;> by_cases second : variable_ ∈ later <;>
    simp [first, second, widened, united]

end Substitution

end TypeInference
