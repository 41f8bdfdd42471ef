import TypeInference.Proofs.Substitution

/-!
# Sets and substitutions however they are built

A set is determined by its members and a substitution by the values that it binds, so
it matters neither by which operations they were built nor in which order.
-/

namespace TypeInference

/-! ## Sets -/

namespace TypeSet

/-- A set that the operations build, and the values that belong in it. -/
inductive Built : TypeSet → (ValueId → Prop) → Prop where
  | empty : Built ∅ (fun _ => False)
  | singleton (id : ValueId) : Built (singleton id) (· = id)
  | ofList (ids : List ValueId) : Built (ofList ids) (· ∈ ids)
  | unions (belongs : TypeSet → ValueId → Prop) (built : ∀ set ∈ sets, Built set (belongs set)) :
      Built (unions sets) (fun id => ∃ set ∈ sets, belongs set id)
  | insert (added : ValueId) (built : Built base belongs) :
      Built (base.insert added) (fun id => id = added ∨ belongs id)
  | union (leftBuilt : Built left inLeft) (rightBuilt : Built right inRight) :
      Built (left ∪ right) (fun id => inLeft id ∨ inRight id)
  | filter (condition : ValueId → Bool) (built : Built base belongs) :
      Built (base.filter condition) (fun id => belongs id ∧ condition id = true)
  | erase (removed : ValueId) (built : Built base belongs) :
      Built (base.erase removed) (fun id => belongs id ∧ id ≠ removed)

variable {id : ValueId} {sets : List TypeSet} {set : TypeSet}

theorem mem_unions : id ∈ unions sets ↔ ∃ set ∈ sets, id ∈ set := by
  induction sets with
  | nil => exact iff_of_false not_mem_empty (by simp)
  | cons set rest ih => simp [unions, ih]

theorem mem_ofList {ids : List ValueId} : id ∈ ofList ids ↔ id ∈ ids := by
  induction ids with
  | nil => exact iff_of_false not_mem_empty List.not_mem_nil
  | cons first rest ih => simp [ofList, ih]

theorem Built.mem_iff (built : Built set belongs) (id : ValueId) : id ∈ set ↔ belongs id := by
  induction built with
  | empty => exact iff_of_false not_mem_empty not_false
  | singleton other => exact mem_singleton
  | ofList ids => exact mem_ofList
  | unions belongs _ ih =>
    rw [mem_unions]
    exact exists_congr fun set => and_congr_right (ih set)
  | insert added _ ih => rw [mem_insert, ih]
  | union _ _ leftIh rightIh => rw [mem_union, leftIh, rightIh]
  | filter condition _ ih => exact List.mem_filter.trans (and_congr_left fun _ => ih)
  | erase removed _ ih => rw [mem_erase, ih]

/-- Sets are increasing listings of what belongs in them, and equal if the same does. -/
theorem built_sets_are_canonical :
    (∀ set belongs, Built set belongs →
      set.members.Pairwise (fun earlier later => earlier.index < later.index) ∧
      ∀ id, (set.contains id = true ↔ id ∈ set.members) ∧ (id ∈ set.members ↔ belongs id)) ∧
    (∀ left right : TypeSet, (∀ id, id ∈ left.members ↔ id ∈ right.members) → left = right) ∧
    (∀ left right : TypeSet, left ∪ right = right ∪ left) ∧
    (∀ left middle right : TypeSet, left ∪ middle ∪ right = left ∪ (middle ∪ right)) ∧
    ∀ set : TypeSet, set ∪ set = set ∧ set ∪ ∅ = set ∧ ∅ ∪ set = set := by
  refine ⟨fun set belongs built => ⟨set.increasing, fun id => ⟨contains_iff, built.mem_iff id⟩⟩,
    fun _ _ same => ext_mem same, fun left right => ?_, fun left middle right => ?_, fun set => ?_⟩
  · exact ext_mem fun id => by simp [or_comm]
  · exact ext_mem fun id => by simp [or_assoc]
  · exact ⟨ext_mem fun id => by simp, union_empty set, ext_mem fun id => by simp⟩

/-- A set built from a list with repetitions, in which a search stops early. -/
theorem built_set_of_repetitions :
    ((ofList [⟨7⟩, ⟨2⟩, ⟨7⟩]).insert ⟨4⟩).contains ⟨3⟩ = false ∧
      ∀ id, id ∈ (((ofList [⟨7⟩, ⟨2⟩, ⟨7⟩]).insert ⟨4⟩).erase ⟨2⟩).members ↔
        (id = ⟨4⟩ ∨ id ∈ [⟨7⟩, ⟨2⟩, ⟨7⟩]) ∧ id ≠ ⟨2⟩ :=
  ⟨by decide, fun id =>
    ((built_sets_are_canonical.1 _ _ (.erase ⟨2⟩ (.insert ⟨4⟩ (.ofList _)))).2 id).2⟩

end TypeSet

/-! ## Substitutions -/

namespace Substitution

/-- The bindings of a list, added to a substitution in their order. -/
abbrev bindAll (substitution : Substitution) (pairs : List TypeBinding) : Substitution :=
  pairs.foldl (fun substitution pair => substitution.bind pair.variable_ pair.set) substitution

/--
A substitution that the operations build, and the bindings it was given.  A merge may
take the bindings of one substitution in any order.
-/
inductive Built : Substitution → List TypeBinding → Prop where
  | empty : Built ∅ []
  | singleton (variable_ : TypeVariableId) (set : TypeSet) :
      Built (singleton variable_ set) [⟨variable_, set⟩]
  | ofList (pairs : List TypeBinding) : Built (ofList pairs) pairs
  | bind (variable_ : TypeVariableId) (set : TypeSet) (built : Built substitution given) :
      Built (substitution.bind variable_ set) (given ++ [⟨variable_, set⟩])
  | merge (leftBuilt : Built left leftGiven) (rightBuilt : Built right rightGiven)
      (order : visited.Perm right.bindings) : Built (left.bindAll visited) (leftGiven ++ rightGiven)

variable {variable_ : TypeVariableId} {set : TypeSet} {entry : TypeVariableId × ValueId}
  {pairs permuted : List TypeBinding} {substitution left right : Substitution}

theorem get?_eq (substitution : Substitution) (variable_ : TypeVariableId) :
    substitution.get? variable_ =
      if ((substitution.get? variable_).getD ∅).isEmpty then none
      else some ((substitution.get? variable_).getD ∅) := by
  cases found : substitution.get? variable_ with
  | none => rfl
  | some set => simp [isEmpty_eq_false_of_get? found]

/-- Substitutions that bind the same values are equal. -/
theorem ext_holds (same : ∀ entry, left.Holds entry ↔ right.Holds entry) : left = right := by
  apply ext_get?
  intro variable_
  have sameSets : (left.get? variable_).getD ∅ = (right.get? variable_).getD ∅ :=
    TypeSet.ext_mem fun id => same (variable_, id)
  rw [get?_eq left, get?_eq right, sameSets]

theorem bind_eq_merge : substitution.bind variable_ set =
    substitution.merge (singleton variable_ set) := by
  by_cases isEmpty : set.isEmpty = true
  · simp only [singleton, bind, dif_pos isEmpty]
    rfl
  · simp [merge, singleton, bind, isEmpty, empty, widen]

theorem holds_bindAll :
    (substitution.bindAll pairs).Holds entry ↔
      substitution.Holds entry ∨ ∃ pair ∈ pairs, entry.1 = pair.variable_ ∧ entry.2 ∈ pair.set := by
  induction pairs generalizing substitution with
  | nil => simp
  | cons pair rest ih =>
    rw [bindAll, List.foldl_cons, ← bindAll, ih, bind_eq_merge, holds_merge, holds_singleton]
    simp [or_assoc]

theorem holds_ofList :
    (ofList pairs).Holds entry ↔ ∃ pair ∈ pairs, entry.1 = pair.variable_ ∧ entry.2 ∈ pair.set :=
  holds_bindAll.trans (or_iff_right (not_holds_empty entry))

/-- Bindings may be added in any order. -/
theorem bindAll_of_perm (order : permuted.Perm pairs) (substitution : Substitution) :
    substitution.bindAll permuted = substitution.bindAll pairs := by
  apply ext_holds
  intro entry
  simp only [holds_bindAll, order.mem_iff]

theorem eq_ofList_of_built (built : Built substitution given) : substitution = ofList given := by
  induction built with
  | empty | singleton | ofList => rfl
  | bind variable_ set _ ih => simp [ih, ofList]
  | merge _ _ order leftIh rightIh =>
    apply ext_holds
    intro entry
    rw [bindAll_of_perm order]
    refine holds_merge.trans ?_
    rw [leftIh, rightIh]
    simp only [holds_ofList, List.mem_append, or_and_right, exists_or]

theorem contains_iff_holds :
    substitution.contains variable_ = true ↔ ∃ id, substitution.Holds (variable_, id) := by
  cases found : substitution.get? variable_ with
  | none => simp [contains, Holds, found]
  | some set =>
    simpa [contains, Holds, found] using
      set.exists_mem_of_isEmpty_eq_false (isEmpty_eq_false_of_get? found)

theorem mem_domain_iff :
    variable_ ∈ substitution.domain ↔ substitution.contains variable_ = true := by
  rw [contains, Option.isSome_iff_exists]
  simp only [get?_eq_some_iff, domain, List.mem_map]
  constructor
  · rintro ⟨binding, member, rfl⟩
    exact ⟨binding.set, member⟩
  · rintro ⟨set, member⟩
    exact ⟨_, member, rfl⟩

/-- A variable of a list of bindings stands for all that the list gives it. -/
theorem getD_get?_ofList (pairs : List TypeBinding) (variable_ : TypeVariableId) :
    ((ofList pairs).get? variable_).getD ∅ =
      .unions ((pairs.filter (·.variable_ = variable_)).map TypeBinding.set) := by
  apply TypeSet.ext_mem
  intro id
  have held : (ofList pairs).Holds (variable_, id) ↔ _ := holds_ofList
  simp only [Holds] at held
  rw [held, TypeSet.mem_unions]
  simp [eq_comm, and_assoc]

/-- Substitutions do not depend on the order in which bindings were given or merged. -/
theorem substitutions_merge_in_any_order :
    (∀ pairs variable_,
      ((ofList pairs).contains variable_ = true ↔
        ∃ pair ∈ pairs, pair.variable_ = variable_ ∧ pair.set.isEmpty = false) ∧
      ∀ set, (ofList pairs).get? variable_ = some set →
        set = .unions ((pairs.filter (·.variable_ = variable_)).map TypeBinding.set)) ∧
    (∀ pairs permuted, permuted.Perm pairs → ofList permuted = ofList pairs) ∧
    (∀ substitution given, Built substitution given → substitution = ofList given ∧
      (∀ binding ∈ substitution.bindings, binding.set.isEmpty = false) ∧
      substitution.domain.Pairwise (fun earlier later => earlier.index < later.index) ∧
      ∀ variable_, variable_ ∈ substitution.domain ↔ substitution.contains variable_ = true) ∧
    (∀ left right : Substitution, left.merge right = right.merge left ∧
      ∀ visited, visited.Perm right.bindings → left.bindAll visited = left.merge right) ∧
    (∀ left middle right : Substitution,
      (left.merge middle).merge right = left.merge (middle.merge right)) ∧
    ∀ substitution : Substitution, substitution.merge substitution = substitution ∧
      substitution.merge ∅ = substitution ∧ merge ∅ substitution = substitution := by
  refine ⟨fun pairs variable_ => ⟨?_, fun set found => ?_⟩,
    fun _ _ order => bindAll_of_perm order ∅,
    fun substitution given built => ⟨eq_ofList_of_built built, substitution.nonempty,
      List.pairwise_map.mpr substitution.increasing, fun _ => mem_domain_iff⟩,
    fun left right => ⟨?_, fun _ order => bindAll_of_perm order left⟩,
    fun left middle right => ?_, fun substitution => ⟨?_, merge_empty substitution, ?_⟩⟩
  · rw [contains_iff_holds]
    simp only [holds_ofList]
    constructor
    · rintro ⟨id, pair, given, rfl, member⟩
      exact ⟨pair, given, rfl, pair.set.isEmpty_eq_false_of_mem member⟩
    · rintro ⟨pair, given, rfl, nonempty⟩
      obtain ⟨id, member⟩ := pair.set.exists_mem_of_isEmpty_eq_false nonempty
      exact ⟨id, pair, given, rfl, member⟩
  · rw [← getD_get?_ofList, found, Option.getD_some]
  all_goals
    apply ext_holds
    intro entry
    simp only [holds_merge, not_holds_empty]
    grind

end Substitution

end TypeInference
