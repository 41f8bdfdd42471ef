import TypeInference.Declaration.Builtin
import TypeInference.Diagnostic
import TypeInference.Substitution

/-!
# Scope

Something is within a scope when every value it refers to was interned before a
bound, and every class and every function it refers to is declared.  The bound of
what is stored at a position of the arena is that position; the bound of what a
request works with is the size of its arena.  Scopes only grow.
-/

namespace TypeInference

variable {α ε : Type} {set : TypeSet} {id : ValueId} {bindings : List TypeBinding}
  {substitution : Substitution} {class_ : ClassId} {sets : List TypeSet}
  {variable_ : TypeVariableId}

def ClassId.Declared (declarations : Declarations) (class_ : ClassId) : Prop :=
  class_.index < declarations.classes.size

def FunctionId.Declared (declarations : Declarations) (function : FunctionId) : Prop :=
  function.index < declarations.functions.size

/-- What refers to values, classes and functions. -/
class Scoped (α : Type) where
  /-- Every reference is to a value below the bound or to a declaration that exists. -/
  within : Declarations → Nat → α → Prop
  /-- A larger bound admits more. -/
  grow :
    ∀ {declarations : Declarations} {bound later : Nat} {answer : α},
      bound ≤ later →
      within declarations bound answer →
      within declarations later answer

/-- Every reference is to a value below the bound or to a declaration that exists. -/
def Within {α : Type} [Scoped α] (declarations : Declarations) (bound : Nat) (answer : α) : Prop :=
  Scoped.within declarations bound answer

variable {declarations : Declarations} {bound later : Nat}

theorem Within.grow [Scoped α] {answer : α} (within : Within declarations bound answer)
    (larger : bound ≤ later) :
    Within declarations later answer :=
  Scoped.grow larger within

/-! ## What refers to nothing -/

/-- A type without references is within every scope. -/
abbrev Scoped.unreferring (α : Type) : Scoped α where
  within := fun _ _ _ => True
  grow := fun _ _ => trivial

instance : Scoped Unit := .unreferring Unit

instance : Scoped Bool := .unreferring Bool

instance : Scoped String := .unreferring String

instance : Scoped NodeId := .unreferring NodeId

instance : Scoped CellId := .unreferring CellId

instance : Scoped TypeVariableId := .unreferring TypeVariableId

instance : Scoped Diagnostics := .unreferring Diagnostics

instance : Scoped FunctionDeclaration := .unreferring FunctionDeclaration

/-! ## Containers -/

instance {α : Type} [Scoped α] : Scoped (Option α) where
  within := fun declarations bound found => ∀ answer ∈ found, Within declarations bound answer
  grow := fun larger within answer member => (within answer member).grow larger

instance {α : Type} [Scoped α] : Scoped (List α) where
  within := fun declarations bound items => ∀ item ∈ items, Within declarations bound item
  grow := fun larger within item member => (within item member).grow larger

instance {α β : Type} [Scoped α] [Scoped β] : Scoped (α × β) where
  within := fun declarations bound pair =>
    Within declarations bound pair.1 ∧ Within declarations bound pair.2
  grow := fun larger within => ⟨within.1.grow larger, within.2.grow larger⟩

instance {ε α : Type} [Scoped α] : Scoped (Except ε α) where
  within := fun declarations bound outcome =>
    ∀ answer, outcome = .ok answer → Within declarations bound answer
  grow := fun larger within answer success => (within answer success).grow larger

section Lists

variable {α : Type} [Scoped α]

@[simp] theorem within_nil : Within declarations bound ([] : List α) := by
  intro item member
  cases member

@[simp] theorem within_cons {item : α} {rest : List α} :
    Within declarations bound (item :: rest) ↔
      Within declarations bound item ∧ Within declarations bound rest :=
  List.forall_mem_cons

@[simp] theorem within_append {left right : List α} :
    Within declarations bound (left ++ right) ↔
      Within declarations bound left ∧ Within declarations bound right :=
  List.forall_mem_append

theorem within_sublist {items selected : List α} (within : Within declarations bound items)
    (sublist : selected.Sublist items) :
    Within declarations bound selected :=
  fun item member => within item (sublist.subset member)

theorem within_flatten {rows : List (List α)} (within : Within declarations bound rows) :
    Within declarations bound rows.flatten := by
  intro item member
  obtain ⟨row, rowMember, itemMember⟩ := List.mem_flatten.mp member
  exact within row rowMember item itemMember

theorem within_none : Within declarations bound (none : Option α) := by
  intro answer found
  cases found

theorem within_some {answer : α} (within : Within declarations bound answer) :
    Within declarations bound (some answer) := by
  intro other found
  cases found
  exact within

end Lists

theorem within_ok [Scoped α] (within : Within declarations bound answer) :
    Within declarations bound (Except.ok answer : Except ε α) := by
  intro other success
  cases success
  exact within

theorem within_error [Scoped α] : Within declarations bound (Except.error issue : Except ε α) := by
  intro other success
  cases success

theorem within_map {β : Type} [Scoped β] {items : List α} (change : α → β)
    (within : ∀ item ∈ items, Within declarations bound (change item)) :
    Within declarations bound (items.map change) := by
  intro answer member
  obtain ⟨item, itemMember, rfl⟩ := List.mem_map.mp member
  exact within item itemMember

/-! ## Identifiers and sets -/

instance : Scoped ValueId where
  within := fun _ bound id => id.index < bound
  grow := fun larger within => Nat.lt_of_lt_of_le within larger

instance : Scoped ClassId where
  within := fun declarations _ class_ => class_.Declared declarations
  grow := fun _ within => within

instance : Scoped FunctionId where
  within := fun declarations _ function => function.Declared declarations
  grow := fun _ within => within

instance : Scoped TypeSet where
  within := fun declarations bound set => ∀ id ∈ set, Within declarations bound id
  grow := fun larger within id member => (within id member).grow larger

instance : Scoped TypeArguments where
  within := fun declarations bound arguments => Within declarations bound arguments.slots
  grow := fun larger within => within.grow larger

/-- Type arguments that were read are within a scope if their slots are. -/
def Generics.InScope (declarations : Declarations) (bound : Nat) : Generics → Prop
  | .resolved arguments => Within declarations bound arguments
  | .lazy _ => True

instance : Scoped Generics where
  within := Generics.InScope
  grow := by
    intro declarations bound later generics larger within
    cases generics with
    | resolved arguments => exact Scoped.grow (α := TypeArguments) larger within
    | lazy node => trivial

/-! ## Values -/

/-- Every identifier in a value is within the scope. -/
def Value.InScope (declarations : Declarations) (bound : Nat) : Value → Prop
  | .classObject class_ | .typedDict class_ => Within declarations bound class_
  | .genericClass class_ generics | .instanceOf class_ generics =>
    Within declarations bound class_ ∧ Within declarations bound generics
  | .special _ generics | .callable generics | .tuple generics =>
    Within declarations bound generics
  | .typeList items | .packedTuple items => Within declarations bound items
  | .packedDict entries => Within declarations bound entries
  | .function callee => Within declarations bound callee
  | .overloaded functions => Within declarations bound functions
  | .boundMethod callee receiver =>
    Within declarations bound callee ∧ Within declarations bound receiver
  | .exactly value => Within declarations bound value
  | .typeVariable _ | .literal _ | .any | .none | .ellipsis => True

instance : Scoped Value where
  within := Value.InScope
  grow := by
    intro declarations bound later value larger within
    cases value with
    | classObject class_ | typedDict class_ | function callee | overloaded functions =>
      exact within
    | genericClass class_ generics | instanceOf class_ generics =>
      exact ⟨within.1, within.2.grow larger⟩
    | special form generics | callable generics | tuple generics =>
      exact Scoped.grow (α := Generics) larger within
    | typeList items | packedTuple items => exact Scoped.grow (α := List TypeSet) larger within
    | packedDict entries => exact Scoped.grow (α := List (String × TypeSet)) larger within
    | boundMethod callee receiver => exact ⟨within.1.grow larger, within.2.grow larger⟩
    | exactly described => exact Scoped.grow (α := ValueId) larger within
    | typeVariable variable_ | literal text | any | none | ellipsis => trivial

/-- The class of a class object is declared. -/
theorem within_class? {value : Value} (within : Within declarations bound value)
    (found : value.class? = some class_) :
    Within declarations bound class_ := by
  cases value with
  | classObject own =>
    cases found
    exact within
  | genericClass own generics =>
    cases found
    exact within.1
  | _ => cases found

/-! ## Operations on sets -/

theorem within_empty : Within declarations bound (∅ : TypeSet) := by
  intro id member
  cases member

theorem within_singleton (within : Within declarations bound id) :
    Within declarations bound (TypeSet.singleton id) := by
  intro other member
  have same : other = id := List.mem_singleton.mp member
  exact same ▸ within

theorem within_union {left right : TypeSet} (leftWithin : Within declarations bound left)
    (rightWithin : Within declarations bound right) :
    Within declarations bound (left ∪ right) := by
  intro id member
  rcases TypeSet.mem_union.mp member with inLeft | inRight
  · exact leftWithin id inLeft
  · exact rightWithin id inRight

theorem within_unions (within : Within declarations bound sets) :
    Within declarations bound (TypeSet.unions sets) := by
  induction sets with
  | nil => exact within_empty
  | cons set rest ih =>
    refine within_union (within set (by simp)) (ih ?_)
    intro other member
    exact within other (by simp [member])

theorem within_insert (idWithin : Within declarations bound id)
    (setWithin : Within declarations bound set) :
    Within declarations bound (set.insert id) :=
  within_union (within_singleton idWithin) setWithin

theorem within_erase (within : Within declarations bound set) (id : ValueId) :
    Within declarations bound (set.erase id) := by
  intro other member
  exact within other (List.mem_filter.mp member).1

/-- The set at a place of a list, or the empty set beyond its end. -/
theorem within_getD (within : Within declarations bound sets) (index : Nat) :
    Within declarations bound (sets.getD index ∅) := by
  rw [List.getD_eq_getElem?_getD]
  cases found : sets[index]? with
  | none => exact within_empty
  | some set => exact within set (List.mem_of_getElem? found)

theorem within_slot {arguments : TypeArguments} (within : Within declarations bound arguments)
    (index : Nat) :
    Within declarations bound (arguments.slot index) :=
  within_getD within index

theorem within_single? (within : Within declarations bound set) (only : set.single? = some id) :
    Within declarations bound id := by
  unfold TypeSet.single? at only
  split at only
  · rename_i listing
    cases only
    exact within id (by simp [← TypeSet.mem_members, listing])
  · cases only

/-! ## Substitutions -/

instance : Scoped TypeBinding where
  within := fun declarations bound binding => Within declarations bound binding.set
  grow := fun larger within => within.grow larger

instance : Scoped Substitution where
  within := fun declarations bound substitution =>
    Within declarations bound substitution.bindings
  grow := fun larger within => within.grow larger

theorem within_emptySubstitution : Within declarations bound (∅ : Substitution) := by
  intro binding member
  cases member

theorem within_widen (setWithin : Within declarations bound set)
    (within : Within declarations bound bindings) :
    Within declarations bound (Substitution.widen variable_ set bindings) := by
  induction bindings with
  | nil =>
    intro binding member
    rw [List.mem_singleton.mp member]
    exact setWithin
  | cons first rest ih =>
    have firstWithin : Within declarations bound first := within first (by simp)
    have restWithin : Within declarations bound rest :=
      fun binding member => within binding (by simp [member])
    intro binding member
    unfold Substitution.widen at member
    split at member
    · rcases List.mem_cons.mp member with rfl | inRest
      · exact firstWithin
      · exact ih restWithin binding inRest
    · split at member
      · rcases List.mem_cons.mp member with rfl | inRest
        · exact setWithin
        · exact within binding inRest
      · rcases List.mem_cons.mp member with rfl | inRest
        · exact within_union firstWithin setWithin
        · exact restWithin binding inRest

theorem within_bind (within : Within declarations bound substitution)
    (setWithin : Within declarations bound set) (variable_ : TypeVariableId) :
    Within declarations bound (substitution.bind variable_ set) := by
  unfold Substitution.bind
  split
  · exact within
  · exact within_widen setWithin within

theorem within_foldl_bind (within : Within declarations bound substitution)
    (bindingsWithin : Within declarations bound bindings) :
    Within declarations bound
      (bindings.foldl (fun found binding => found.bind binding.variable_ binding.set)
        substitution) := by
  induction bindings generalizing substitution with
  | nil => exact within
  | cons first rest ih =>
    have firstWithin : Within declarations bound first := bindingsWithin first (by simp)
    refine ih (within_bind within firstWithin first.variable_) ?_
    intro binding member
    exact bindingsWithin binding (by simp [member])

theorem within_singletonSubstitution (within : Within declarations bound set)
    (variable_ : TypeVariableId) :
    Within declarations bound (Substitution.singleton variable_ set) :=
  within_bind within_emptySubstitution within variable_

theorem within_ofList (within : Within declarations bound bindings) :
    Within declarations bound (Substitution.ofList bindings) :=
  within_foldl_bind within_emptySubstitution within

theorem within_merge {left right : Substitution} (leftWithin : Within declarations bound left)
    (rightWithin : Within declarations bound right) :
    Within declarations bound (left.merge right) :=
  within_foldl_bind leftWithin rightWithin

theorem within_substitution_get? (within : Within declarations bound substitution)
    (found : substitution.get? variable_ = some set) :
    Within declarations bound set := by
  obtain ⟨binding, present, rfl⟩ := Option.map_eq_some_iff.mp found
  exact within binding (List.mem_of_find?_eq_some present)

/-! ## Declarations -/

instance : Scoped MethodGroup where
  within := fun declarations bound group => Within declarations bound group.signatures
  grow := fun larger within => within.grow larger

/-- The functions that a member stands for are declared. -/
def Member.InScope (declarations : Declarations) (bound : Nat) : Member → Prop
  | .method group => Within declarations bound group
  | .field _ => True

instance : Scoped Member where
  within := Member.InScope
  grow := by
    intro declarations bound later member larger within
    cases member with
    | method group => exact Scoped.grow (α := MethodGroup) larger within
    | field node => trivial

/-- The bases of a class are interned and its methods are declared. -/
structure ClassDeclaration.InScope (declarations : Declarations) (bound : Nat)
    (class_ : ClassDeclaration) : Prop where
  bases : Within declarations bound class_.bases
  methods : ∀ name group, class_.methods.get? name = some group →
    Within declarations bound group

instance : Scoped ClassDeclaration where
  within := ClassDeclaration.InScope
  grow := fun larger within =>
    ⟨within.bases.grow larger, fun name group found => (within.methods name group found).grow larger⟩

theorem within_member? {class_ : ClassDeclaration} {member : Member}
    (within : Within declarations bound class_) (found : class_.member? name = some member) :
    Within declarations bound member := by
  unfold ClassDeclaration.member? at found
  split at found
  · rename_i group present
    cases found
    exact ClassDeclaration.InScope.methods within name group present
  · obtain ⟨node, -, rfl⟩ := Option.map_eq_some_iff.mp found
    trivial

/--
Every declaration is within the scope.  The builtin classes are declared before
all others, so that all of them are declared if the last one is.
-/
structure Declarations.InScope (declarations : Declarations) (bound : Nat) : Prop where
  builtins : Builtin.dict.Declared declarations
  classes : ∀ id class_, declarations.class? id = some class_ → Within declarations bound class_
  bounds : ∀ variable_ set, declarations.typeVariables.bound? variable_ = some set →
    Within declarations bound set
  constraints : ∀ variable_ set, declarations.typeVariables.constraints? variable_ = some set →
    Within declarations bound set

section

variable (inScope : declarations.InScope bound)

include inScope

theorem Declarations.InScope.grow (larger : bound ≤ later) : declarations.InScope later where
  builtins := inScope.builtins
  classes := fun id class_ found => (inScope.classes id class_ found).grow larger
  bounds := fun variable_ set found => (inScope.bounds variable_ set found).grow larger
  constraints := fun variable_ set found => (inScope.constraints variable_ set found).grow larger

theorem within_builtin (builtin : class_.index ≤ Builtin.dict.index) :
    Within declarations bound class_ :=
  Nat.lt_of_le_of_lt builtin inScope.builtins

theorem within_fallback (variable_ : TypeVariableId) :
    Within declarations bound (declarations.typeVariables.fallback variable_) := by
  unfold TypeVariables.fallback
  split
  · rename_i set found
    exact inScope.bounds variable_ set found
  · cases found : declarations.typeVariables.constraints? variable_ with
    | none => exact within_empty
    | some set => exact inScope.constraints variable_ set found

theorem within_narrow (within : Within declarations bound set) (variable_ : TypeVariableId)
    (any : ValueId) :
    Within declarations bound (declarations.typeVariables.narrow variable_ set any) := by
  unfold TypeVariables.narrow
  split
  · rename_i constraints found
    split
    · exact within_union (within_erase within any) (inScope.constraints variable_ constraints found)
    · exact within
  · exact within

end

end TypeInference
