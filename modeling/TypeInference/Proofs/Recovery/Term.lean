import Mathlib.Data.List.Forall2
import TypeInference.Proofs.Judgement.Request

/-!
# Annotations and what replaces their variables

An annotation is written out as a tree of type variables, classes and heads with type
arguments.  An arena has it in writing when it stores a value for each part, whatever
sets stand for the variables: the variables themselves, or the bindings of a
substitution.  Replacing variables leads from the first kind of writing to the second.
-/

namespace TypeInference

/-! ## Annotations -/

/-- What takes type arguments in an annotation. -/
inductive TypeTerm.Head where
  | ofClass (class_ : ClassId)
  | ofForm (form : SpecialForm)
deriving DecidableEq

def TypeTerm.Head.value : TypeTerm.Head → Generics → Value
  | .ofClass class_, generics => .genericClass class_ generics
  | .ofForm form, generics => .special form generics

/-- An annotation of which every part is known. -/
inductive TypeTerm where
  | typeVariable (variable_ : TypeVariableId)
  | classObject (class_ : ClassId)
  | applied (head : TypeTerm.Head) (arguments : List TypeTerm) (homogeneous : Bool)

namespace TypeTerm

/-- What holds of an annotation if it holds of its type arguments holds of every annotation. -/
@[elab_as_elim]
theorem induction {motive : TypeTerm → Prop}
    (typeVariable : ∀ variable_, motive (.typeVariable variable_))
    (classObject : ∀ class_, motive (.classObject class_))
    (applied : ∀ head arguments homogeneous, (∀ argument ∈ arguments, motive argument) →
      motive (.applied head arguments homogeneous))
    (term : TypeTerm) :
    motive term :=
  @TypeTerm.rec motive (fun arguments => ∀ argument ∈ arguments, motive argument)
    typeVariable classObject applied (by simp)
    (fun _ _ first rest => List.forall_mem_cons.mpr ⟨first, rest⟩) term

def arguments : TypeTerm → List TypeTerm
  | .typeVariable _ | .classObject _ => []
  | .applied _ arguments _ => arguments

mutual

/-- How deeply type arguments nest. -/
def depth : TypeTerm → Nat
  | .typeVariable _ | .classObject _ => 0
  | .applied _ arguments _ => depthOfAll arguments

/-- How deeply annotations nest below the one that they are the type arguments of. -/
def depthOfAll : List TypeTerm → Nat
  | [] => 0
  | term :: rest => max (depth term + 1) (depthOfAll rest)

end

theorem depth_lt_of_mem_arguments {term argument : TypeTerm} (member : argument ∈ term.arguments) :
    argument.depth < term.depth := by
  have below : ∀ arguments : List TypeTerm, argument ∈ arguments →
      argument.depth < depthOfAll arguments := by
    intro arguments
    induction arguments with
    | nil => simp
    | cons first rest ih =>
      intro member
      rw [depthOfAll]
      rcases List.mem_cons.mp member with rfl | inRest
      · omega
      · have := ih inRest
        omega
  cases term with
  | typeVariable _ | classObject _ => simp [arguments] at member
  | applied head arguments homogeneous => exact below arguments member

mutual

/-- The type variables that an annotation mentions, from left to right. -/
def mentions : TypeTerm → List TypeVariableId
  | .typeVariable variable_ => [variable_]
  | .classObject _ => []
  | .applied _ arguments _ => mentionsOfAll arguments

/-- The type variables that annotations mention, from left to right. -/
def mentionsOfAll : List TypeTerm → List TypeVariableId
  | [] => []
  | term :: rest => mentions term ++ mentionsOfAll rest

end

theorem mentionsOfAll_singleton (term : TypeTerm) : mentionsOfAll [term] = term.mentions := by
  simp [mentionsOfAll]

theorem mem_mentions_of_mem_arguments {term argument : TypeTerm}
    (member : argument ∈ term.arguments) (mentioned : variable_ ∈ argument.mentions) :
    variable_ ∈ term.mentions := by
  have among : ∀ arguments : List TypeTerm, argument ∈ arguments →
      variable_ ∈ mentionsOfAll arguments := by
    intro arguments
    induction arguments with
    | nil => simp
    | cons first rest ih =>
      intro member
      rw [mentionsOfAll, List.mem_append]
      rcases List.mem_cons.mp member with rfl | inRest
      · exact Or.inl mentioned
      · exact Or.inr (ih inRest)
  cases term with
  | typeVariable _ | classObject _ => simp [arguments] at member
  | applied head arguments homogeneous => exact among arguments member

/-! ## Annotations that can be recovered -/

end TypeTerm

/-- Whether the instances of a class are dictionaries with declared fields. -/
def Declarations.describesTypedDict (declarations : Declarations) (class_ : ClassId) : Bool :=
  (declarations.class? class_).any ClassDeclaration.isTypedDict

namespace TypeTerm

/--
A head through which unification sees its type arguments: a class that has instances of
its own, a tuple, or a form that describes what its one type argument does.
-/
def Head.IsTransparent (declarations : Declarations) (count : Nat)
    (homogeneous : Bool) : Head → Prop
  | .ofClass class_ =>
    if class_ = Builtin.tuple then homogeneous = true → count = 1
    else
      declarations.describesTypedDict class_ = false ∧ (class_ = Builtin.iterable → count = 1)
  | .ofForm .tuple => homogeneous = true → count = 1
  | .ofForm .optional | .ofForm .classVar | .ofForm .type => count = 1
  | .ofForm .union | .ofForm .callable => False

mutual

/-- Every head of an annotation is transparent. -/
def IsTransparent (declarations : Declarations) : TypeTerm → Prop
  | .typeVariable _ | .classObject _ => True
  | .applied head arguments homogeneous =>
    head.IsTransparent declarations arguments.length homogeneous ∧
      AllTransparent declarations arguments

def AllTransparent (declarations : Declarations) : List TypeTerm → Prop
  | [] => True
  | term :: rest => IsTransparent declarations term ∧ AllTransparent declarations rest

end

theorem IsTransparent.of_mem_arguments {declarations : Declarations} {term argument : TypeTerm}
    (transparent : term.IsTransparent declarations) (member : argument ∈ term.arguments) :
    argument.IsTransparent declarations := by
  have each : ∀ arguments : List TypeTerm, AllTransparent declarations arguments →
      argument ∈ arguments → argument.IsTransparent declarations := by
    intro arguments
    induction arguments with
    | nil => simp
    | cons first rest ih =>
      intro all member
      rw [AllTransparent] at all
      rcases List.mem_cons.mp member with rfl | inRest
      · exact all.1
      · exact ih all.2 inRest
  cases term with
  | typeVariable _ | classObject _ => simp [arguments] at member
  | applied head arguments homogeneous =>
    rw [IsTransparent] at transparent
    exact each arguments transparent.2 member

/-! ## Annotations in writing -/

mutual

/-- An arena stores the parts of an annotation, where sets stand for the type variables. -/
def Written (arena : Arena) (standsFor : TypeVariableId → TypeSet → Prop) :
    TypeTerm → TypeSet → Prop
  | .typeVariable variable_, set => standsFor variable_ set
  | .classObject class_, set =>
    ∃ id, set = .singleton id ∧ arena.get? id = some (.classObject class_)
  | .applied head arguments homogeneous, set => ∃ id slots, set = .singleton id ∧
    arena.get? id = some (head.value (.resolved ⟨slots, homogeneous⟩)) ∧
      AllWritten arena standsFor arguments slots

/-- An arena stores the parts of annotations, one after the other. -/
def AllWritten (arena : Arena) (standsFor : TypeVariableId → TypeSet → Prop) :
    List TypeTerm → List TypeSet → Prop
  | [], [] => True
  | term :: rest, set :: sets =>
    Written arena standsFor term set ∧ AllWritten arena standsFor rest sets
  | _, _ => False

end

section Written

variable {arena later : Arena} {standsFor standsLater : TypeVariableId → TypeSet → Prop}
  {term : TypeTerm} {set : TypeSet}

theorem allWritten_iff_forall₂ {arguments : List TypeTerm} :
    AllWritten arena standsFor arguments sets ↔
      List.Forall₂ (Written arena standsFor) arguments sets := by
  induction arguments generalizing sets with
  | nil => cases sets <;> simp [AllWritten]
  | cons first rest ih =>
    cases sets <;> simp [AllWritten, ih]

theorem written_applied {head : Head} {arguments : List TypeTerm} :
    (TypeTerm.applied head arguments homogeneous).Written arena standsFor set ↔
      ∃ id slots, set = .singleton id ∧
        arena.get? id = some (head.value (.resolved ⟨slots, homogeneous⟩)) ∧
          List.Forall₂ (Written arena standsFor) arguments slots := by
  simp only [Written, allWritten_iff_forall₂]

/-- What is in writing stays so, and so it does if other sets stand for the variables. -/
theorem Written.mono (written : term.Written arena standsFor set) (continues : arena ≤ later)
    (still : ∀ variable_ ∈ term.mentions, ∀ set, standsFor variable_ set →
      standsLater variable_ set) :
    term.Written later standsLater set := by
  induction term using TypeTerm.induction generalizing set with
  | typeVariable variable_ => exact still variable_ (by simp [mentions]) set written
  | classObject class_ =>
    obtain ⟨id, rfl, found⟩ := written
    exact ⟨id, rfl, Arena.get?_of_le continues found⟩
  | applied head arguments homogeneous ih =>
    rw [written_applied] at written ⊢
    obtain ⟨id, slots, rfl, found, slotsWritten⟩ := written
    refine ⟨id, slots, rfl, Arena.get?_of_le continues found, ?_⟩
    have both := (List.forall₂_and_left arguments slots).mpr ⟨fun _ member => member, slotsWritten⟩
    refine both.imp fun argument slot holds => ?_
    exact ih argument holds.1 holds.2 fun variable_ mentioned =>
      still variable_ (mem_mentions_of_mem_arguments holds.1 mentioned)

end Written

end TypeTerm

/-! ## Sets that stand for variables -/

/-- A set stands for a variable if it holds the variable itself. -/
def Arena.HoldsVariable (arena : Arena) (variable_ : TypeVariableId) (set : TypeSet) : Prop :=
  ∃ id, set = .singleton id ∧ arena.get? id = some (.typeVariable variable_)

/--
The class-level values that a type variable is bound to when one of their instances is
seen: annotations that describe exactly one function or class, and classes, with type
arguments if there are any.
-/
def Value.IsCanonical (declarations : Declarations) (arena : Arena) : Value → Prop
  | .exactly described => ∃ stored, arena.get? described = some stored ∧
    (stored.isFunction || stored.isClass) = true
  | .classObject class_ => class_ ≠ Builtin.tuple
  | .genericClass class_ generics =>
    generics.isUnparameterized = false ∧ declarations.describesTypedDict class_ = false
  | _ => False

/-- A set of canonical values. -/
def Arena.Canonical (arena : Arena) (declarations : Declarations) (set : TypeSet) : Prop :=
  ∀ id ∈ set, ∃ stored, arena.get? id = some stored ∧ stored.IsCanonical declarations arena

/-- A set stands for a variable if it is the canonical binding of the variable. -/
def Substitution.Gives (substitution : Substitution) (declarations : Declarations) (arena : Arena)
    (variable_ : TypeVariableId) (set : TypeSet) : Prop :=
  substitution.get? variable_ = some set ∧ arena.Canonical declarations set

section Canonical

variable {declarations : Declarations} {arena later : Arena} {set : TypeSet}
  {variable_ : TypeVariableId}

theorem Arena.HoldsVariable.mono (holds : arena.HoldsVariable variable_ set)
    (continues : arena ≤ later) :
    later.HoldsVariable variable_ set := by
  obtain ⟨id, rfl, found⟩ := holds
  exact ⟨id, rfl, Arena.get?_of_le continues found⟩

theorem Arena.Canonical.mono (canonical : arena.Canonical declarations set)
    (continues : arena ≤ later) :
    later.Canonical declarations set := by
  intro id member
  obtain ⟨stored, found, isCanonical⟩ := canonical id member
  refine ⟨stored, Arena.get?_of_le continues found, ?_⟩
  cases stored with
  | exactly described =>
    obtain ⟨what, whatFound, callable⟩ := isCanonical
    exact ⟨what, Arena.get?_of_le continues whatFound, callable⟩
  | _ => exact isCanonical

theorem Substitution.Gives.mono {substitution : Substitution}
    (gives : substitution.Gives declarations arena variable_ set) (continues : arena ≤ later) :
    substitution.Gives declarations later variable_ set :=
  ⟨gives.1, gives.2.mono continues⟩

theorem Arena.Canonical.within (canonical : arena.Canonical declarations set) :
    Within declarations arena.size set := by
  intro id member
  obtain ⟨stored, found, -⟩ := canonical id member
  exact Arena.lt_size_of_get? found

/-- No constant is canonical. -/
theorem Arena.Canonical.not_mem (canonical : arena.Canonical declarations set) {id : ValueId}
    (found : arena.get? id = some stored) (other : ¬stored.IsCanonical declarations arena) :
    id ∉ set := by
  intro member
  obtain ⟨present, presentFound, isCanonical⟩ := canonical id member
  rw [found] at presentFound
  cases presentFound
  exact other isCanonical

end Canonical

namespace TypeTerm

/-- An annotation in writing whose variables are open. -/
def Open (arena : Arena) (term : TypeTerm) (set : TypeSet) : Prop :=
  term.Written arena arena.HoldsVariable set

/-- An annotation in writing whose variables are filled in by canonical bindings. -/
def Filled (declarations : Declarations) (substitution : Substitution) (arena : Arena)
    (term : TypeTerm) (set : TypeSet) : Prop :=
  term.Written arena (substitution.Gives declarations arena) set

variable {declarations : Declarations} {arena later : Arena} {substitution : Substitution}
  {term : TypeTerm} {set : TypeSet}

theorem Open.eq_singleton (isOpen : term.Open arena set) : ∃ id, set = .singleton id := by
  cases term with
  | typeVariable variable_ | classObject class_ => exact isOpen.imp fun _ holds => holds.1
  | applied head arguments homogeneous =>
    obtain ⟨id, slots, same, -⟩ := written_applied.mp isOpen
    exact ⟨id, same⟩

theorem Open.mono (isOpen : term.Open arena set) (continues : arena ≤ later) :
    term.Open later set :=
  Written.mono isOpen continues fun _ _ _ holds => holds.mono continues

theorem Filled.mono (filled : term.Filled declarations substitution arena set)
    (continues : arena ≤ later) :
    term.Filled declarations substitution later set :=
  Written.mono filled continues fun _ _ _ gives => gives.mono continues

theorem Filled.within (filled : term.Filled declarations substitution arena set) :
    Within declarations arena.size set := by
  cases term with
  | typeVariable variable_ => exact filled.2.within
  | classObject class_ =>
    obtain ⟨id, rfl, found⟩ := filled
    exact within_singleton (Arena.lt_size_of_get? found)
  | applied head arguments homogeneous =>
    obtain ⟨id, slots, rfl, found, -⟩ := written_applied.mp filled
    exact within_singleton (Arena.lt_size_of_get? found)

/-- What is in writing is of the class level. -/
theorem Filled.none_not_mem (world : World.WellFormed ⟨arena, declarations⟩)
    (filled : term.Filled declarations substitution arena set) :
    Arena.noneId ∉ set := by
  have noneStored : arena.get? Arena.noneId = some .none := world.noneStored
  cases term with
  | typeVariable variable_ => exact filled.2.not_mem noneStored fun isCanonical => isCanonical
  | classObject class_ =>
    obtain ⟨id, rfl, found⟩ := filled
    rw [TypeSet.mem_singleton]
    rintro rfl
    rw [noneStored] at found
    cases found
  | applied head arguments homogeneous =>
    obtain ⟨id, slots, rfl, found, -⟩ := written_applied.mp filled
    rw [TypeSet.mem_singleton]
    rintro rfl
    rw [noneStored] at found
    cases head <;> cases found

end TypeTerm

end TypeInference
