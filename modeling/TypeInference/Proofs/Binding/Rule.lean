import Mathlib.Data.List.Nodup
import TypeInference.Call.Binder

/-!
# The rule of binding

How a call gives values to the parameters of a function, said without a binder.  The
call supplies positional values and then keywords; the parameters stand in their
usual order.  A parameter holds the merge of all the values it is supplied, the
position first, or else its default.  What is left over goes to the parameters that
collect, and what no parameter collects is a problem of the call.
-/

namespace TypeInference

variable {other : Nat} {otherParameter : Parameter}

/-! ## Signatures -/

/-- Whether a parameter of one kind may stand before a parameter of another kind. -/
def ParameterKind.mayPrecede : ParameterKind → ParameterKind → Bool
  | .positional, _ => true
  | .starred, .keywordOnly | .starred, .doubleStarred => true
  | .keywordOnly, .keywordOnly | .keywordOnly, .doubleStarred => true
  | _, _ => false

theorem ParameterKind.ne_of_collects {kind other : ParameterKind} (single : kind.collects = false)
    (collects : other.collects = true) :
    kind ≠ other := by
  rintro rfl
  rw [single] at collects
  cases collects

namespace FunctionDeclaration

/--
Parameters of different names in the usual order: positional ones, at most one that
is starred, keyword-only ones, and at most one that is double-starred.
-/
structure IsOrdered (declaration : FunctionDeclaration) : Prop where
  distinct : (declaration.parameters.map Parameter.name).Nodup
  kinds : declaration.parameters.Pairwise fun earlier later =>
    earlier.kind.mayPrecede later.kind = true

instance (declaration : FunctionDeclaration) : Decidable declaration.IsOrdered :=
  decidable_of_iff
    ((declaration.parameters.map Parameter.name).Nodup ∧
      declaration.parameters.Pairwise fun earlier later =>
        earlier.kind.mayPrecede later.kind = true)
    ⟨fun holds => ⟨holds.1, holds.2⟩, fun ordered => ⟨ordered.distinct, ordered.kinds⟩⟩

def positionalCount (declaration : FunctionDeclaration) : Nat :=
  declaration.parameters.countP fun parameter => parameter.kind == .positional

def has (declaration : FunctionDeclaration) (kind : ParameterKind) : Bool :=
  declaration.parameters.any fun parameter => parameter.kind == kind

/-- The parameter at an index. -/
abbrev Lists (declaration : FunctionDeclaration) (index : Nat) (parameter : Parameter) : Prop :=
  declaration.parameters[index]? = some parameter

variable {declaration : FunctionDeclaration} {index : Nat} {parameter : Parameter}

theorem IsOrdered.kind_eq_positional_iff (ordered : declaration.IsOrdered)
    (found : declaration.parameters[index]? = some parameter) :
    parameter.kind = .positional ↔ index < declaration.positionalCount := by
  have kinds := ordered.kinds
  unfold positionalCount
  generalize declaration.parameters = parameters at found kinds
  induction parameters generalizing index with
  | nil => simp at found
  | cons first rest ih =>
    obtain ⟨firstPrecedes, restKinds⟩ := List.pairwise_cons.mp kinds
    by_cases isPositional : first.kind = .positional
    · cases index with
      | zero =>
        cases found
        simp [isPositional]
      | succ index =>
        rw [List.countP_cons_of_pos (by simp [isPositional]), Nat.add_lt_add_iff_right]
        exact ih found restKinds
    · -- Nothing positional stands behind a parameter of another kind.
      have none : ∀ later ∈ rest, later.kind ≠ .positional := by
        intro later member same
        have precedes := firstPrecedes later member
        rw [same] at precedes
        cases kind : first.kind <;> simp_all [ParameterKind.mayPrecede]
      have count : (first :: rest).countP (fun parameter => parameter.kind == .positional) = 0 := by
        rw [List.countP_eq_zero]
        intro later member
        rcases List.mem_cons.mp member with rfl | inRest
        · simpa using isPositional
        · simpa using none later inRest
      have differs : parameter.kind ≠ .positional := by
        rcases List.mem_cons.mp (List.mem_of_getElem? found) with rfl | inRest
        · exact isPositional
        · exact none parameter inRest
      simp [count, differs]

/-- A starred parameter stands right behind the positional ones. -/
theorem IsOrdered.index_of_starred (ordered : declaration.IsOrdered)
    (found : declaration.Lists index parameter) (starred : parameter.kind = .starred) :
    index = declaration.positionalCount := by
  have notBefore : ¬index < declaration.positionalCount := by
    rw [← ordered.kind_eq_positional_iff found, starred]
    simp
  by_contra different
  obtain ⟨within, rfl⟩ := List.getElem?_eq_some_iff.mp found
  have earlierWithin : declaration.positionalCount < declaration.parameters.length := by omega
  have precedes := List.pairwise_iff_getElem.mp ordered.kinds _ index earlierWithin within
    (by omega)
  have earlier := ordered.kind_eq_positional_iff (List.getElem?_eq_getElem earlierWithin)
  rw [starred] at precedes
  cases kind : (declaration.parameters[declaration.positionalCount]).kind <;>
    simp_all [ParameterKind.mayPrecede]

/-- Parameters of one name are one parameter. -/
theorem index_eq_of_name (distinct : (declaration.parameters.map Parameter.name).Nodup)
    (found : declaration.Lists index parameter)
    (otherFound : declaration.Lists other otherParameter)
    (same : parameter.name = otherParameter.name) :
    index = other := by
  have within : index < (declaration.parameters.map Parameter.name).length := by
    rw [List.length_map]
    exact (List.getElem?_eq_some_iff.mp found).1
  refine (List.getElem?_inj within distinct).mp ?_
  rw [List.getElem?_map, List.getElem?_map, found, otherFound]
  simp [same]

theorem IsOrdered.eq_of_name (ordered : declaration.IsOrdered)
    (found : declaration.Lists index parameter)
    (otherFound : declaration.Lists other otherParameter)
    (same : parameter.name = otherParameter.name) :
    index = other :=
  index_eq_of_name ordered.distinct found otherFound same

theorem parameter?_eq_none_iff (declaration : FunctionDeclaration) (name : String) :
    declaration.parameter? name = none ↔
      ∀ (index : Nat) (parameter : Parameter), declaration.parameters[index]? = some parameter →
        parameter.name ≠ name := by
  unfold parameter?
  rw [List.find?_eq_none]
  constructor
  · intro absent index parameter found
    have member := List.mk_mem_zipIdx_iff_getElem?.mpr found
    simpa using absent (parameter, index) member
  · intro absent entry member
    have found := List.mem_zipIdx_iff_getElem?.mp member
    simpa using absent entry.2 entry.1 found

theorem getElem?_of_parameter? {name : String}
    (looked : declaration.parameter? name = some (parameter, index)) :
    declaration.parameters[index]? = some parameter ∧ parameter.name = name := by
  refine ⟨List.mk_mem_zipIdx_iff_getElem?.mp (List.mem_of_find?_eq_some looked), ?_⟩
  simpa using List.find?_some looked

/-- A name leads to the parameter of that name. -/
theorem IsOrdered.parameter?_of_name (ordered : declaration.IsOrdered)
    (found : declaration.Lists index parameter) :
    declaration.parameter? parameter.name = some (parameter, index) := by
  cases looked : declaration.parameter? parameter.name with
  | none =>
    exact absurd rfl ((parameter?_eq_none_iff declaration parameter.name).mp looked index
      parameter found)
  | some entry =>
    obtain ⟨other, otherIndex⟩ := entry
    obtain ⟨otherFound, same⟩ := getElem?_of_parameter? looked
    have sameIndex := ordered.eq_of_name otherFound found same
    subst sameIndex
    rw [found] at otherFound
    cases otherFound
    rfl

end FunctionDeclaration

/-! ## Calls -/

/-- A call that supplies positional values and then keywords. -/
structure OrderedCall where
  positionals : List Deferred
  keywords : List (String × Deferred)

def Supplied.ofPositionals (values : List Deferred) : List Supplied :=
  values.map (Supplied.mk none)

def Supplied.ofKeywords (entries : List (String × Deferred)) : List Supplied :=
  entries.map fun entry => ⟨some entry.1, entry.2⟩

/-- The values that keywords of a name have, in their order. -/
def namedValues (name : String) (keywords : List (String × Deferred)) : List Deferred :=
  (keywords.filter fun entry => entry.1 == name).map Prod.snd

namespace OrderedCall

def stream (call : OrderedCall) : List Supplied :=
  Supplied.ofPositionals call.positionals ++ Supplied.ofKeywords call.keywords

/-- The values that a call supplies a parameter, the one of its position first. -/
def values (call : OrderedCall) (parameter : Parameter) (index : Nat) : List Deferred :=
  match parameter.kind with
  | .positional => call.positionals[index]?.toList ++ namedValues parameter.name call.keywords
  | .keywordOnly => namedValues parameter.name call.keywords
  | .starred | .doubleStarred => []

def size (call : OrderedCall) : Nat :=
  call.positionals.length + call.keywords.length

/-- The keywords that name no parameter. -/
def unmatched (call : OrderedCall) (declaration : FunctionDeclaration) :
    List (String × Deferred) :=
  call.keywords.filter fun entry => (declaration.parameter? entry.1).isNone

/-- No keyword names a parameter that collects. -/
def NamesNoCollector (call : OrderedCall) (declaration : FunctionDeclaration) : Prop :=
  ∀ entry ∈ call.keywords, ∀ parameter ∈ declaration.parameters,
    parameter.name = entry.1 → parameter.kind.collects = false

instance (call : OrderedCall) (declaration : FunctionDeclaration) :
    Decidable (call.NamesNoCollector declaration) :=
  inferInstanceAs (Decidable (∀ _ ∈ _, ∀ _ ∈ _, _))

end OrderedCall

/-! ## Bound parameters -/

/-- A value that merges values one by one, each with all those before it. -/
inductive Deferred.Merges : Deferred → List Deferred → Prop where
  | one (value : Deferred) : Merges value [value]
  | more
      {value : Deferred}
      {values : List Deferred}
      (merges : Merges value values)
      (cell : CellId)
      (next : Deferred) :
      Merges (.merged cell [value, next]) (values ++ [next])

namespace BoundParameter

/-- A parameter of a function, with some value. -/
structure IsFor (function : FunctionId) (parameter : Parameter) (index : Nat)
    (bound : BoundParameter) : Prop where
  function : bound.function = function
  index : bound.index = index
  name : bound.name = parameter.name
  kind : bound.kind = parameter.kind

/-- A parameter that is supplied nothing has its default, or is unknown. -/
def IsMissing (parameter : Parameter) (bound : BoundParameter) : Prop :=
  match parameter.default with
  | some node => bound.isDefault = true ∧ ∃ cell, bound.value = .node cell node
  | none => bound.isDefault = false ∧ ∃ cell, bound.value = .unknown cell

/-- A parameter that is supplied values merges them. -/
def IsSupplied (values : List Deferred) (bound : BoundParameter) : Prop :=
  bound.isDefault = false ∧ bound.value.Merges values

/-- A parameter that collects holds what is left over. -/
def Collects (isPacked : CellId → Deferred) (bound : BoundParameter) : Prop :=
  bound.isDefault = false ∧ ∃ cell, bound.value = isPacked cell

/--
What the rule of binding says about the value of a parameter, where some entries are
the keywords that are left over.
-/
def Follows (declaration : FunctionDeclaration) (call : OrderedCall)
    (entries : List (String × Deferred)) (parameter : Parameter) (index : Nat)
    (bound : BoundParameter) : Prop :=
  match parameter.kind with
  | .starred =>
    bound.Collects (.packedTuple · (call.positionals.drop declaration.positionalCount))
  | .doubleStarred => bound.Collects (.packedDict · entries)
  | .positional | .keywordOnly =>
    if call.values parameter index = [] then bound.IsMissing parameter
    else bound.IsSupplied (call.values parameter index)

end BoundParameter

/-! ## Problems -/

namespace OrderedCall

/--
The names of parameters that are supplied again: a parameter that does not collect
stands there once for each of its values but the first.
-/
structure Repeats (call : OrderedCall) (declaration : FunctionDeclaration)
    (repeated : List String) : Prop where
  counts : ∀ (index : Nat) (parameter : Parameter),
    declaration.parameters[index]? = some parameter → parameter.kind.collects = false →
    repeated.count parameter.name = (call.values parameter index).length - 1
  names : ∀ name ∈ repeated, ∃ (index : Nat) (parameter : Parameter),
    declaration.parameters[index]? = some parameter ∧ parameter.kind.collects = false ∧
      parameter.name = name

/-- Whether a call supplies nothing for a required parameter. -/
def lacks (call : OrderedCall) (entry : Parameter × Nat) : Bool :=
  entry.1.isRequired && (call.values entry.1 entry.2).isEmpty

/--
The problems of keywords that name no parameter, one for each such keyword, found at
its last value; a double-starred parameter takes them all.
-/
def unexpectedKeywords (call : OrderedCall) (declaration : FunctionDeclaration)
    (callSite : Option NodeId) : List Diagnostic :=
  if declaration.has .doubleStarred then []
  else ((call.unmatched declaration).map Prod.fst).eraseDups.map fun keyword =>
    .unexpected declaration keyword
      (((namedValues keyword call.keywords).getLast?.bind Deferred.node?).or callSite)

/-- The problem of a positional value that is left over; a starred parameter takes it. -/
def surplus (call : OrderedCall) (declaration : FunctionDeclaration)
    (callSite : Option NodeId) : List Diagnostic :=
  if declaration.has .starred then []
  else call.positionals[declaration.positionalCount]?.toList.map fun first =>
    .tooMany declaration call.size (first.node?.or callSite)

/--
The problems of required parameters that are given nothing.  They are not mentioned
if keywords were given and something else is wrong with them.
-/
def shortage (call : OrderedCall) (declaration : FunctionDeclaration) (callSite : Option NodeId)
    (repeated : List String) : List Diagnostic :=
  if call.keywords = [] ∨
      repeated = [] ∧ call.unexpectedKeywords declaration callSite = [] then
    List.replicate (declaration.parameters.zipIdx.countP call.lacks)
      (.tooFew declaration call.size callSite)
  else []

/-- All problems of a call in which some parameters are supplied again. -/
def problems (call : OrderedCall) (declaration : FunctionDeclaration) (callSite : Option NodeId)
    (repeated : List String) : List Diagnostic :=
  repeated.map (fun name => .repetition declaration name callSite) ++
    call.shortage declaration callSite repeated ++
    call.unexpectedKeywords declaration callSite ++
    call.surplus declaration callSite

/-- A call that gives every parameter what it needs, and nothing that no parameter takes. -/
structure Fits (call : OrderedCall) (declaration : FunctionDeclaration) : Prop where
  once : ∀ (index : Nat) (parameter : Parameter),
    declaration.parameters[index]? = some parameter →
    (call.values parameter index).length ≤ 1
  supplied : ∀ (index : Nat) (parameter : Parameter),
    declaration.parameters[index]? = some parameter → parameter.isRequired = true →
    call.values parameter index ≠ []
  keywords : declaration.has .doubleStarred = true ∨ call.unmatched declaration = []
  positionals : declaration.has .starred = true ∨
    call.positionals.length ≤ declaration.positionalCount

end OrderedCall

end TypeInference
