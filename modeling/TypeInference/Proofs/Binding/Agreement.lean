import TypeInference.Proofs.Binding.Rule
import TypeInference.Proofs.Table

/-!
# What a binder knows of a call

Halfway through a call a binder has bound the parameters before some place and has
taken a part of the call, which is a call in itself.  It agrees with that part: its
tables and its results are what the rule of binding says about the part, and its
problems are the repetitions of the part.
-/

namespace TypeInference

variable {parameter : Parameter} {entry : String × Deferred} {call other : OrderedCall}
  {index count place : Nat} {bound : BoundParameter} {declaration : FunctionDeclaration}
  {initial : Binder} {sawRepetition sawKeyword : Bool} {issues : List Diagnostic}

/-! ## Parts of a call -/

namespace FunctionDeclaration

/-- Whether a parameter of a kind stands before a place. -/
def hasBefore (declaration : FunctionDeclaration) (count : Nat) (kind : ParameterKind) : Bool :=
  (declaration.parameters.take count).any fun parameter => parameter.kind == kind

theorem hasBefore_succ (found : declaration.Lists count parameter) (kind : ParameterKind) :
    declaration.hasBefore (count + 1) kind =
      (declaration.hasBefore count kind || parameter.kind == kind) := by
  simp [hasBefore, List.take_add_one, found]

theorem hasBefore_length (declaration : FunctionDeclaration) (kind : ParameterKind) :
    declaration.hasBefore declaration.parameters.length kind = declaration.has kind := by
  simp [hasBefore, has]

end FunctionDeclaration

namespace OrderedCall

variable {declaration : FunctionDeclaration} {call : OrderedCall}
variable {parameter : Parameter} {index count : Nat}

def withKeyword (call : OrderedCall) (entry : String × Deferred) : OrderedCall :=
  { call with keywords := call.keywords ++ [entry] }

/-- The positions that are left once the positional parameters before a place are filled. -/
def remaining (call : OrderedCall) (declaration : FunctionDeclaration) (count : Nat) :
    List Deferred :=
  if declaration.hasBefore count .starred then []
  else call.positionals.drop declaration.positionalCount

theorem true_eq_not_isEmpty_withKeyword (call : OrderedCall) (entry : String × Deferred) :
    true = !(call.withKeyword entry).keywords.isEmpty := by
  simp [withKeyword]

theorem values_eq_nil_of_collects (collects : parameter.kind.collects = true) :
    call.values parameter index = [] := by
  cases kind : parameter.kind <;> simp_all [values, ParameterKind.collects]

theorem single_of_values (given : call.values parameter index ≠ []) :
    parameter.kind.collects = false := by
  cases collects : parameter.kind.collects with
  | false => rfl
  | true => exact absurd (values_eq_nil_of_collects collects) given

theorem values_withKeyword_self (same : entry.1 = parameter.name)
    (single : parameter.kind.collects = false) :
    (call.withKeyword entry).values parameter index = call.values parameter index ++ [entry.2] := by
  cases kind : parameter.kind <;>
    simp_all [values, withKeyword, namedValues, ParameterKind.collects]

theorem values_withKeyword_of_ne (different : entry.1 ≠ parameter.name) :
    (call.withKeyword entry).values parameter index = call.values parameter index := by
  cases kind : parameter.kind <;> simp [values, withKeyword, namedValues, kind, different]

theorem unmatched_withKeyword (call : OrderedCall) (entry : String × Deferred) :
    (call.withKeyword entry).unmatched declaration =
      if declaration.parameter? entry.1 = none then call.unmatched declaration ++ [entry]
      else call.unmatched declaration := by
  cases looked : declaration.parameter? entry.1 <;> simp [unmatched, withKeyword, looked]

/-- Every parameter before a place is starred or is supplied a value. -/
def Fills (call : OrderedCall) (declaration : FunctionDeclaration) (count : Nat) : Prop :=
  ∀ (index : Nat) (parameter : Parameter), declaration.parameters[index]? = some parameter →
    index < count → parameter.kind = .starred ∨ call.values parameter index ≠ []

theorem Fills.withKeyword (fills : call.Fills declaration count) (entry : String × Deferred) :
    (call.withKeyword entry).Fills declaration count := by
  intro index parameter found before
  rcases fills index parameter found before with starred | supplied
  · exact .inl starred
  · refine .inr ?_
    by_cases same : entry.1 = parameter.name
    · rw [values_withKeyword_self same (single_of_values supplied)]
      simp
    · rwa [values_withKeyword_of_ne same]

/-- Positions supply the positional parameters. -/
theorem fills_of_le_positionals (ordered : declaration.IsOrdered)
    (positional : count ≤ declaration.positionalCount)
    (supplied : count ≤ call.positionals.length) :
    call.Fills declaration count := by
  intro index parameter found before
  refine .inr ?_
  have kind := (ordered.kind_eq_positional_iff found).mpr (Nat.lt_of_lt_of_le before positional)
  have value := List.getElem?_eq_getElem (Nat.lt_of_lt_of_le before supplied)
  simp [values, kind, value]

theorem Fills.succ_of_starred (fills : call.Fills declaration count)
    (found : declaration.Lists count parameter) (starred : parameter.kind = .starred) :
    call.Fills declaration (count + 1) := by
  intro index other otherFound before
  rcases Nat.lt_succ_iff_lt_or_eq.mp before with before | rfl
  · exact fills index other otherFound before
  · rw [found] at otherFound
    cases otherFound
    exact .inl starred

theorem Fills.hasBefore (fills : call.Fills declaration count) :
    declaration.hasBefore count .doubleStarred = false := by
  unfold FunctionDeclaration.hasBefore
  rw [List.any_eq_false]
  intro parameter member
  obtain ⟨index, within, rfl⟩ := List.mem_take_iff_getElem.mp member
  have before : index < count := by omega
  rcases fills index _ (List.getElem?_eq_getElem (by omega)) before with starred | supplied
  · simp [starred]
  · simpa using ParameterKind.ne_of_collects (single_of_values supplied) rfl

/-- The number of required parameters before a place that a call supplies nothing for. -/
def shortBy (call : OrderedCall) (declaration : FunctionDeclaration) (count : Nat) : Nat :=
  (declaration.parameters.zipIdx.take count).countP call.lacks

theorem shortBy_succ (found : declaration.Lists count parameter) :
    call.shortBy declaration (count + 1) =
      call.shortBy declaration count + if call.lacks (parameter, count) then 1 else 0 := by
  simp [shortBy, List.take_add_one, List.getElem?_zipIdx, found, List.countP_append,
    List.countP_singleton]

theorem shortBy_length (call : OrderedCall) (declaration : FunctionDeclaration) :
    call.shortBy declaration declaration.parameters.length =
      declaration.parameters.zipIdx.countP call.lacks := by
  rw [shortBy, List.take_of_length_le (by simp)]

theorem Fills.shortBy (fills : call.Fills declaration count) :
    call.shortBy declaration count = 0 := by
  unfold OrderedCall.shortBy
  rw [List.countP_eq_zero]
  intro entry member
  obtain ⟨index, within, rfl⟩ := List.mem_take_iff_getElem.mp member
  have before : index < count := by omega
  rw [List.getElem_zipIdx]
  rw [List.length_zipIdx] at within
  have supplied := fills index _ (List.getElem?_eq_getElem (by omega)) before
  simp only [lacks, Parameter.isRequired, Nat.zero_add, Bool.and_eq_true, List.isEmpty_iff]
  rintro ⟨⟨single, -⟩, nothing⟩
  rcases supplied with starred | supplied
  · exact ParameterKind.ne_of_collects (by simpa using single) rfl starred
  · exact supplied nothing

/-- A call supplies one parameter one value more than another call, and nothing else. -/
structure Gives (other call : OrderedCall) (declaration : FunctionDeclaration) (place : Nat)
    (target : Parameter) (value : Deferred) : Prop where
  declared : declaration.parameters[place]? = some target
  single : target.kind.collects = false
  grown : other.values target place = call.values target place ++ [value]
  same : ∀ {index : Nat} {parameter : Parameter},
    declaration.parameters[index]? = some parameter → index ≠ place →
    other.values parameter index = call.values parameter index
  positionals : other.positionals.drop declaration.positionalCount =
    call.positionals.drop declaration.positionalCount
  unmatched : other.unmatched declaration = call.unmatched declaration

section

variable {other : OrderedCall} {place : Nat} {target : Parameter} {value : Deferred}
variable {repeated : List String}

section

variable (repeats : call.Repeats declaration repeated)

include repeats

theorem Repeats.congr (same : ∀ {index : Nat} {parameter : Parameter},
      declaration.parameters[index]? = some parameter →
      other.values parameter index = call.values parameter index) :
    other.Repeats declaration repeated := by
  refine ⟨fun index parameter found single => ?_, repeats.names⟩
  rw [same found]
  exact repeats.counts index parameter found single

/-- A first value is no repetition. -/
theorem Repeats.first (gives : other.Gives call declaration place target value)
    (nothing : call.values target place = []) :
    other.Repeats declaration repeated := by
  refine ⟨fun index parameter found single => ?_, repeats.names⟩
  rw [repeats.counts index parameter found single]
  by_cases here : index = place
  · subst here
    rw [gives.declared] at found
    cases found
    rw [gives.grown, nothing]
    rfl
  · rw [gives.same found here]

/-- A further value is a repetition. -/
theorem Repeats.again (ordered : declaration.IsOrdered)
    (gives : other.Gives call declaration place target value)
    (given : call.values target place ≠ []) :
    other.Repeats declaration (repeated ++ [target.name]) := by
  constructor
  · intro index parameter found single
    rw [List.count_append, repeats.counts index parameter found single]
    by_cases here : index = place
    · subst here
      rw [gives.declared] at found
      cases found
      have positive := List.length_pos_iff.mpr given
      rw [gives.grown, List.length_append, List.count_singleton_self, List.length_singleton]
      omega
    · have different : target.name ≠ parameter.name := fun same =>
        here (ordered.eq_of_name found gives.declared same.symm)
      rw [gives.same found here]
      simp [different]
  · intro name member
    rcases List.mem_append.mp member with earlier | last
    · exact repeats.names name earlier
    · exact ⟨place, target, gives.declared, gives.single, (List.mem_singleton.mp last).symm⟩

end

end

end OrderedCall

/-! ## Agreement -/

theorem BoundParameter.Follows.congr
    (follows : bound.Follows declaration call entries parameter index)
    (values : other.values parameter index = call.values parameter index)
    (positionals : parameter.kind = .starred →
      other.positionals.drop declaration.positionalCount =
        call.positionals.drop declaration.positionalCount)
    (keywords : parameter.kind = .doubleStarred → otherEntries = entries) :
    bound.Follows declaration other otherEntries parameter index := by
  unfold Follows at follows ⊢
  cases kind : parameter.kind <;> simp_all

/-- The entries of a double-starred parameter: each keyword once, with its last value. -/
def OrderedCall.collected (call : OrderedCall) (declaration : FunctionDeclaration) :
    List (String × Deferred) :=
  (Table.ofEntries (call.unmatched declaration)).entries

namespace Binder

/--
The problems of a part of a call: its repetitions and, if there are no keywords, the
required parameters before a place that are given nothing.
-/
def Notes (initial : Binder) (call : OrderedCall) (count : Nat) (sawRepetition : Bool)
    (issues : List Diagnostic) : Prop :=
  ∃ repeated,
    call.Repeats initial.declaration repeated ∧ sawRepetition = !repeated.isEmpty ∧
      issues =
        repeated.map (fun name => .repetition initial.declaration name initial.callSite) ++
          if call.keywords = [] then
            List.replicate (call.shortBy initial.declaration count)
              (.tooFew initial.declaration initial.given initial.callSite)
          else []

/-- As long as every parameter is supplied, the problems are repetitions. -/
theorem Notes.of_fills (notes : Notes initial call count sawRepetition issues)
    (fills : call.Fills initial.declaration count) :
    ∃ repeated,
      call.Repeats initial.declaration repeated ∧ sawRepetition = !repeated.isEmpty ∧
        issues =
          repeated.map fun name => .repetition initial.declaration name initial.callSite := by
  obtain ⟨repeated, repeats, saw, listed⟩ := notes
  refine ⟨repeated, repeats, saw, ?_⟩
  rw [listed, fills.shortBy]
  simp

/-- Once a keyword is met, the problems are repetitions. -/
theorem notes_withKeyword (repeats : (call.withKeyword entry).Repeats initial.declaration repeated)
    (count : Nat) :
    Notes initial (call.withKeyword entry) count (!repeated.isEmpty)
      (repeated.map fun name => .repetition initial.declaration name initial.callSite) := by
  refine ⟨repeated, repeats, rfl, ?_⟩
  simp [OrderedCall.withKeyword]

/--
A binder has bound the parameters before a place and has taken a part of a call.  The
keywords that name no parameter are given away with the double-starred parameter.
-/
structure Agrees (binder initial : Binder) (call : OrderedCall) (count : Nat) : Prop where
  function : binder.function = initial.function
  declaration : binder.declaration = initial.declaration
  callSite : binder.callSite = initial.callSite
  given : binder.given = initial.given
  length : binder.result.length = count
  within : count ≤ initial.declaration.parameters.length
  absent : ∀ {index : Nat} {parameter : Parameter},
    initial.declaration.parameters[index]? = some parameter →
    call.values parameter index = [] → (parameter.kind.collects = true → count ≤ index) →
    binder.used.get? parameter.name = none
  present : ∀ {index : Nat} {parameter : Parameter},
    initial.declaration.parameters[index]? = some parameter →
    call.values parameter index ≠ [] →
    ∃ bound, binder.used.get? parameter.name = some bound ∧
      bound.IsFor initial.function parameter index ∧
      bound.IsSupplied (call.values parameter index)
  kept : ∀ {index : Nat} {parameter : Parameter},
    initial.declaration.parameters[index]? = some parameter → index < count →
    call.values parameter index ≠ [] →
    binder.result[index]? = binder.used.get? parameter.name
  filled : ∀ {index : Nat} {parameter : Parameter},
    initial.declaration.parameters[index]? = some parameter → index < count →
    call.values parameter index = [] →
    ∃ bound, binder.result[index]? = some bound ∧
      bound.IsFor initial.function parameter index ∧
      bound.Follows initial.declaration call (call.collected initial.declaration) parameter index
  unmatched : binder.unmatched =
    if initial.declaration.hasBefore count .doubleStarred then ∅
    else Table.ofEntries (call.unmatched initial.declaration)
  sawKeyword : binder.sawKeyword = !call.keywords.isEmpty
  notes : Notes initial call count binder.sawRepetition binder.issues

namespace Agrees

variable {binder initial : Binder} {call : OrderedCall} {count : Nat}

section

variable (agrees : binder.Agrees initial call count)

include agrees

theorem withStream (stream : List Supplied) :
    Agrees { binder with stream := stream } initial call count :=
  { agrees with }

/-- The parameters that are bound stand at their own places. -/
theorem index_of_getElem? (found : binder.result[place]? = some bound) : bound.index = place := by
  have before : place < count := by
    rw [← agrees.length]
    exact (List.getElem?_eq_some_iff.mp found).1
  obtain ⟨parameter, declared⟩ : ∃ parameter,
      initial.declaration.parameters[place]? = some parameter :=
    ⟨_, List.getElem?_eq_getElem (Nat.lt_of_lt_of_le before agrees.within)⟩
  by_cases nothing : call.values parameter place = []
  · obtain ⟨other, otherFound, isFor, -⟩ := agrees.filled declared before nothing
    rw [found] at otherFound
    cases otherFound
    exact isFor.index
  · obtain ⟨other, otherFound, isFor, -⟩ := agrees.present declared nothing
    rw [← agrees.kept declared before nothing, found] at otherFound
    cases otherFound
    exact isFor.index

theorem values_of_unused (found : initial.declaration.Lists index parameter)
    (unused : binder.used.get? parameter.name = none) :
    call.values parameter index = [] := by
  by_contra given
  obtain ⟨bound, used, -⟩ := agrees.present found given
  rw [unused] at used
  cases used

theorem values_of_used (found : initial.declaration.Lists index parameter)
    (ahead : parameter.kind.collects = true → count ≤ index)
    (used : binder.used.get? parameter.name = some bound) :
    call.values parameter index ≠ [] := by
  intro nothing
  have unused := agrees.absent found nothing ahead
  rw [used] at unused
  cases unused

end

/-! ## Steps -/

/-- A part of a call that supplies the same values may differ in what is left over. -/
theorem transfer (agrees : binder.Agrees initial call count)
    (same : ∀ {index : Nat} {parameter : Parameter},
      initial.declaration.parameters[index]? = some parameter →
      other.values parameter index = call.values parameter index)
    (follows : ∀ {index : Nat} {parameter : Parameter} {bound : BoundParameter},
      initial.declaration.parameters[index]? = some parameter → index < count →
      call.values parameter index = [] →
      bound.Follows initial.declaration call (call.collected initial.declaration) parameter index →
      bound.Follows initial.declaration other (other.collected initial.declaration) parameter index)
    {unmatched : Table String Deferred} (left : unmatched =
      if initial.declaration.hasBefore count .doubleStarred then ∅
      else Table.ofEntries (other.unmatched initial.declaration))
    (saw : sawKeyword = !other.keywords.isEmpty)
    (noted : Notes initial other count binder.sawRepetition binder.issues) :
    Agrees { binder with unmatched, sawKeyword } initial other count := by
  refine
    { agrees with
      absent := ?absent
      present := ?present
      kept := ?kept
      filled := ?filled
      unmatched := left
      sawKeyword := saw
      notes := noted }
  case absent =>
    intro index parameter found nothing
    rw [same found] at nothing
    exact agrees.absent found nothing
  case present =>
    intro index parameter found given
    rw [same found] at given ⊢
    exact agrees.present found given
  case kept =>
    intro index parameter found before given
    rw [same found] at given
    exact agrees.kept found before given
  case filled =>
    intro index parameter found before nothing
    rw [same found] at nothing
    obtain ⟨bound, placed, isFor, boundFollows⟩ := agrees.filled found before nothing
    exact ⟨bound, placed, isFor, follows found before nothing boundFollows⟩

/--
One more value of a parameter stands in the table and, if the parameter is bound
already, at its place among the results.
-/
theorem give (agrees : binder.Agrees initial call count) (ordered : initial.declaration.IsOrdered)
    {value : Deferred} (gives : other.Gives call initial.declaration place target value)
    {renewed : BoundParameter} (isFor : renewed.IsFor initial.function target place)
    (supplied : renewed.IsSupplied (call.values target place ++ [value]))
    {result : List BoundParameter} (length : result.length = count)
    (others : ∀ index, index ≠ place → result[index]? = binder.result[index]?)
    (placed : place < count → result[place]? = some renewed)
    (saw : sawKeyword = !other.keywords.isEmpty)
    (noted : Notes initial other count sawRepetition issues) (nextCell : Nat) :
    Agrees
      { binder with
        sawKeyword
        used := binder.used.insert target.name renewed
        result
        sawRepetition
        issues
        nextCell }
      initial other count := by
  have targetUsed := Table.get?_insert_self binder.used target.name renewed
  -- A parameter is the target, or has the values and the entry that it had before.
  have split : ∀ {index : Nat} {parameter : Parameter},
      initial.declaration.parameters[index]? = some parameter →
      (index = place ∧ parameter = target) ∨
        (index ≠ place ∧ other.values parameter index = call.values parameter index ∧
          (binder.used.insert target.name renewed).get? parameter.name =
            binder.used.get? parameter.name) := by
    intro index parameter found
    by_cases here : index = place
    · subst here
      rw [gives.declared] at found
      cases found
      exact .inl ⟨rfl, rfl⟩
    · have different : parameter.name ≠ target.name := fun same =>
        here (ordered.eq_of_name found gives.declared same)
      exact .inr ⟨here, gives.same found here, Table.get?_insert_of_ne _ different _⟩
  refine
    { agrees with
      length
      absent := ?absent
      present := ?present
      kept := ?kept
      filled := ?filled
      unmatched := ?unmatched
      sawKeyword := saw
      notes := noted }
  case absent =>
    intro index parameter found nothing ahead
    rcases split found with ⟨rfl, rfl⟩ | ⟨-, same, usedSame⟩
    · simp [gives.grown] at nothing
    · rw [same] at nothing
      exact usedSame.trans (agrees.absent found nothing ahead)
  case present =>
    intro index parameter found given
    rcases split found with ⟨rfl, rfl⟩ | ⟨-, same, usedSame⟩
    · rw [gives.grown]
      exact ⟨renewed, targetUsed, isFor, supplied⟩
    · rw [same] at given ⊢
      obtain ⟨bound, used, rest⟩ := agrees.present found given
      exact ⟨bound, usedSame.trans used, rest⟩
  case kept =>
    intro index parameter found before given
    rcases split found with ⟨rfl, rfl⟩ | ⟨different, same, usedSame⟩
    · exact (placed before).trans targetUsed.symm
    · rw [same] at given
      exact (others index different).trans ((agrees.kept found before given).trans usedSame.symm)
  case filled =>
    intro index parameter found before nothing
    rcases split found with ⟨rfl, rfl⟩ | ⟨different, same, -⟩
    · simp [gives.grown] at nothing
    · rw [same] at nothing
      obtain ⟨bound, kept, boundFor, follows⟩ := agrees.filled found before nothing
      refine ⟨bound, (others index different).trans kept, boundFor,
        follows.congr same (fun _ => gives.positionals) fun _ => ?_⟩
      rw [OrderedCall.collected, gives.unmatched, OrderedCall.collected]
  case unmatched =>
    rw [gives.unmatched]
    exact agrees.unmatched

end Agrees

end Binder

end TypeInference
