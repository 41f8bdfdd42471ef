import TypeInference.Proofs.Binding.Keyword

/-!
# Binding parameters

Each way to bind the next parameter moves the agreement of a binder with its part of
the call by one place: a position fills it, a keyword has filled it before, it
collects what is left, or it is given nothing.
-/

namespace TypeInference

variable {declaration : FunctionDeclaration} {values : List Deferred} {issues : List Diagnostic}
  {bound : BoundParameter} {unmatched : Table String Deferred}

/-- Nothing stands behind a double-starred parameter. -/
theorem FunctionDeclaration.IsOrdered.hasBefore_doubleStarred (ordered : declaration.IsOrdered)
    (found : declaration.Lists count parameter) :
    declaration.hasBefore count .doubleStarred = false := by
  unfold FunctionDeclaration.hasBefore
  rw [List.any_eq_false]
  intro earlier member kind
  obtain ⟨index, within, rfl⟩ := List.mem_take_iff_getElem.mp member
  obtain ⟨countWithin, rfl⟩ := List.getElem?_eq_some_iff.mp found
  have precedes := List.pairwise_iff_getElem.mp ordered.kinds index count (by omega) countWithin
    (by omega)
  rw [eq_of_beq kind] at precedes
  cases precedes

/-! ## Positions -/

theorem OrderedCall.gives_position (ordered : declaration.IsOrdered)
    (declared : declaration.Lists values.length target)
    (positional : target.kind = .positional) (value : Deferred) :
    (OrderedCall.mk (values ++ [value]) []).Gives ⟨values, []⟩ declaration values.length target
      value where
  declared := declared
  single := by
    rw [positional]
    rfl
  grown := by simp [OrderedCall.values, positional, namedValues]
  same := by
    intro index parameter found different
    have lookup : (values ++ [value])[index]? = values[index]? := by
      rcases Nat.lt_or_gt_of_ne different with before | behind
      · exact List.getElem?_append_left before
      · rw [List.getElem?_eq_none (Nat.le_of_lt behind),
          List.getElem?_eq_none (by simpa using Nat.succ_le_of_lt behind)]
    simp only [OrderedCall.values, lookup]
  positionals := by
    have within := (ordered.kind_eq_positional_iff declared).mp positional
    have all : (values ++ [value]).length ≤ declaration.positionalCount := by
      simpa using Nat.succ_le_of_lt within
    simp only [List.drop_eq_nil_of_le all, List.drop_eq_nil_of_le (Nat.le_of_lt within)]
  unmatched := rfl

namespace Binder

variable {binder initial : Binder} {call : OrderedCall} {count : Nat} {parameter : Parameter}

/-- A required parameter that is given nothing is noted, unless there are keywords. -/
theorem Notes.succ {sawRepetition : Bool} (notes : Notes initial call count sawRepetition issues)
    (found : initial.declaration.Lists count parameter) :
    Notes initial call (count + 1) sawRepetition
      (issues ++
        if call.keywords = [] ∧ call.lacks (parameter, count) = true then
          [.tooFew initial.declaration initial.given initial.callSite]
        else []) := by
  obtain ⟨repeated, repeats, saw, listed⟩ := notes
  refine ⟨repeated, repeats, saw, ?_⟩
  rw [listed, OrderedCall.shortBy_succ found, List.append_assoc]
  congr 1
  by_cases keywords : call.keywords = []
  · by_cases lacks : call.lacks (parameter, count) = true <;>
      simp [keywords, lacks, List.replicate_succ']
  · simp [keywords]

/-! ## Streams -/

theorem takeWhile_ofPositionals (values : List Deferred) (entries : List (String × Deferred)) :
    (Supplied.ofPositionals values ++ Supplied.ofKeywords entries).takeWhile
        (fun supplied => supplied.keyword.isNone) = Supplied.ofPositionals values := by
  induction values with
  | nil => cases entries <;> rfl
  | cons value rest ih => exact congrArg _ ih

theorem dropWhile_ofPositionals (values : List Deferred) (entries : List (String × Deferred)) :
    (Supplied.ofPositionals values ++ Supplied.ofKeywords entries).dropWhile
        (fun supplied => supplied.keyword.isNone) = Supplied.ofKeywords entries := by
  induction values with
  | nil => cases entries <;> rfl
  | cons value rest ih => exact ih

namespace Agrees

/-! ## The next result -/

theorem isFor (agrees : binder.Agrees initial call count) {value : Deferred} {isDefault : Bool} :
    BoundParameter.IsFor initial.function parameter index
      ⟨binder.function, index, parameter.name, parameter.kind, value, isDefault⟩ :=
  ⟨agrees.function, rfl, rfl, rfl⟩

/-- The next parameter is bound to what the table or the rule of binding says. -/
theorem extend (agrees : binder.Agrees initial call count)
    (found : initial.declaration.Lists count parameter)
    (isFor : bound.IsFor initial.function parameter count)
    (kept : call.values parameter count ≠ [] → binder.used.get? parameter.name = some bound)
    (filled : call.values parameter count = [] →
      bound.Follows initial.declaration call (call.collected initial.declaration) parameter count)
    (left : unmatched =
      if initial.declaration.hasBefore (count + 1) .doubleStarred then ∅
      else Table.ofEntries (call.unmatched initial.declaration))
    (noted : Notes initial call (count + 1) binder.sawRepetition issues) (nextCell : Nat) :
    Agrees { binder with result := binder.result ++ [bound], unmatched, issues, nextCell }
      initial call (count + 1) := by
  have last : (binder.result ++ [bound])[count]? = some bound := by
    rw [← agrees.length, List.getElem?_concat_length]
  have earlier : ∀ {index : Nat}, index < count →
      (binder.result ++ [bound])[index]? = binder.result[index]? := by
    intro index before
    rw [← agrees.length] at before
    exact List.getElem?_append_left before
  refine
    { agrees with
      length := ?length
      within := (List.getElem?_eq_some_iff.mp found).1
      absent := ?absent
      kept := ?kept
      filled := ?filled
      unmatched := left
      notes := noted }
  case length => simp [agrees.length]
  case absent =>
    intro index other otherFound nothing ahead
    exact agrees.absent otherFound nothing fun collects => Nat.le_of_succ_le (ahead collects)
  case kept =>
    intro index other otherFound before given
    rcases Nat.lt_succ_iff_lt_or_eq.mp before with before | rfl
    · exact (earlier before).trans (agrees.kept otherFound before given)
    · rw [found] at otherFound
      cases otherFound
      exact last.trans (kept given).symm
  case filled =>
    intro index other otherFound before nothing
    rcases Nat.lt_succ_iff_lt_or_eq.mp before with before | rfl
    · obtain ⟨present, placed, rest⟩ := agrees.filled otherFound before nothing
      exact ⟨present, (earlier before).trans placed, rest⟩
    · rw [found] at otherFound
      cases otherFound
      exact ⟨bound, last, isFor, filled nothing⟩

/-- A parameter that collects may stand in the table once it is bound. -/
theorem useCollector (agrees : binder.Agrees initial call count)
    (ordered : initial.declaration.IsOrdered)
    (found : initial.declaration.Lists index parameter) (before : index < count)
    (collects : parameter.kind.collects = true) (bound : BoundParameter) :
    Agrees { binder with used := binder.used.insert parameter.name bound } initial call count := by
  have same : ∀ {other : Nat} {otherParameter : Parameter},
      initial.declaration.parameters[other]? = some otherParameter → other ≠ index →
      (binder.used.insert parameter.name bound).get? otherParameter.name =
        binder.used.get? otherParameter.name :=
    fun otherFound different => Table.get?_insert_of_ne _
      (fun sameName => different (ordered.eq_of_name otherFound found sameName)) _
  have apart : ∀ {other : Nat} {otherParameter : Parameter},
      initial.declaration.parameters[other]? = some otherParameter →
      call.values otherParameter other ≠ [] → other ≠ index := by
    rintro other otherParameter otherFound given rfl
    rw [found] at otherFound
    cases otherFound
    exact given (OrderedCall.values_eq_nil_of_collects collects)
  refine { agrees with absent := ?absent, present := ?present, kept := ?kept }
  case absent =>
    intro other otherParameter otherFound nothing ahead
    have different : other ≠ index := by
      rintro rfl
      rw [found] at otherFound
      cases otherFound
      exact absurd before (Nat.not_lt.mpr (ahead collects))
    exact (same otherFound different).trans (agrees.absent otherFound nothing ahead)
  case present =>
    intro other otherParameter otherFound given
    rw [same otherFound (apart otherFound given)]
    exact agrees.present otherFound given
  case kept =>
    intro other otherParameter otherFound otherBefore given
    rw [same otherFound (apart otherFound given)]
    exact agrees.kept otherFound otherBefore given

/-- The keywords that name no parameter stay until the double-starred parameter. -/
theorem unmatched_succ (agrees : binder.Agrees initial call count)
    (found : initial.declaration.Lists count parameter)
    (different : parameter.kind ≠ .doubleStarred) :
    binder.unmatched =
      if initial.declaration.hasBefore (count + 1) .doubleStarred then ∅
      else Table.ofEntries (call.unmatched initial.declaration) := by
  rw [FunctionDeclaration.hasBefore_succ found, beq_false_of_ne different, Bool.or_false]
  exact agrees.unmatched

/-! ## Ways to bind a parameter -/

section

variable (agrees : binder.Agrees initial call count)
  (found : initial.declaration.Lists count parameter)

include agrees found

/-- A keyword has bound the parameter. -/
theorem append (used : binder.used.get? parameter.name = some bound) :
    (binder.append bound).Agrees initial call (count + 1) := by
  have given := agrees.values_of_used found (fun _ => Nat.le_refl count) used
  have different : parameter.kind ≠ .doubleStarred :=
    ParameterKind.ne_of_collects (OrderedCall.single_of_values given) rfl
  obtain ⟨other, otherUsed, isFor, -⟩ := agrees.present found given
  rw [used] at otherUsed
  cases otherUsed
  have noted := agrees.notes.succ found
  rw [if_neg (by simp [OrderedCall.lacks, given]), List.append_nil] at noted
  exact agrees.extend found isFor (fun _ => used) (fun nothing => absurd nothing given)
    (agrees.unmatched_succ found different) noted binder.nextCell

/-- The call supplies nothing for the parameter. -/
theorem bindMissing (single : parameter.kind.collects = false)
    (nothing : call.values parameter count = []) :
    (binder.bindMissing parameter count).Agrees initial call (count + 1) := by
  have left := agrees.unmatched_succ found (ParameterKind.ne_of_collects single rfl)
  have noted := agrees.notes.succ found
  have follows : ∀ {bound : BoundParameter}, bound.IsMissing parameter →
      bound.Follows initial.declaration call (call.collected initial.declaration) parameter
        count := by
    intro bound missing
    cases kind : parameter.kind <;>
      simp_all [BoundParameter.Follows, ParameterKind.collects]
  cases default : parameter.default with
  | some node =>
    rw [if_neg (by simp [OrderedCall.lacks, Parameter.isRequired, default]), List.append_nil]
      at noted
    simp only [Binder.bindMissing, default]
    exact agrees.extend found agrees.isFor (fun given => absurd nothing given)
      (fun _ => follows (by simp [BoundParameter.IsMissing, default])) left noted
      (binder.nextCell + 1)
  | none =>
    have missing : BoundParameter.IsMissing parameter
        ⟨binder.function, count, parameter.name, parameter.kind, .unknown ⟨binder.nextCell⟩,
          false⟩ := by
      simp [BoundParameter.IsMissing, default]
    have bound := agrees.extend found agrees.isFor (fun given => absurd nothing given)
      (fun _ => follows missing) left noted (binder.nextCell + 1)
    have lacks : call.lacks (parameter, count) = true := by
      simp [OrderedCall.lacks, Parameter.isRequired, single, default, nothing]
    simp only [Binder.bindMissing, default]
    by_cases keywords : call.keywords = []
    · have saw : binder.sawKeyword = false := by
        simp [agrees.sawKeyword, keywords]
      rw [if_pos ⟨keywords, lacks⟩, ← agrees.declaration, ← agrees.given, ← agrees.callSite]
        at bound
      rw [if_neg (by simp [saw])]
      exact bound
    · have saw : binder.sawKeyword = true := by
        simp [agrees.sawKeyword, keywords]
      rw [if_neg (by simp [keywords]), List.append_nil] at bound
      rw [if_pos saw]
      exact bound

end

/-- A position fills the parameter. -/
theorem bindPosition (agrees : binder.Agrees initial ⟨values, []⟩ values.length)
    (ordered : initial.declaration.IsOrdered)
    (found : initial.declaration.Lists values.length parameter)
    (positional : parameter.kind = .positional) (value : Deferred) :
    (binder.bindValue parameter values.length value).Agrees initial ⟨values ++ [value], []⟩
      (values.length + 1) := by
  have within := (ordered.kind_eq_positional_iff found).mp positional
  have gives := OrderedCall.gives_position ordered found positional value
  have nothing : (OrderedCall.mk values []).values parameter values.length = [] := by
    simp [OrderedCall.values, positional, namedValues]
  have supplied : BoundParameter.IsSupplied
      ((OrderedCall.mk values []).values parameter values.length ++ [value])
      ⟨binder.function, values.length, parameter.name, parameter.kind, value, false⟩ := by
    rw [nothing]
    exact ⟨rfl, .one value⟩
  have fills : (OrderedCall.mk values []).Fills initial.declaration values.length :=
    OrderedCall.fills_of_le_positionals ordered (Nat.le_of_lt within) (Nat.le_refl _)
  have otherFills : (OrderedCall.mk (values ++ [value]) []).Fills initial.declaration
      values.length :=
    OrderedCall.fills_of_le_positionals ordered (Nat.le_of_lt within) (by simp)
  obtain ⟨repeated, repeats, saw, issues⟩ := agrees.notes.of_fills fills
  have noted : Notes initial ⟨values ++ [value], []⟩ values.length binder.sawRepetition
      binder.issues := by
    refine ⟨repeated, repeats.first gives nothing, saw, ?_⟩
    rw [issues, otherFills.shortBy]
    simp
  have given := agrees.give ordered gives agrees.isFor supplied agrees.length (fun _ _ => rfl)
    (fun before => absurd before (Nat.lt_irrefl _)) agrees.sawKeyword noted binder.nextCell
  exact given.append found (Table.get?_insert_self _ _ _)

/-- The positions behind the positional parameters change nothing for them. -/
theorem takeRest (agrees : binder.Agrees initial ⟨taken, []⟩ count)
    (ordered : initial.declaration.IsOrdered)
    (all : taken.length = initial.declaration.positionalCount) (filled : count = taken.length) :
    binder.Agrees initial ⟨taken ++ left, []⟩ count := by
  have same : ∀ {index : Nat} {other : Parameter},
      initial.declaration.parameters[index]? = some other →
      (OrderedCall.mk (taken ++ left) []).values other index =
        (OrderedCall.mk taken []).values other index := by
    intro index other found
    cases kind : other.kind with
    | positional =>
      have before := (ordered.kind_eq_positional_iff found).mp kind
      rw [← all] at before
      simp only [OrderedCall.values, kind, List.getElem?_append_left before]
    | _ => simp only [OrderedCall.values, kind]
  have fills : (OrderedCall.mk taken []).Fills initial.declaration count :=
    OrderedCall.fills_of_le_positionals ordered (by omega) (by simp [filled])
  have otherFills : (OrderedCall.mk (taken ++ left) []).Fills initial.declaration count :=
    OrderedCall.fills_of_le_positionals ordered (by omega) (by simp [filled])
  obtain ⟨repeated, repeats, saw, issues⟩ := agrees.notes.of_fills fills
  have noted : Notes initial ⟨taken ++ left, []⟩ count binder.sawRepetition binder.issues := by
    refine ⟨repeated, repeats.congr same, saw, ?_⟩
    rw [issues, otherFills.shortBy]
    simp
  refine agrees.transfer same ?_ agrees.unmatched agrees.sawKeyword noted
  intro index other bound found before nothing
  have kind := (ordered.kind_eq_positional_iff found).mpr (by omega)
  rcases fills index other found before with starred | given
  · rw [starred] at kind
    cases kind
  · exact absurd nothing given

section

variable (agrees : binder.Agrees initial call count) (ordered : initial.declaration.IsOrdered)
  (found : initial.declaration.Lists count parameter)

include agrees ordered found

/-- A parameter that collects takes what is left for it. -/
theorem bindCollector (collects : parameter.kind.collects = true)
    (follows : BoundParameter.Follows initial.declaration call
      (call.collected initial.declaration) parameter count
      ⟨binder.function, count, parameter.name, parameter.kind, value, false⟩)
    (left : unmatched =
      if initial.declaration.hasBefore (count + 1) .doubleStarred then ∅
      else Table.ofEntries (call.unmatched initial.declaration))
    (nextCell : Nat) :
    ({ binder with nextCell, unmatched }.bindValue parameter count value).Agrees initial call
      (count + 1) := by
  have nothing : call.values parameter count = [] := OrderedCall.values_eq_nil_of_collects collects
  have noted := agrees.notes.succ found
  rw [if_neg (by simp [OrderedCall.lacks, Parameter.isRequired, collects]), List.append_nil]
    at noted
  have bound := agrees.extend found agrees.isFor (fun given => absurd nothing given)
    (fun _ => follows) left noted nextCell
  exact bound.useCollector ordered found (Nat.lt_succ_self count) collects _

/-- A starred parameter takes the positions that are left. -/
theorem bindStarred (kind : parameter.kind = .starred) (ahead : binder.stream =
      Supplied.ofPositionals (call.positionals.drop initial.declaration.positionalCount) ++
        Supplied.ofKeywords entries) :
    (binder.bindStarred parameter count).Agrees initial call (count + 1) ∧
      (binder.bindStarred parameter count).stream = Supplied.ofKeywords entries := by
  have taken := takeWhile_ofPositionals
    (call.positionals.drop initial.declaration.positionalCount) entries
  have left := dropWhile_ofPositionals
    (call.positionals.drop initial.declaration.positionalCount) entries
  rw [← ahead] at taken left
  have collects : parameter.kind.collects = true := by
    rw [kind]
    rfl
  have follows : BoundParameter.Follows initial.declaration call
      (call.collected initial.declaration) parameter count
      ⟨binder.function, count, parameter.name, parameter.kind,
        .packedTuple ⟨binder.nextCell⟩
          ((binder.stream.takeWhile fun supplied => supplied.keyword.isNone).map Supplied.value),
        false⟩ := by
    rw [taken]
    simp [BoundParameter.Follows, BoundParameter.Collects, kind, Supplied.ofPositionals,
      Function.comp_def]
  have different : parameter.kind ≠ .doubleStarred := by simp [kind]
  have advanced := agrees.withStream
    (binder.stream.dropWhile fun supplied => supplied.keyword.isNone)
  refine ⟨?_, left⟩
  exact advanced.bindCollector ordered found collects follows
    (agrees.unmatched_succ found different) (binder.nextCell + 1)

/-- A double-starred parameter takes the keywords that name no parameter. -/
theorem bindDoubleStarred (kind : parameter.kind = .doubleStarred) :
    (binder.bindDoubleStarred parameter count).Agrees initial call (count + 1) := by
  have collects : parameter.kind.collects = true := by
    rw [kind]
    rfl
  have unmatched := agrees.unmatched
  rw [ordered.hasBefore_doubleStarred found, if_neg Bool.false_ne_true] at unmatched
  have follows : BoundParameter.Follows initial.declaration call
      (call.collected initial.declaration) parameter count
      ⟨binder.function, count, parameter.name, parameter.kind,
        .packedDict ⟨binder.nextCell⟩ binder.unmatched.entries, false⟩ := by
    simp [BoundParameter.Follows, BoundParameter.Collects, OrderedCall.collected, kind, unmatched]
  refine agrees.bindCollector ordered found collects follows ?_ (binder.nextCell + 1)
  rw [FunctionDeclaration.hasBefore_succ found, kind]
  simp

end

end Agrees

end Binder

end TypeInference
