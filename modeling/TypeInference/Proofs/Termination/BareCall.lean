import TypeInference.Proofs.Judgement.Fuel

/-!
# Bare calls

Inference itself calls values without arguments.  A bound method passes such a call
on with its receiver in front, so that the arguments are receivers throughout.  The
functions of one arena can be called in this way with finitely many arguments, and a
request remembers every such call that it started.  So the calls that are missing
from what it remembers bound how often it can start another one.
-/

namespace TypeInference

variable {declarations : Declarations} {receivers : List ValueId} {id : ValueId}
  {returns : Table Invocation Progress} {stored : Value} {initial arena : Arena} {matching : Prop}
  {remaining : Nat}

/-- Arguments that are receivers throughout. -/
def Arguments.ofReceivers (receivers : List ValueId) : Arguments :=
  receivers.foldr .bound .empty

theorem within_ofReceivers (within : Within declarations bound receivers) :
    Within declarations bound (Arguments.ofReceivers receivers) := by
  induction receivers with
  | nil => exact within_nil
  | cons receiver receivers ih =>
    rw [within_cons] at within
    exact ⟨within.1, ih within.2⟩

namespace Arena

/-- A call of a function without arguments leads to a call of a value with receivers. -/
inductive Leads (arena : Arena) : ValueId → List ValueId → Prop where
  | start
      {id : ValueId}
      {stored : Value}
      (found : arena.get? id = some stored)
      (isFunction : stored.isFunction = true) :
      Leads arena id []
  | callee
      {id callee receiver : ValueId}
      {receivers : List ValueId}
      (leads : Leads arena id receivers)
      (found : arena.get? id = some (.boundMethod callee receiver)) :
      Leads arena callee (receiver :: receivers)

/-- The calls of functions that the call of a value leads to, through so many methods at most. -/
def invocations (arena : Arena) : Nat → ValueId → Arguments → List Invocation
  | 0, _, _ => []
  | limit + 1, id, arguments =>
    match arena.get? id with
    | some (.function function) => [⟨function, arguments⟩]
    | some (.overloaded functions) => functions.map fun function => ⟨function, arguments⟩
    | some (.boundMethod callee receiver) =>
      arena.invocations limit callee (.bound receiver arguments)
    | _ => []

/-- The calls of functions that calls without arguments lead to. -/
def bareInvocations (arena : Arena) : List Invocation :=
  (List.range arena.size).flatMap fun index => arena.invocations arena.size ⟨index⟩ .empty

variable {arena : Arena}

/-- More methods lead to more calls. -/
theorem invocations_subset (smaller : limit ≤ more) (id : ValueId) (arguments : Arguments) :
    arena.invocations limit id arguments ⊆ arena.invocations more id arguments := by
  induction limit generalizing more id arguments with
  | zero => exact List.nil_subset _
  | succ limit ih =>
    obtain ⟨rest, rfl⟩ : ∃ rest, more = rest + 1 := ⟨more - 1, by omega⟩
    unfold invocations
    split
    · exact List.Subset.refl _
    · exact List.Subset.refl _
    · exact ih (by omega) _ _
    · exact List.Subset.refl _

theorem Leads.exists_get? (wellFormed : World.WellFormed ⟨arena, declarations⟩)
    (leads : arena.Leads id receivers) :
    ∃ stored, arena.get? id = some stored := by
  cases leads with
  | start found _ => exact ⟨_, found⟩
  | callee _ found => exact Arena.exists_get? (wellFormed.within_of_get? found).1

/-- A value that a call leads to is what a later arena says that it is. -/
theorem Leads.get?_of_le (wellFormed : World.WellFormed ⟨arena, declarations⟩)
    (leads : arena.Leads id receivers) (continues : arena ≤ later)
    (found : later.get? id = some stored) :
    arena.get? id = some stored := by
  obtain ⟨other, otherFound⟩ := leads.exists_get? wellFormed
  rw [Arena.get?_of_le continues otherFound] at found
  exact Option.some.inj found ▸ otherFound

/-- Without receivers a call leads to the function that is called. -/
theorem Leads.isFunction_of_nil (leads : arena.Leads id []) (found : arena.get? id = some stored) :
    stored.isFunction = true := by
  cases leads with
  | start other isFunction =>
    rw [found] at other
    exact Option.some.inj other ▸ isFunction

/-- Calls with receivers that calls without arguments lead to are found from there on. -/
theorem Leads.invocations_subset (wellFormed : World.WellFormed ⟨arena, declarations⟩)
    (leads : arena.Leads id receivers) :
    arena.invocations (id.index + 1) id (.ofReceivers receivers) ⊆ arena.bareInvocations := by
  induction leads with
  | @start id stored found isFunction =>
    have below := lt_size_of_get? found
    refine List.Subset.trans (Arena.invocations_subset below id _) fun invocation member => ?_
    exact List.mem_flatMap.mpr ⟨id.index, List.mem_range.mpr below, member⟩
  | @callee id callee receiver receivers _ found ih =>
    have below : callee.index < id.index := (wellFormed.descending id _ found).1
    refine List.Subset.trans (Arena.invocations_subset below callee _) ?_
    rw [invocations, found] at ih
    exact ih

/-- A function that a call without arguments leads to is called with arguments in the list. -/
theorem Leads.mem_bareInvocations (wellFormed : World.WellFormed ⟨arena, declarations⟩)
    (leads : arena.Leads id receivers) (called : arena.get? id = some (.function function) ∨
      ∃ functions, arena.get? id = some (.overloaded functions) ∧ function ∈ functions) :
    ⟨function, .ofReceivers receivers⟩ ∈ arena.bareInvocations := by
  apply leads.invocations_subset wellFormed
  rcases called with found | ⟨functions, found, member⟩
  · simp [invocations, found]
  · simp [invocations, found, member]

end Arena

/-! ## Calls that are not known yet -/

/-- Number of calls that nothing is known about. -/
def Table.missing (returns : Table Invocation Progress) (invocations : List Invocation) : Nat :=
  invocations.countP fun invocation => !returns.contains invocation

theorem Table.contains_insert (returns : Table Invocation Progress) (invocation other : Invocation)
    (progress : Progress) :
    (returns.insert invocation progress).contains other =
      (decide (other = invocation) || returns.contains other) := by
  by_cases same : other = invocation
  · simp [same, Table.contains]
  · simp [same, Table.contains]

theorem Table.missing_insert_le (returns : Table Invocation Progress)
    (invocations : List Invocation) (invocation : Invocation) (progress : Progress) :
    (returns.insert invocation progress).missing invocations ≤ returns.missing invocations := by
  refine List.countP_mono_left fun other _ absent => ?_
  rw [Table.contains_insert] at absent
  simp_all

theorem Table.missing_append_cons (returns : Table Invocation Progress)
    (before after : List Invocation) (invocation : Invocation) :
    returns.missing (before ++ invocation :: after) =
      returns.missing before + (returns.missing after +
        if returns.contains invocation = true then 0 else 1) := by
  rw [Table.missing, List.countP_append, List.countP_cons]
  cases returns.contains invocation <;> rfl

/-- A call that nothing was known about is missing no longer when it is noted. -/
theorem Table.missing_insert_lt (member : invocation ∈ invocations)
    (unknown : returns.get? invocation = none) (progress : Progress) :
    (returns.insert invocation progress).missing invocations < returns.missing invocations := by
  obtain ⟨before, after, rfl⟩ := List.append_of_mem member
  have beforeLe := returns.missing_insert_le before invocation progress
  have afterLe := returns.missing_insert_le after invocation progress
  have noted : (returns.insert invocation progress).contains invocation = true := by
    simp [Table.contains_insert]
  have absent : returns.contains invocation = false := by
    simp [Table.contains, unknown]
  rw [Table.missing_append_cons, Table.missing_append_cons, noted, absent, if_pos rfl,
    if_neg Bool.false_ne_true]
  omega

/--
An arena that continues an earlier one by values that are neither functions nor, if
there are to be none, callables; and so many calls are missing at most.
-/
structure Arena.Resumes (initial : Arena) (matching : Prop) (remaining : Nat) (arena : Arena)
    (returns : Table Invocation Progress) : Prop where
  continues : initial ≤ arena
  functions : ∀ id stored, arena.get? id = some stored → stored.isFunction = true →
    initial.get? id = some stored
  callables : ∀ id stored, arena.get? id = some stored → stored.isCallable = true → matching
  missing : returns.missing initial.bareInvocations ≤ remaining

theorem Arena.Resumes.intern (noFunction : value.isFunction = false)
    (matched : value.isCallable = true → matching)
    (resumes : initial.Resumes matching remaining arena returns) :
    initial.Resumes matching remaining (arena.intern value).2 returns := by
  rcases Arena.intern_cases arena value with ⟨id, interned, -⟩ | ⟨interned, -⟩
  · rw [interned]
    exact resumes
  · rw [interned]
    refine ⟨Arena.le_trans resumes.continues (Arena.le_push arena value), ?_, ?_, resumes.missing⟩
    · intro id stored found isFunction
      rcases Arena.get?_push found with earlier | ⟨-, rfl⟩
      · exact resumes.functions id stored earlier isFunction
      · simp [noFunction] at isFunction
    · intro id stored found isCallable
      rcases Arena.get?_push found with earlier | ⟨-, rfl⟩
      · exact resumes.callables id stored earlier isCallable
      · exact matched isCallable

/-- Noting how far a call is known leaves no more calls missing. -/
theorem Arena.Resumes.note (resumes : initial.Resumes matching remaining arena returns)
    (invocation : Invocation) (progress : Progress) :
    initial.Resumes matching remaining arena (returns.insert invocation progress) :=
  { resumes with
    missing := Nat.le_trans (returns.missing_insert_le _ invocation progress) resumes.missing }

/-- While nothing new is to be called, a request keeps to the functions of an earlier arena. -/
def Upkeep.resuming (initial : Arena) (matching : Prop) (remaining : Nat) : Upkeep where
  Invariant := initial.Resumes matching remaining
  Callee := fun id => initial.Leads id []
  Matching := matching
  met := fun resumes found =>
    ⟨fun isFunction => .start (resumes.functions _ _ found isFunction) isFunction,
      fun isCallable => resumes.callables _ _ found isCallable⟩
  interned := Arena.Resumes.intern

end TypeInference
