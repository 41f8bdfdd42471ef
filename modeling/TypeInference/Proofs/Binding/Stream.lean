import TypeInference.Proofs.Binding.Parameter

/-!
# Binding a stream

A stream of positions and then keywords is read in two stages.  First the positions
fill the positional parameters and a starred one, with all keywords ahead; every
parameter bound so far is supplied then.  Once nothing takes a position any more, all
keywords are read at once, and the parameters that remain have been supplied or are
given nothing.
-/

namespace TypeInference

variable {declaration : FunctionDeclaration} {count : Nat}

/-- A starred parameter that stands before a place is behind the positional ones. -/
theorem FunctionDeclaration.IsOrdered.positionalCount_lt (ordered : declaration.IsOrdered)
    (before : declaration.hasBefore count .starred = true) :
    declaration.positionalCount < count := by
  obtain ⟨parameter, member, kind⟩ := List.any_eq_true.mp before
  obtain ⟨index, within, rfl⟩ := List.mem_take_iff_getElem.mp member
  have place := ordered.index_of_starred (List.getElem?_eq_getElem (by omega)) (eq_of_beq kind)
  omega

theorem OrderedCall.remaining_succ {call : OrderedCall} (found : declaration.Lists count parameter)
    (different : parameter.kind ≠ .starred) :
    call.remaining declaration (count + 1) = call.remaining declaration count := by
  rw [remaining, FunctionDeclaration.hasBefore_succ found, beq_false_of_ne different,
    Bool.or_false, remaining]

namespace Binder

/-- A binder that has taken some positions and has all keywords ahead. -/
structure Unread (binder initial : Binder) (call : OrderedCall) (count : Nat)
    (taken left : List Deferred) : Prop where
  split : call.positionals = taken ++ left
  agrees : binder.Agrees initial ⟨taken, []⟩ count
  fills : (OrderedCall.mk taken []).Fills initial.declaration count
  ahead : binder.stream = Supplied.ofPositionals left ++ Supplied.ofKeywords call.keywords
  place : taken.length = count ∧ count ≤ initial.declaration.positionalCount ∨
    left = [] ∧ initial.declaration.hasBefore count .starred = true

/-- A binder that has taken all keywords, and every position that a parameter takes. -/
structure Read (binder initial : Binder) (call : OrderedCall) (count : Nat) : Prop where
  agrees : binder.Agrees initial call count
  ahead : binder.stream = Supplied.ofPositionals (call.remaining initial.declaration count)
  past : initial.declaration.positionalCount ≤ count ∨ call.positionals.length ≤ count

variable {binder initial : Binder} {call : OrderedCall} {count : Nat} {parameter : Parameter}
variable {taken left : List Deferred}

/-! ## Reading the keywords -/

section

variable (unread : binder.Unread initial call count taken left)
  (ordered : initial.declaration.IsOrdered)

include unread ordered

/-- What is left of the positions if no parameter takes one any more. -/
theorem Unread.remaining (done : left = [] ∨ initial.declaration.positionalCount ≤ count) :
    call.remaining initial.declaration count = left := by
  unfold OrderedCall.remaining
  rcases unread.place with ⟨length, positional⟩ | ⟨rfl, starred⟩
  · have before : ¬initial.declaration.hasBefore count .starred = true := fun starred =>
      Nat.not_lt.mpr positional (ordered.positionalCount_lt starred)
    rw [if_neg before, unread.split]
    rcases done with rfl | behind
    · rw [List.append_nil]
      exact List.drop_eq_nil_of_le (by omega)
    · exact List.drop_left' (by omega)
  · rw [if_pos starred]

theorem Unread.read (single : call.NamesNoCollector initial.declaration)
    (done : left = [] ∨ initial.declaration.positionalCount ≤ count) :
    Read
      { call.keywords.foldl (fun binder entry => binder.bindKeyword entry.1 entry.2) binder with
        stream := Supplied.ofPositionals left }
      initial call count := by
  have remaining := unread.remaining ordered done
  have complete : binder.Agrees initial ⟨call.positionals, []⟩ count ∧
      (OrderedCall.mk call.positionals []).Fills initial.declaration count ∧
      (initial.declaration.positionalCount ≤ count ∨ call.positionals.length ≤ count) := by
    have agrees := unread.agrees
    have fills := unread.fills
    rw [unread.split]
    rcases done with rfl | behind
    · rw [List.append_nil]
      refine ⟨agrees, fills, ?_⟩
      rcases unread.place with ⟨length, -⟩ | ⟨-, starred⟩
      · exact .inr (Nat.le_of_eq length)
      · exact .inl (Nat.le_of_lt (ordered.positionalCount_lt starred))
    · rcases unread.place with ⟨length, positional⟩ | ⟨rfl, -⟩
      · refine ⟨agrees.takeRest ordered (by omega) length.symm, ?_, .inl behind⟩
        exact OrderedCall.fills_of_le_positionals ordered positional (by simp [length])
      · rw [List.append_nil]
        exact ⟨agrees, fills, .inl behind⟩
  obtain ⟨agrees, fills, past⟩ := complete
  refine ⟨?_, by rw [remaining], past⟩
  exact (agrees.foldl_bindKeyword ordered fills single).withStream _

end

/-- A position ahead of the keywords keeps them from being read. -/
theorem bindLeadingKeywords_of_stream
    (ahead : binder.stream = Supplied.ofPositionals values ++ Supplied.ofKeywords entries)
    (blocked : values = [] → entries = []) :
    binder.bindLeadingKeywords binder.stream = binder := by
  have same : binder.bindLeadingKeywords
        (Supplied.ofPositionals values ++ Supplied.ofKeywords entries) =
      { binder with stream := Supplied.ofPositionals values ++ Supplied.ofKeywords entries } := by
    cases values with
    | nil =>
      rw [blocked rfl]
      rfl
    | cons value values => rfl
  rw [ahead, same, ← ahead]

/--
Before a parameter is bound, all keywords are read, unless a position is ahead that
the parameter may take.
-/
theorem Unread.prepare (unread : binder.Unread initial call count taken left)
    (ordered : initial.declaration.IsOrdered) (single : call.NamesNoCollector initial.declaration)
    (found : initial.declaration.Lists count parameter) :
    (binder.prepare parameter.kind).Read initial call count ∨
      left ≠ [] ∧ (parameter.kind = .positional ∨ parameter.kind = .starred) ∧
        binder.prepare parameter.kind = binder := by
  by_cases nothing : left = []
  · subst nothing
    have read := unread.read ordered single (.inl rfl)
    have leading : binder.bindLeadingKeywords binder.stream =
        { call.keywords.foldl (fun binder entry => binder.bindKeyword entry.1 entry.2) binder with
          stream := [] } := by
      rw [unread.ahead]
      exact bindLeadingKeywords_ofKeywords binder call.keywords
    refine .inl ?_
    unfold Binder.prepare
    rw [leading]
    cases parameter.kind <;> exact read
  · have leading := bindLeadingKeywords_of_stream unread.ahead fun empty => absurd empty nothing
    unfold Binder.prepare
    rw [leading]
    have drained : ¬count < initial.declaration.positionalCount →
        binder.drainKeywords.Read initial call count := by
      intro behind
      rw [drainKeywords_of_stream unread.ahead]
      exact unread.read ordered single (.inr (Nat.not_lt.mp behind))
    have positional := ordered.kind_eq_positional_iff found
    cases kind : parameter.kind with
    | positional => exact .inr ⟨nothing, .inl rfl, rfl⟩
    | starred => exact .inr ⟨nothing, .inr rfl, rfl⟩
    | keywordOnly | doubleStarred => exact .inl (drained (by rw [← positional, kind]; simp))

/-! ## Parameters behind the keywords -/

theorem stream_bindMissing (binder : Binder) (parameter : Parameter) (index : Nat) :
    (binder.bindMissing parameter index).stream = binder.stream := by
  unfold bindMissing
  cases parameter.default with
  | some default => rfl
  | none =>
    dsimp only
    split <;> rfl

theorem Read.stream (read : binder.Read initial call count) :
    binder.stream =
      Supplied.ofPositionals (call.remaining initial.declaration count) ++
        Supplied.ofKeywords [] := by
  rw [read.ahead]
  exact (List.append_nil _).symm

/-- A parameter of another kind than the starred one leaves the positions that are left. -/
theorem Read.succ (read : binder.Read initial call count)
    (found : initial.declaration.Lists count parameter)
    (different : parameter.kind ≠ .starred) {next : Binder}
    (agrees : next.Agrees initial call (count + 1)) (same : next.stream = binder.stream) :
    next.Read initial call (count + 1) where
  agrees := agrees
  ahead := by rw [same, read.ahead, OrderedCall.remaining_succ found different]
  past := read.past.imp Nat.le_succ_of_le Nat.le_succ_of_le

theorem Read.bindUnused (read : binder.Read initial call count)
    (ordered : initial.declaration.IsOrdered) (found : initial.declaration.Lists count parameter)
    (unused : binder.used.get? parameter.name = none) :
    (binder.bindUnused parameter count).Read initial call (count + 1) := by
  have nothing := read.agrees.values_of_unused found unused
  have missing : parameter.kind.collects = false →
      (binder.bindMissing parameter count).Read initial call (count + 1) := by
    intro single
    exact read.succ found (ParameterKind.ne_of_collects single rfl)
      (read.agrees.bindMissing found single nothing) (stream_bindMissing binder parameter count)
  unfold Binder.bindUnused
  cases kind : parameter.kind with
  | starred =>
    have place := ordered.index_of_starred found kind
    have before : ¬initial.declaration.hasBefore count .starred = true := fun starred =>
      Nat.not_lt.mpr (Nat.le_of_eq place) (ordered.positionalCount_lt starred)
    have ahead := read.stream
    rw [OrderedCall.remaining, if_neg before] at ahead
    have bound := read.agrees.bindStarred ordered found kind ahead
    refine ⟨bound.1, ?_, .inl (by omega)⟩
    rw [bound.2, OrderedCall.remaining, FunctionDeclaration.hasBefore_succ found, kind]
    simp
    rfl
  | doubleStarred =>
    have different : parameter.kind ≠ .starred := by simp [kind]
    exact read.succ found different (read.agrees.bindDoubleStarred ordered found kind) rfl
  | keywordOnly => exact missing (by rw [kind]; rfl)
  | positional =>
    -- No position is left for a parameter that the positions have not reached.
    have within := (ordered.kind_eq_positional_iff found).mp kind
    have short : call.positionals.length ≤ initial.declaration.positionalCount := by
      rcases read.past with behind | short <;> omega
    have stream : binder.stream = [] := by
      rw [read.ahead, OrderedCall.remaining, List.drop_eq_nil_of_le short, ite_self]
      rfl
    simp only [stream]
    exact missing (by rw [kind]; rfl)

/-- Without keywords ahead there is nothing to prepare. -/
theorem Read.drainKeywords (read : binder.Read initial call count) :
    binder.drainKeywords = binder := by
  rw [drainKeywords_of_stream read.stream, ← read.ahead]
  rfl

theorem Read.prepare (read : binder.Read initial call count) (kind : ParameterKind) :
    binder.prepare kind = binder := by
  unfold Binder.prepare
  rw [bindLeadingKeywords_of_stream read.stream fun _ => rfl]
  cases kind with
  | keywordOnly | doubleStarred => exact read.drainKeywords
  | positional | starred => rfl

/-! ## All parameters -/

/-- A binder that is in one of the two stages. -/
def Reaches (binder initial : Binder) (call : OrderedCall) (count : Nat) : Prop :=
  (∃ taken left, binder.Unread initial call count taken left) ∨ binder.Read initial call count

theorem Read.bindParameter (read : (binder.prepare parameter.kind).Read initial call count)
    (ordered : initial.declaration.IsOrdered) (found : initial.declaration.Lists count parameter) :
    (binder.bindParameter (parameter, count)).Read initial call (count + 1) := by
  unfold Binder.bindParameter
  cases used : (binder.prepare parameter.kind).used.get? parameter.name with
  | none =>
    simp only [used]
    exact read.bindUnused ordered found used
  | some bound =>
    simp only [used]
    have given := read.agrees.values_of_used found (fun _ => Nat.le_refl count) used
    have different : parameter.kind ≠ .starred :=
      ParameterKind.ne_of_collects (OrderedCall.single_of_values given) rfl
    exact read.succ found different (read.agrees.append found used) rfl

/-- A position that is ahead goes to a positional parameter, or with all others to a starred one. -/
theorem Unread.bindParameter (unread : binder.Unread initial call count taken left)
    (ordered : initial.declaration.IsOrdered)
    (found : initial.declaration.Lists count parameter) (nonempty : left ≠ [])
    (takes : parameter.kind = .positional ∨ parameter.kind = .starred)
    (prepared : binder.prepare parameter.kind = binder) :
    ∃ taken left, (binder.bindParameter (parameter, count)).Unread initial call (count + 1)
      taken left := by
  obtain ⟨length, within⟩ := unread.place.resolve_right fun place => nonempty place.1
  subst length
  obtain ⟨value, rest, rfl⟩ := List.exists_cons_of_ne_nil nonempty
  have nothing : (OrderedCall.mk taken []).values parameter taken.length = [] := by
    rcases takes with kind | kind <;> simp [OrderedCall.values, kind, namedValues]
  have unused := unread.agrees.absent found nothing fun _ => Nat.le_refl _
  have step : binder.bindParameter (parameter, taken.length) =
      binder.bindUnused parameter taken.length := by
    simp only [Binder.bindParameter, prepared, unused]
  rw [step]
  unfold Binder.bindUnused
  rcases takes with kind | kind
  · have before := (ordered.kind_eq_positional_iff found).mp kind
    have stream : binder.stream =
        ⟨none, value⟩ :: (Supplied.ofPositionals rest ++ Supplied.ofKeywords call.keywords) :=
      unread.ahead
    simp only [kind, stream]
    refine ⟨taken ++ [value], rest, ?_⟩
    exact
      { split := by simpa using unread.split
        agrees := (unread.agrees.withStream _).bindPosition ordered found kind value
        fills := OrderedCall.fills_of_le_positionals ordered before (by simp)
        ahead := rfl
        place := .inl ⟨by simp, before⟩ }
  · have place := ordered.index_of_starred found kind
    have complete : binder.Agrees initial ⟨taken ++ value :: rest, []⟩ taken.length :=
      unread.agrees.takeRest ordered place rfl
    have fills : (OrderedCall.mk (taken ++ value :: rest) []).Fills initial.declaration
        taken.length :=
      OrderedCall.fills_of_le_positionals ordered within (by simp)
    have dropped : (taken ++ value :: rest).drop initial.declaration.positionalCount =
        value :: rest :=
      List.drop_left' place
    have ahead := unread.ahead
    rw [← dropped] at ahead
    have bound := complete.bindStarred ordered found kind ahead
    simp only [kind]
    refine ⟨taken ++ value :: rest, [], ?_⟩
    exact
      { split := by rw [List.append_nil, unread.split]
        agrees := bound.1
        fills := fills.succ_of_starred found kind
        ahead := bound.2
        place := .inr ⟨rfl, by simp [FunctionDeclaration.hasBefore_succ found, kind]⟩ }

section

variable (reaches : binder.Reaches initial call count) (ordered : initial.declaration.IsOrdered)
  (single : call.NamesNoCollector initial.declaration)

include reaches ordered single

theorem Reaches.bindParameter (found : initial.declaration.Lists count parameter) :
    (binder.bindParameter (parameter, count)).Reaches initial call (count + 1) := by
  rcases reaches with ⟨taken, left, unread⟩ | read
  · rcases unread.prepare ordered single found with read | ⟨nonempty, takes, prepared⟩
    · exact .inr (read.bindParameter ordered found)
    · exact .inl (unread.bindParameter ordered found nonempty takes prepared)
  · rw [← read.prepare parameter.kind] at read
    exact .inr (read.bindParameter ordered found)

theorem Reaches.foldl_bindParameter (split : initial.declaration.parameters = done ++ parameters)
    (place : done.length = count) :
    ((parameters.zipIdx count).foldl Binder.bindParameter binder).Reaches initial call
      initial.declaration.parameters.length := by
  induction parameters generalizing binder count done with
  | nil =>
    rw [split, List.append_nil, place]
    exact reaches
  | cons parameter rest ih =>
    have found : initial.declaration.parameters[count]? = some parameter := by
      rw [split, ← place]
      simp
    have restSplit : initial.declaration.parameters = (done ++ [parameter]) ++ rest := by
      rw [split, List.append_assoc]
      rfl
    exact ih (reaches.bindParameter ordered single found) restSplit (by simp [place])

end

/-- At the end all keywords are read. -/
theorem Reaches.drainKeywords
    (reaches : binder.Reaches initial call initial.declaration.parameters.length)
    (ordered : initial.declaration.IsOrdered) (single : call.NamesNoCollector initial.declaration) :
    binder.drainKeywords.Read initial call initial.declaration.parameters.length := by
  rcases reaches with ⟨taken, left, unread⟩ | read
  · rw [drainKeywords_of_stream unread.ahead]
    exact unread.read ordered single (.inr List.countP_le_length)
  · rw [read.drainKeywords]
    exact read

theorem reaches_start (function : FunctionId) (declaration : FunctionDeclaration)
    (callSite : Option NodeId) (call : OrderedCall) (nextCell : Nat) :
    (start function declaration callSite call.stream nextCell).Reaches
      (start function declaration callSite call.stream nextCell) call 0 := by
  have nothing : ∀ (parameter : Parameter) (index : Nat),
      (OrderedCall.mk [] []).values parameter index = [] := by
    intro parameter index
    cases kind : parameter.kind <;> simp [OrderedCall.values, kind, namedValues]
  refine .inl ⟨[], call.positionals, ?_⟩
  exact
    { split := rfl
      agrees :=
        { function := rfl
          declaration := rfl
          callSite := rfl
          given := rfl
          length := rfl
          within := Nat.zero_le _
          absent := fun _ _ _ => rfl
          present := fun _ given => absurd (nothing _ _) given
          kept := fun _ before => absurd before (Nat.not_lt_zero _)
          filled := fun _ before => absurd before (Nat.not_lt_zero _)
          unmatched := rfl
          sawKeyword := rfl
          notes := ⟨[], ⟨fun _ _ _ _ => by rw [nothing]; rfl, by simp⟩, rfl, rfl⟩ }
      fills := fun _ _ _ before => absurd before (Nat.not_lt_zero _)
      ahead := rfl
      place := .inl ⟨rfl, Nat.zero_le _⟩ }

/-- A stream of positions and then keywords is read to its end. -/
theorem read_bindStream (ordered : declaration.IsOrdered)
    (single : call.NamesNoCollector declaration) (function : FunctionId) (callSite : Option NodeId)
    (nextCell : Nat) :
    (declaration.parameters.zipIdx.foldl Binder.bindParameter
        (start function declaration callSite call.stream nextCell)).drainKeywords.Read
      (start function declaration callSite call.stream nextCell) call
      declaration.parameters.length := by
  refine Reaches.drainKeywords ?_ ordered single
  have reaches := reaches_start function declaration callSite call nextCell
  exact reaches.foldl_bindParameter ordered single (List.nil_append _).symm rfl

end Binder

end TypeInference
