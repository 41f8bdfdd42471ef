import TypeInference.Proofs.Binding.Stream

/-!
# Problems of a bound call

What a binder notes while it binds and when it finishes adds up to the problems of the
call: repetitions, required parameters that are given nothing, keywords that name no
parameter and a position that is left over.
-/

namespace TypeInference

/-! ## Keywords that name no parameter -/

namespace OrderedCall

variable {declaration : FunctionDeclaration} {call : OrderedCall}

theorem namedValues_unmatched (unknown : declaration.parameter? keyword = none) :
    namedValues keyword (call.unmatched declaration) = namedValues keyword call.keywords := by
  unfold namedValues unmatched
  rw [List.filter_filter]
  congr 1
  refine List.filter_congr fun entry _ => ?_
  by_cases same : entry.1 = keyword <;> simp [same, unknown]

theorem unknown_of_mem_entries
    (member : entry ∈ (Table.ofEntries (call.unmatched declaration)).entries) :
    declaration.parameter? entry.1 = none := by
  have key : entry.1 ∈ (Table.ofEntries (call.unmatched declaration)).entries.map Prod.fst :=
    List.mem_map_of_mem member
  rw [Table.map_fst_entries_ofEntries, List.mem_eraseDups] at key
  obtain ⟨first, firstMember, same⟩ := List.mem_map.mp key
  rw [← same]
  simpa using (List.mem_filter.mp firstMember).2

end OrderedCall

namespace Binder

variable {binder initial : Binder} {call : OrderedCall}

/-! ## The problems of a call -/

section

variable (read : binder.Read initial call initial.declaration.parameters.length)

include read

/-- The keywords that are left name no parameter, each with its last value. -/
theorem Read.unexpectedKeywords (callSite : Option NodeId) :
    (binder.unmatched.entries.map fun entry =>
        Diagnostic.unexpected initial.declaration entry.1 (entry.2.node?.or callSite)) =
      call.unexpectedKeywords initial.declaration callSite := by
  rw [read.agrees.unmatched, FunctionDeclaration.hasBefore_length, OrderedCall.unexpectedKeywords]
  split
  · rfl
  · rw [← Table.map_fst_entries_ofEntries, List.map_map]
    refine List.map_congr_left fun entry member => ?_
    have last : (namedValues entry.1 call.keywords).getLast? = some entry.2 := by
      rw [← OrderedCall.namedValues_unmatched (OrderedCall.unknown_of_mem_entries member)]
      exact Table.getLast?_of_mem_ofEntries member
    simp [last]

/-- The required parameters that are not in the table are given nothing. -/
theorem Read.countP_unused :
    (initial.declaration.parameters.countP fun parameter =>
        parameter.isRequired && !binder.used.contains parameter.name) =
      initial.declaration.parameters.zipIdx.countP call.lacks := by
  conv_lhs => rw [← List.zipIdx_map_fst 0 initial.declaration.parameters, List.countP_map]
  refine List.countP_congr fun entry member => ?_
  have found := List.mem_zipIdx_iff_getElem?.mp member
  by_cases required : entry.1.isRequired = true
  · have single : entry.1.kind.collects = false := by
      simpa [Parameter.isRequired] using (Bool.and_eq_true_iff.mp required).1
    by_cases nothing : call.values entry.1 entry.2 = []
    · have unused := read.agrees.absent found nothing (by simp [single])
      simp [OrderedCall.lacks, Table.contains, required, nothing, unused]
    · obtain ⟨bound, used, -⟩ := read.agrees.present found nothing
      simp [OrderedCall.lacks, Table.contains, required, nothing, used]
  · simp [OrderedCall.lacks, required]

/-- The positions that are left are a surplus. -/
theorem Read.surplus (callSite : Option NodeId) :
    (binder.stream.head?.toList.map fun surplus =>
        Diagnostic.tooMany initial.declaration call.size (surplus.value.node?.or callSite)) =
      call.surplus initial.declaration callSite := by
  rw [read.ahead, OrderedCall.remaining, FunctionDeclaration.hasBefore_length, OrderedCall.surplus]
  split
  · rfl
  · rw [Supplied.ofPositionals, List.head?_map, List.head?_drop]
    cases call.positionals[initial.declaration.positionalCount]? <;> rfl

end

/-- Everything that is noted about a call adds up to its problems. -/
theorem Read.issues
    (read : binder.drainKeywords.Read initial call initial.declaration.parameters.length)
    (given : initial.given = call.size) :
    ∃ repeated,
      call.Repeats initial.declaration repeated ∧
        binder.finish.issues = call.problems initial.declaration initial.callSite repeated := by
  obtain ⟨repeated, repeats, saw, issues⟩ := read.agrees.notes
  refine ⟨repeated, repeats, ?_⟩
  have unexpected := read.unexpectedKeywords initial.callSite
  have shortage : call.shortage initial.declaration initial.callSite repeated =
      (if call.keywords = [] then
        List.replicate (call.shortBy initial.declaration initial.declaration.parameters.length)
          (.tooFew initial.declaration call.size initial.callSite)
      else []) ++
      (if binder.drainKeywords.sawKeyword && binder.drainKeywords.unmatched.isEmpty &&
          !binder.drainKeywords.sawRepetition then
        List.replicate (initial.declaration.parameters.zipIdx.countP call.lacks)
          (.tooFew initial.declaration call.size initial.callSite)
      else []) := by
    rw [OrderedCall.shortage, ← unexpected, OrderedCall.shortBy_length, read.agrees.sawKeyword, saw]
    by_cases keywords : call.keywords = []
    · simp [keywords]
    · simp [keywords, Table.isEmpty, and_comm]
  rw [finish_eq, issues, read.agrees.declaration, read.agrees.given, read.agrees.callSite,
    read.countP_unused, given, unexpected, read.surplus, OrderedCall.problems, shortage]
  simp only [List.append_assoc]

end Binder

/-! ## Calls without problems -/

namespace OrderedCall

variable {declaration : FunctionDeclaration} {call : OrderedCall} {repeated : List String}

theorem Repeats.eq_nil_iff (repeats : call.Repeats declaration repeated) :
    repeated = [] ↔
      ∀ (index : Nat) (parameter : Parameter),
        declaration.parameters[index]? = some parameter →
        (call.values parameter index).length ≤ 1 := by
  constructor
  · rintro rfl index parameter found
    cases collects : parameter.kind.collects with
    | true => simp [values_eq_nil_of_collects collects]
    | false =>
      have count := repeats.counts index parameter found collects
      rw [List.count_nil] at count
      omega
  · intro once
    refine List.eq_nil_iff_forall_not_mem.mpr fun name member => ?_
    obtain ⟨index, parameter, found, single, rfl⟩ := repeats.names name member
    have count := repeats.counts index parameter found single
    have positive := List.count_pos_iff.mpr member
    have short := once index parameter found
    omega

theorem countP_lacks_eq_zero_iff :
    declaration.parameters.zipIdx.countP call.lacks = 0 ↔
      ∀ (index : Nat) (parameter : Parameter),
        declaration.parameters[index]? = some parameter → parameter.isRequired = true →
        call.values parameter index ≠ [] := by
  rw [List.countP_eq_zero]
  constructor
  · intro none index parameter found required nothing
    have member := List.mk_mem_zipIdx_iff_getElem?.mpr found
    simpa [lacks, required, nothing] using none (parameter, index) member
  · intro supplied entry member
    have found := List.mem_zipIdx_iff_getElem?.mp member
    simp only [lacks, Bool.and_eq_true, List.isEmpty_iff, not_and]
    exact supplied entry.2 entry.1 found

theorem unexpectedKeywords_eq_nil_iff (callSite : Option NodeId) :
    call.unexpectedKeywords declaration callSite = [] ↔
      declaration.has .doubleStarred = true ∨ call.unmatched declaration = [] := by
  unfold unexpectedKeywords
  split
  · next collects => simp [collects]
  · next collects =>
    rw [List.map_eq_nil_iff]
    cases call.unmatched declaration <;> simp [collects, List.eraseDups_cons]

theorem surplus_eq_nil_iff (callSite : Option NodeId) :
    call.surplus declaration callSite = [] ↔
      declaration.has .starred = true ∨ call.positionals.length ≤ declaration.positionalCount := by
  unfold surplus
  split
  · next collects => simp [collects]
  · next collects => simp [collects]

/-- A call has no problems exactly if it fits the parameters. -/
theorem problems_eq_nil_iff (repeats : call.Repeats declaration repeated)
    (callSite : Option NodeId) :
    call.problems declaration callSite repeated = [] ↔ call.Fits declaration := by
  simp only [problems, List.append_eq_nil_iff, List.map_eq_nil_iff, and_assoc]
  rw [repeats.eq_nil_iff, unexpectedKeywords_eq_nil_iff, surplus_eq_nil_iff]
  constructor
  · rintro ⟨once, short, keywords, positionals⟩
    refine ⟨once, countP_lacks_eq_zero_iff.mp ?_, keywords, positionals⟩
    have mentioned : call.keywords = [] ∨
        repeated = [] ∧ call.unexpectedKeywords declaration callSite = [] :=
      .inr ⟨repeats.eq_nil_iff.mpr once, (unexpectedKeywords_eq_nil_iff callSite).mpr keywords⟩
    rw [shortage, if_pos mentioned] at short
    simpa using short
  · rintro ⟨once, supplied, keywords, positionals⟩
    refine ⟨once, ?_, keywords, positionals⟩
    unfold shortage
    rw [countP_lacks_eq_zero_iff.mpr supplied]
    simp

end OrderedCall

end TypeInference
