import TypeInference.Proofs.Binding.Agreement
import TypeInference.Proofs.Binding.Move

/-!
# Binding keywords

A keyword is one more value of the parameter that it names, or one more entry that
names none.  It finds its parameter where the binder left it: among the results if
the parameter has a place there, and in the table of supplied parameters.
-/

namespace TypeInference

variable {place : Nat} {target : Parameter} {entries : List (String × Deferred)}

/-! ## One keyword -/

theorem OrderedCall.gives_withKeyword (ordered : declaration.IsOrdered)
    (declared : declaration.Lists place target)
    (single : target.kind.collects = false) (call : OrderedCall) (named : entry.1 = target.name) :
    (call.withKeyword entry).Gives call declaration place target entry.2 where
  declared := declared
  single := single
  grown := values_withKeyword_self named single
  same := fun found different => values_withKeyword_of_ne fun same =>
    different (ordered.eq_of_name found declared (same.symm.trans named))
  positionals := rfl
  unmatched := by
    rw [unmatched_withKeyword, named, ordered.parameter?_of_name declared]
    simp

namespace Binder.Agrees

variable {binder initial : Binder} {call : OrderedCall} {count : Nat}
variable {entry : String × Deferred}

/-- A keyword that names no parameter. -/
theorem insertUnmatched (agrees : binder.Agrees initial call count)
    (fills : call.Fills initial.declaration count)
    (unknown : initial.declaration.parameter? entry.1 = none) :
    Agrees
      { binder with
        sawKeyword := true
        unmatched := binder.unmatched.insert entry.1 entry.2 }
      initial (call.withKeyword entry) count := by
  have same : ∀ {index : Nat} {parameter : Parameter},
      initial.declaration.parameters[index]? = some parameter →
      (call.withKeyword entry).values parameter index = call.values parameter index :=
    fun found => OrderedCall.values_withKeyword_of_ne
      (Ne.symm ((FunctionDeclaration.parameter?_eq_none_iff _ _).mp unknown _ _ found))
  have unmatched := agrees.unmatched
  rw [fills.hasBefore, if_neg Bool.false_ne_true] at unmatched
  obtain ⟨repeated, repeats, saw, issues⟩ := agrees.notes.of_fills fills
  have noted := notes_withKeyword (repeats.congr same) count
  rw [← saw, ← issues] at noted
  refine agrees.transfer same ?_ ?_ (call.true_eq_not_isEmpty_withKeyword entry) noted
  · intro index parameter bound found before nothing follows
    have starred := (fills index parameter found before).resolve_right (not_not_intro nothing)
    refine follows.congr (same found) (fun _ => rfl) fun kind => ?_
    rw [starred] at kind
    cases kind
  · rw [fills.hasBefore, if_neg Bool.false_ne_true, OrderedCall.unmatched_withKeyword,
      if_pos unknown, Table.ofEntries_concat, unmatched]

section

variable (agrees : binder.Agrees initial call count) (ordered : initial.declaration.IsOrdered)
  (fills : call.Fills initial.declaration count)

include agrees ordered fills

/-- The first value of a parameter. -/
theorem supply
    (gives : (call.withKeyword entry).Gives call initial.declaration place target entry.2)
    (unused : binder.used.get? target.name = none) :
    ({ binder with sawKeyword := true }.supply target place entry.2).Agrees initial
      (call.withKeyword entry) count := by
  have nothing := agrees.values_of_unused gives.declared unused
  -- The parameter has no place yet, because everything that has one is supplied.
  have ahead : ¬place < count := by
    intro before
    rcases fills place target gives.declared before with starred | given
    · exact ParameterKind.ne_of_collects gives.single rfl starred
    · exact given nothing
  have unchanged : modifyFirst (fun present => present.index == place && present.isDefault)
      (fun _ => ⟨binder.function, place, target.name, target.kind, entry.2, false⟩)
      binder.result = binder.result := by
    refine modifyFirst_eq_self fun bound member => ?_
    obtain ⟨index, found⟩ := List.mem_iff_getElem?.mp member
    have before := (List.getElem?_eq_some_iff.mp found).1
    rw [agrees.length] at before
    have different : index ≠ place := by omega
    simp [agrees.index_of_getElem? found, different]
  have isFor : BoundParameter.IsFor initial.function target place
      ⟨binder.function, place, target.name, target.kind, entry.2, false⟩ :=
    ⟨agrees.function, rfl, rfl, rfl⟩
  have supplied : BoundParameter.IsSupplied (call.values target place ++ [entry.2])
      ⟨binder.function, place, target.name, target.kind, entry.2, false⟩ := by
    rw [nothing]
    exact ⟨rfl, .one entry.2⟩
  obtain ⟨repeated, repeats, saw, issues⟩ := agrees.notes.of_fills fills
  have given := agrees.give ordered gives isFor supplied agrees.length (fun _ _ => rfl)
    (fun before => absurd before ahead) (call.true_eq_not_isEmpty_withKeyword entry)
    (notes_withKeyword (repeats.first gives nothing) count) binder.nextCell
  rw [← saw, ← issues] at given
  simpa only [Binder.supply, unchanged] using given

/-- One more value of a parameter. -/
theorem widen (gives : (call.withKeyword entry).Gives call initial.declaration place target entry.2)
    (used : binder.used.get? target.name = some existing) :
    ({ binder with sawKeyword := true }.widen target.name place existing entry.2).Agrees initial
      (call.withKeyword entry) count := by
  have given := agrees.values_of_used gives.declared (by simp [gives.single]) used
  obtain ⟨bound, found, boundFor, boundSupplied⟩ := agrees.present gives.declared given
  rw [used] at found
  cases found
  have placed : ∀ index item, binder.result[index]? = some item →
      ((item.index == place) = true ↔ index = place) := by
    intro index item itemFound
    rw [agrees.index_of_getElem? itemFound]
    exact beq_iff_eq
  have isFor : BoundParameter.IsFor initial.function target place
      { existing with value := .merged ⟨binder.nextCell⟩ [existing.value, entry.2] } :=
    ⟨boundFor.function, boundFor.index, boundFor.name, boundFor.kind⟩
  have supplied : BoundParameter.IsSupplied (call.values target place ++ [entry.2])
      { existing with value := .merged ⟨binder.nextCell⟩ [existing.value, entry.2] } :=
    ⟨boundSupplied.1, boundSupplied.2.more _ entry.2⟩
  obtain ⟨repeated, repeats, saw, issues⟩ := agrees.notes.of_fills fills
  have noted := notes_withKeyword (repeats.again ordered gives given) count
  have again : (!(repeated ++ [target.name]).isEmpty) = true := by simp
  rw [List.map_append, ← issues, again] at noted
  refine agrees.give ordered gives isFor supplied (length_modifyFirst.trans agrees.length)
    (fun index different => ?_) (fun before => ?_) (call.true_eq_not_isEmpty_withKeyword entry) ?_
    (binder.nextCell + 1)
  · exact (getElem?_modifyFirst placed index).trans (if_neg different)
  · refine (getElem?_modifyFirst placed place).trans ?_
    rw [if_pos rfl, agrees.kept gives.declared before given, used]
    rfl
  · simpa [Binder.reportRepetition, Binder.report, agrees.declaration, agrees.callSite] using noted

theorem bindKeyword (single : ∀ parameter ∈ initial.declaration.parameters,
      parameter.name = entry.1 → parameter.kind.collects = false) :
    (binder.bindKeyword entry.1 entry.2).Agrees initial (call.withKeyword entry) count := by
  simp only [Binder.bindKeyword]
  cases looked : binder.declaration.parameter? entry.1 with
  | none =>
    rw [agrees.declaration] at looked
    exact agrees.insertUnmatched fills looked
  | some target =>
    rw [agrees.declaration] at looked
    obtain ⟨declared, named⟩ := FunctionDeclaration.getElem?_of_parameter? looked
    have targetSingle := single target.1 (List.mem_of_getElem? declared) named
    have gives := OrderedCall.gives_withKeyword ordered declared targetSingle call named.symm
    rw [← named]
    cases found : binder.used.get? target.1.name with
    | none => exact agrees.supply ordered fills gives found
    | some existing => exact agrees.widen ordered fills gives found

end

/-! ## All keywords -/

theorem foldl_bindKeyword (agrees : binder.Agrees initial call count)
    (ordered : initial.declaration.IsOrdered) (fills : call.Fills initial.declaration count)
    (single : ∀ entry ∈ entries, ∀ parameter ∈ initial.declaration.parameters,
      parameter.name = entry.1 → parameter.kind.collects = false) :
    (entries.foldl (fun binder entry => binder.bindKeyword entry.1 entry.2) binder).Agrees initial
      { call with keywords := call.keywords ++ entries } count := by
  induction entries generalizing binder call with
  | nil =>
    rw [List.append_nil]
    exact agrees
  | cons entry rest ih =>
    rw [List.forall_mem_cons] at single
    have bound := agrees.bindKeyword ordered fills single.1
    have restBound := ih bound (fills.withKeyword entry) single.2
    simpa [OrderedCall.withKeyword] using restBound

end Binder.Agrees

namespace Binder

theorem bindLeadingKeywords_ofKeywords (binder : Binder) (entries : List (String × Deferred)) :
    binder.bindLeadingKeywords (Supplied.ofKeywords entries) =
      { entries.foldl (fun binder entry => binder.bindKeyword entry.1 entry.2) binder with
        stream := [] } := by
  induction entries generalizing binder with
  | nil => rfl
  | cons entry rest ih => exact ih _

theorem foldl_bindNamed (binder : Binder) (values : List Deferred)
    (entries : List (String × Deferred)) :
    (Supplied.ofPositionals values ++ Supplied.ofKeywords entries).foldl bindNamed binder =
      entries.foldl (fun binder entry => binder.bindKeyword entry.1 entry.2) binder := by
  have positional : (Supplied.ofPositionals values).foldl bindNamed binder = binder := by
    induction values with
    | nil => rfl
    | cons value rest ih => exact ih
  rw [List.foldl_append, positional, Supplied.ofKeywords, List.foldl_map]
  rfl

theorem drainKeywords_of_stream {binder : Binder}
    (ahead : binder.stream = Supplied.ofPositionals values ++ Supplied.ofKeywords entries) :
    binder.drainKeywords =
      { entries.foldl (fun binder entry => binder.bindKeyword entry.1 entry.2) binder with
        stream := Supplied.ofPositionals values } := by
  have left : binder.stream.filter (fun supplied => supplied.keyword.isNone) =
      Supplied.ofPositionals values := by
    rw [ahead, List.filter_append]
    simp [Supplied.ofPositionals, Supplied.ofKeywords, List.filter_map, Function.comp_def]
  rw [drainKeywords, left, ahead, foldl_bindNamed]

end Binder

end TypeInference
