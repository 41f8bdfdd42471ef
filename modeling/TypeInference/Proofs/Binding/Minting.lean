import TypeInference.Proofs.Binding.Holding
import TypeInference.Proofs.Progress

/-!
# Unpacked values have cells of their own

Every value that unpacking supplies is deferred in a new cell, and a merge takes the values
that stand at one position of several rows, each of which stands at no other position.  So
no cell is found twice in the values that a call supplies.
-/

namespace TypeInference

open Inference

variable {α : Type}

/-! ## Steps that mint cells -/

/--
However often a cell occurs in the answer of a step, that is no more than some number of
occurrences before the step, and one more if the step has begun the cell.
-/
def Mints {α : Type} (cell : CellId) (before : Nat) (step : Inference α) (weigh : α → Nat) :
    Prop :=
  ∀ state answer after, step state = .ok (answer, after) →
    state.cells.size ≤ after.cells.size ∧
      weigh answer ≤ before + cell.between state.cells.size after.cells.size

section Steps

variable {α β : Type} {cell : CellId} {before : Nat} {weigh : α → Nat} {weighOther : β → Nat}

theorem mints_pure (light : weigh answer ≤ before) : Mints cell before (pure answer) weigh := by
  rintro state _ _ ⟨⟩
  exact ⟨Nat.le_refl _, Nat.le_add_right_of_le light⟩

variable {first : Inference α} {next : α → Inference β}

theorem Mints.bind (firstMints : Mints cell before first weigh)
    (nextMints : ∀ answer, Mints cell (weigh answer) (next answer) weighOther) :
    Mints cell before (first >>= next) weighOther := by
  intro state answer after succeeds
  obtain ⟨middle, between, started, finished⟩ := bind_eq_ok_iff.mp succeeds
  obtain ⟨firstGrows, firstLight⟩ := firstMints _ _ _ started
  obtain ⟨nextGrows, nextLight⟩ := nextMints middle _ _ _ finished
  have added := cell.between_add firstGrows nextGrows
  exact ⟨firstGrows.trans nextGrows, by omega⟩

/-- What was there before and is not part of a step stays as it is. -/
theorem Mints.beside (mints : Mints cell before step weigh) (others : Nat) :
    Mints cell (others + before) step fun answer => others + weigh answer := by
  intro state answer after succeeds
  obtain ⟨grows, light⟩ := mints _ _ _ succeeds
  refine ⟨grows, ?_⟩
  rw [Nat.add_assoc]
  exact Nat.add_le_add_left light others

/-- A step that supplies nothing, before one that mints. -/
theorem Mints.after (conserves : Conserves State.Proceeds first)
    (nextMints : ∀ answer, Mints cell before (next answer) weighOther) :
    Mints cell before (first >>= next) weighOther := by
  have firstMints : Mints cell before first fun _ => before := fun _ _ _ succeeds =>
    ⟨(conserves _ _ _ succeeds).cells, Nat.le_add_right _ _⟩
  exact firstMints.bind nextMints

theorem mints_mapM (each : ∀ item, Mints cell (weighItem item) (visit item) weighOther)
    (items : List α) :
    Mints cell (items.map weighItem).sum (items.mapM visit) fun answers =>
      (answers.map weighOther).sum := by
  induction items with
  | nil => exact mints_pure (Nat.le_refl _)
  | cons item rest ih =>
    simp only [List.mapM_cons, List.map_cons, List.sum_cons]
    have first := (each item).beside (rest.map weighItem).sum
    rw [Nat.add_comm] at first
    refine first.bind fun answer => ?_
    rw [Nat.add_comm]
    refine (ih.beside (weighOther answer)).bind fun answers => ?_
    exact mints_pure (Nat.le_refl _)

theorem mints_throughSink
    (each : ∀ item sink, Mints cell 0 (visit item sink) fun answer => weighOther answer.1)
    (items : List α) (sink : Diagnostics) :
    Mints cell 0 (throughSink visit items sink) fun answer => (answer.1.map weighOther).sum := by
  induction items generalizing sink with
  | nil => exact mints_pure (Nat.le_refl _)
  | cons item rest ih =>
    refine (each item sink).bind fun first => ?_
    exact ((ih first.2).beside (weighOther first.1)).bind fun others => mints_pure (Nat.le_refl _)

end Steps

/-! ## Rows and columns -/

section Columns

variable {α : Type}

theorem le_foldl_max (lengths : List Nat) (longest : Nat) :
    longest ≤ lengths.foldl max longest ∧
      ∀ length ∈ lengths, length ≤ lengths.foldl max longest := by
  induction lengths generalizing longest with
  | nil => exact ⟨Nat.le_refl _, List.forall_mem_nil _⟩
  | cons length rest ih =>
    obtain ⟨atLeast, all⟩ := ih (max longest length)
    exact ⟨(Nat.le_max_left _ _).trans atLeast,
      List.forall_mem_cons.mpr ⟨(Nat.le_max_right _ _).trans atLeast, all⟩⟩

/-- A row weighs what it has at its positions. -/
theorem sum_range_row (weigh : α → Nat) {row : List α} {count : Nat} (long : row.length ≤ count) :
    ((List.range count).map fun position => (row[position]?.map weigh).getD 0).sum =
      (row.map weigh).sum := by
  induction row generalizing count with
  | nil => simp
  | cons item rest ih =>
    obtain ⟨less, rfl⟩ : ∃ less, count = less + 1 :=
      ⟨count - 1, by rw [List.length_cons] at long; omega⟩
    rw [List.range_succ_eq_map, List.map_cons, List.map_map, List.sum_cons, List.map_cons,
      List.sum_cons, ← ih (Nat.le_of_succ_le_succ long)]
    rfl

/-- Columns weigh what their rows do. -/
theorem sum_columns (weigh : α → Nat) (rows : List (List α)) :
    ((Engine.columns rows).map fun column => (column.map weigh).sum).sum =
      (rows.map fun row => (row.map weigh).sum).sum := by
  have long : ∀ row ∈ rows, row.length ≤ (rows.map List.length).foldl max 0 := fun row member =>
    (le_foldl_max _ 0).2 _ (List.mem_map_of_mem member)
  unfold Engine.columns
  generalize (rows.map List.length).foldl max 0 = count at long
  rw [List.map_map]
  induction rows with
  | nil => simp [Function.comp_def]
  | cons row rest ih =>
    rw [List.forall_mem_cons] at long
    rw [List.map_cons, List.sum_cons, ← ih long.2,
      ← sum_range_row weigh long.1, ← List.sum_map_add]
    refine congrArg List.sum (List.map_congr_left fun position _ => ?_)
    simp only [Function.comp_apply, List.filterMap_cons]
    cases row[position]? with
    | none => simp
    | some item => simp

end Columns

/-! ## Deferred values -/

section Deferring

variable {cell : CellId}

theorem mints_freshCell {next : CellId → α}
    (light : ∀ own, weigh (next own) ≤ before + if own = cell then 1 else 0) :
    Mints cell before (freshCell >>= fun own => pure (next own)) weigh := by
  rintro state _ _ ⟨⟩
  rw [Array.size_push, CellId.between_succ]
  exact ⟨Nat.le_succ _, light _⟩

theorem mints_deferNode (node : NodeId) :
    Mints cell 0 (Engine.deferNode node) (Deferred.occurrences cell) :=
  mints_freshCell fun _ => (Nat.zero_add _).ge

theorem mints_deferKnown (set : TypeSet) :
    Mints cell 0 (Engine.deferKnown set) (Deferred.occurrences cell) :=
  mints_freshCell fun _ => (Nat.zero_add _).ge

theorem mints_deferMerged (parts : List Deferred) :
    Mints cell (Deferred.occurrencesInAll cell parts) (Engine.deferMerged parts)
      (Deferred.occurrences cell) := by
  unfold Engine.deferMerged
  split
  · exact mints_pure (Nat.le_refl _)
  · refine mints_freshCell fun own => ?_
    rw [Deferred.occurrences]
    omega

theorem mints_mergeRows (rows : List (List Deferred)) :
    Mints cell (rows.map (Deferred.occurrencesInAll cell)).sum (Engine.mergeRows rows)
      (Deferred.occurrencesInAll cell) := by
  have inAll : Deferred.occurrencesInAll cell =
      fun parts => (parts.map (Deferred.occurrences cell)).sum :=
    funext (Deferred.occurrencesInAll_eq cell)
  have merged : Mints cell ((Engine.columns rows).map (Deferred.occurrencesInAll cell)).sum
      (Engine.mergeRows rows) fun values => (values.map (Deferred.occurrences cell)).sum :=
    mints_mapM mints_deferMerged (Engine.columns rows)
  rw [inAll, sum_columns] at merged
  rw [inAll]
  exact merged

/-- One new value for each item. -/
theorem mints_mapM_deferred (each : ∀ item, Mints cell 0 (visit item) (Deferred.occurrences cell))
    (items : List α) :
    Mints cell 0 (items.mapM visit) (Deferred.occurrencesInAll cell) := by
  have mapped := mints_mapM each items
  rw [List.map_const', List.sum_replicate, Nat.nsmul_eq_mul, Nat.mul_zero] at mapped
  intro state values after succeeds
  rw [Deferred.occurrencesInAll_eq]
  exact mapped state values after succeeds

/-- One new supplied value for each item. -/
theorem mints_mapM_supplied
    (each : ∀ item, Mints cell 0 (visit item) fun supplied => supplied.value.occurrences cell)
    (items : List α) :
    Mints cell 0 (items.mapM visit) (Supplied.occurrences cell) := by
  have mapped := mints_mapM each items
  rw [List.map_const', List.sum_replicate, Nat.nsmul_eq_mul, Nat.mul_zero] at mapped
  exact mapped

end Deferring

/-! ## Iteration -/

section Engines

variable {engine : Engine} (reads : engine.Reads State.Proceeds) {cell : CellId}

include reads

theorem mints_tupleElements (generics : Generics) :
    Mints cell 0 (engine.tupleElements generics) (Deferred.occurrencesInAll cell) := by
  refine .after (reads.subscripts generics) fun arguments => ?_
  have instances (set : TypeSet) : Conserves State.Proceeds (engine.instances set) :=
    conserves_of_fits State.Proceeds.conserved reads (Pairing.fits_instances set)
  split
  · refine .after (instances _) fun element => ?_
    exact (mints_deferKnown element).bind fun _ => mints_pure (Nat.le_refl _)
  · exact mints_mapM_deferred (fun slot => .after (instances slot) mints_deferKnown) _

omit reads in
theorem mints_keyElements (keys : List String) :
    Mints cell 0 (Engine.keyElements keys) (Deferred.occurrencesInAll cell) :=
  mints_mapM_deferred (fun _ => .after (State.Proceeds.conserved.internSet _) mints_deferKnown) keys

omit reads in
/-- Elements that are found. -/
theorem mints_found (mints : Mints cell 0 step (Deferred.occurrencesInAll cell)) :
    Mints cell 0 (step >>= fun row => pure (some row)) fun found =>
      Deferred.occurrencesInAll cell (found.getD []) :=
  mints.bind fun _ => mints_pure (Nat.le_refl _)

theorem mints_instanceElements (id : ValueId) :
    Mints cell 0 (engine.instanceElements id) fun found =>
      Deferred.occurrencesInAll cell (found.getD []) := by
  have finishes (element : TypeSet) :
      Mints cell 0
        (engine.instances element >>= fun set =>
          Engine.deferKnown set >>= fun deferred => pure (some [deferred]))
        fun found => Deferred.occurrencesInAll cell (found.getD []) :=
    .after (conserves_of_fits State.Proceeds.conserved reads (Pairing.fits_instances element))
      fun set => (mints_deferKnown set).bind fun _ => mints_pure (Nat.le_refl _)
  refine .after (conserves_of_fits State.Proceeds.conserved reads (Pairing.fits_classOf id))
    fun class? => ?_
  cases class? with
  | none => exact mints_pure (Nat.le_refl _)
  | some class_ =>
    refine .after (conserves_of_fits State.Proceeds.conserved reads
      (Pairing.fits_ancestor? class_ Builtin.iterable)) fun iterable? => ?_
    cases iterable? with
    | none => exact mints_pure (Nat.le_refl _)
    | some iterable =>
      refine .after (State.Proceeds.conserved.value iterable) fun stored => ?_
      cases stored with
      | genericClass class_ generics =>
        exact .after (reads.subscripts generics) fun arguments => finishes _
      | _ => exact finishes ∅

theorem mints_elements (id : ValueId) :
    Mints cell 0 (engine.elements id) fun found =>
      Deferred.occurrencesInAll cell (found.getD []) := by
  refine .after (State.Proceeds.conserved.value id) fun stored => ?_
  cases stored with
  | tuple generics => exact mints_found (mints_tupleElements reads generics)
  | packedTuple items | typeList items =>
    exact mints_found (mints_mapM_deferred mints_deferKnown items)
  | packedDict entries => exact mints_found (mints_keyElements _)
  | typedDict class_ =>
    exact .after (conserves_of_fits State.Proceeds.conserved reads
      (Pairing.fits_typedDictKeys class_)) fun keys => mints_found (mints_keyElements keys)
  | literal text =>
    refine .after (State.Proceeds.conserved.internSet _) fun element => ?_
    exact (mints_deferKnown element).bind fun _ => mints_pure (Nat.le_refl _)
  | instanceOf class_ generics => exact mints_instanceElements reads id
  | _ => exact mints_pure (Nat.le_refl _)

/-! ## Unpacking -/

theorem mints_starredRow (function : Option FunctionId) (node : NodeId) (id : ValueId)
    (sink : Diagnostics) :
    Mints cell 0 (engine.starredRow function node id sink) fun answer =>
      Deferred.occurrencesInAll cell answer.1 := by
  refine (mints_elements reads id).bind fun found => ?_
  cases found with
  | some items => exact mints_pure (Nat.le_refl _)
  | none =>
    exact .after
      (conserves_reportUnpackable State.Proceeds.conserved reads function _ node _ id sink)
      fun _ => mints_pure (Nat.le_refl _)

theorem mints_doubleStarredRow (function : Option FunctionId) (node : NodeId) (id : ValueId)
    (sink : Diagnostics) :
    Mints cell 0 (engine.doubleStarredRow function node id sink) fun answer =>
      Supplied.occurrences cell answer.1 := by
  have refuses : Mints cell 0 (do
      return ([], ← engine.opaqueEntries function node id sink) :
        Inference (List Supplied × Diagnostics)) fun answer =>
      Supplied.occurrences cell answer.1 :=
    .after (conserves_reportUnpackable State.Proceeds.conserved reads function _ node _ id sink)
      fun _ => mints_pure (Nat.le_refl _)
  refine .after (State.Proceeds.conserved.value id) fun stored => ?_
  cases stored with
  | packedDict entries =>
    refine (mints_mapM_supplied (fun entry => ?_) entries).bind fun _ => mints_pure (Nat.le_refl _)
    exact (mints_deferKnown entry.2).bind fun _ => mints_pure (Nat.le_refl _)
  | typedDict class_ =>
    refine .after (conserves_of_fits State.Proceeds.conserved reads
      (Pairing.fits_typedDictKeys class_)) fun keys => ?_
    refine (mints_mapM_supplied (fun key => ?_) keys).bind fun _ => mints_pure (Nat.le_refl _)
    refine .after (conserves_of_fits State.Proceeds.conserved reads
      (Pairing.fits_typedDictField class_ key)) fun set => ?_
    exact (mints_deferKnown set).bind fun _ => mints_pure (Nat.le_refl _)
  | instanceOf class_ generics =>
    refine .after (State.Proceeds.conserved.bind ?_ fun classObject => conserves_of_fits
      State.Proceeds.conserved reads (Pairing.fits_isSubclass classObject Builtin.mapping))
      fun isMapping => ?_
    · exact conserves_of_fits State.Proceeds.conserved reads (Pairing.fits_intern _)
    · cases isMapping with
      | true =>
        refine .after (conserves_of_fits State.Proceeds.conserved reads
          (Pairing.fits_classDeclaration class_)) fun declaration => ?_
        exact .after (State.Proceeds.conserved.emit _) fun _ => mints_pure (Nat.le_refl _)
      | false => exact refuses
  | any => exact mints_pure (Nat.le_refl _)
  | _ => exact refuses

omit reads in
theorem occurrences_ofPositional (cell : CellId) (values : List Deferred) :
    Supplied.occurrences cell (values.map Engine.Supplied.ofPositional) =
      Deferred.occurrencesInAll cell values := by
  rw [Deferred.occurrencesInAll_eq, Supplied.occurrences, List.map_map]
  rfl

omit reads in
theorem occurrences_flatten (cell : CellId) (rows : List (List Supplied)) :
    Supplied.occurrences cell rows.flatten = (rows.map (Supplied.occurrences cell)).sum := by
  induction rows with
  | nil => rfl
  | cons row rest ih =>
    rw [List.flatten_cons, List.map_cons, List.sum_cons, ← ih,
      Supplied.occurrences, List.map_append, List.sum_append]
    rfl

theorem mints_expandArgument (function : Option FunctionId) (argument : Argument)
    (sink : Diagnostics) :
    Mints cell 0 (engine.expandArgument function argument sink) fun answer =>
      Supplied.occurrences cell answer.1 := by
  cases argument with
  | positional node => exact (mints_deferNode node).bind fun _ => mints_pure (Nat.le_refl _)
  | keyword name node => exact mints_pure (Nat.le_refl _)
  | starred node =>
    refine .after (reads.asks _) fun values => ?_
    refine (mints_throughSink (mints_starredRow reads function node) values.members sink).bind
      fun rows => ?_
    refine (mints_mergeRows rows.1).bind fun merged => mints_pure ?_
    exact (occurrences_ofPositional cell merged).le
  | doubleStarred node =>
    refine .after (reads.asks _) fun values => ?_
    refine (mints_throughSink (mints_doubleStarredRow reads function node) values.members
      sink).bind fun rows => mints_pure ?_
    exact (occurrences_flatten cell rows.1).le

/-- However often a cell occurs in unpacked values, unpacking has begun it that often. -/
theorem mints_unpack (arguments : Arguments) (function : Option FunctionId) (sink : Diagnostics) :
    Mints cell 0 (engine.unpack arguments function sink) fun answer =>
      Supplied.occurrences cell answer.1 := by
  induction arguments generalizing sink with
  | values sets =>
    refine (mints_mapM_supplied (fun set => ?_) sets).bind fun _ => mints_pure (Nat.le_refl _)
    exact (mints_deferKnown set).bind fun _ => mints_pure (Nat.le_refl _)
  | bound receiver arguments ih =>
    refine (mints_deferKnown (.singleton receiver)).bind fun first => ?_
    exact ((ih sink).beside (first.occurrences cell)).bind fun others => mints_pure (Nat.le_refl _)
  | written arguments callSite =>
    refine (mints_throughSink (mints_expandArgument reads function) _ sink).bind fun expanded => ?_
    have named : Mints cell 0
        ((arguments.filterMap Argument.keyword?).mapM fun entry => (do
          return (⟨some entry.1, ← Engine.deferNode entry.2⟩ : Supplied) : Inference Supplied))
        (Supplied.occurrences cell) :=
      mints_mapM_supplied
        (fun entry : String × NodeId =>
          (mints_deferNode entry.2).bind fun _ => mints_pure (Nat.le_refl _)) _
    refine (named.beside (expanded.1.map (Supplied.occurrences cell)).sum).bind fun others =>
      mints_pure (Nat.le_of_eq ?_)
    rw [← occurrences_flatten, Supplied.occurrences, List.map_append, List.sum_append]
    rfl

end Engines

end TypeInference
