import TypeInference.Proofs.Binding.Move
import TypeInference.Proofs.Binding.Rule
import TypeInference.Proofs.Table

/-!
# Values that bound parameters hold

A bound parameter holds a value if it is bound to it, or to a merge or a collection that
holds it.  Every deferred value has a cell, and if the values of a call have cells of their
own, then no move of a binder ever has a cell in two places.  What is supplied to a
parameter is found again in its place of the result.
-/

namespace TypeInference

variable {index last first : Nat} {supplied : Supplied} {cell : CellId}
  {before rest : List Supplied}

/-! ## Cells -/

namespace CellId

/-- How often a cell is among those that are begun from one number of cells to another. -/
def between (cell : CellId) (first last : Nat) : Nat :=
  if first ≤ cell.index ∧ cell.index < last then 1 else 0

theorem between_le_one (cell : CellId) (first last : Nat) : cell.between first last ≤ 1 := by
  unfold between
  split <;> omega

theorem between_eq_zero_of_le (later : last ≤ cell.index) (first : Nat) :
    cell.between first last = 0 :=
  if_neg (by omega)

theorem between_eq_zero_of_lt (earlier : cell.index < first) (last : Nat) :
    cell.between first last = 0 :=
  if_neg (by omega)

theorem between_succ (cell : CellId) (first : Nat) :
    cell.between first (first + 1) = if (⟨first⟩ : CellId) = cell then 1 else 0 := by
  obtain ⟨index⟩ := cell
  refine if_congr ?_ rfl rfl
  simp only [mk.injEq]
  omega

theorem between_add (cell : CellId) (before : first ≤ middle) (after : middle ≤ last) :
    cell.between first middle + cell.between middle last = cell.between first last := by
  unfold between
  split <;> split <;> split <;> omega

end CellId

/-! ## Held values -/

namespace Deferred

/-- A deferred value is another one, or holds it in one of its parts. -/
inductive Holds : Deferred → Deferred → Prop
  | self (value : Deferred) : Holds value value
  | merged {cell : CellId} {parts : List Deferred} {part value : Deferred}
      (member : part ∈ parts) (holds : Holds part value) : Holds (.merged cell parts) value
  | packedTuple {cell : CellId} {items : List Deferred} {item value : Deferred}
      (member : item ∈ items) (holds : Holds item value) : Holds (.packedTuple cell items) value
  | packedDict {cell : CellId} {entries : List (String × Deferred)} {entry : String × Deferred}
      {value : Deferred} (member : entry ∈ entries) (holds : Holds entry.2 value) :
      Holds (.packedDict cell entries) value

mutual

/-- How often a cell occurs in a deferred value. -/
def occurrences (cell : CellId) : Deferred → Nat
  | .node own _ | .known own _ | .unknown own => if own = cell then 1 else 0
  | .merged own parts | .packedTuple own parts =>
    (if own = cell then 1 else 0) + occurrencesInAll cell parts
  | .packedDict own entries => (if own = cell then 1 else 0) + occurrencesInEntries cell entries

def occurrencesInAll (cell : CellId) : List Deferred → Nat
  | [] => 0
  | part :: rest => occurrences cell part + occurrencesInAll cell rest

/-- How often a cell occurs in keyed deferred values. -/
def occurrencesInEntries (cell : CellId) : List (String × Deferred) → Nat
  | [] => 0
  | (_, part) :: rest => occurrences cell part + occurrencesInEntries cell rest

end

variable {cell : CellId}

theorem occurrencesInAll_eq (cell : CellId) (parts : List Deferred) :
    occurrencesInAll cell parts = (parts.map (occurrences cell)).sum := by
  induction parts with
  | nil => rfl
  | cons part rest ih =>
    rw [occurrencesInAll, ih, List.map_cons, List.sum_cons]

theorem occurrencesInEntries_eq (cell : CellId) (entries : List (String × Deferred)) :
    occurrencesInEntries cell entries =
      (entries.map fun entry => entry.2.occurrences cell).sum := by
  induction entries with
  | nil => rfl
  | cons entry rest ih =>
    rw [occurrencesInEntries, ih, List.map_cons, List.sum_cons]

theorem occurrences_merged (cell own : CellId) (parts : List Deferred) :
    (merged own parts).occurrences cell =
      (if own = cell then 1 else 0) + (parts.map (occurrences cell)).sum := by
  rw [occurrences, occurrencesInAll_eq]

theorem occurrences_packedTuple (cell own : CellId) (items : List Deferred) :
    (packedTuple own items).occurrences cell =
      (if own = cell then 1 else 0) + (items.map (occurrences cell)).sum := by
  rw [occurrences, occurrencesInAll_eq]

theorem occurrences_packedDict (cell own : CellId) (entries : List (String × Deferred)) :
    (packedDict own entries).occurrences cell =
      (if own = cell then 1 else 0) + (entries.map fun entry => entry.2.occurrences cell).sum := by
  rw [occurrences, occurrencesInEntries_eq]

theorem occurrences_cell_pos (value : Deferred) : 0 < value.occurrences value.cell := by
  cases value with
  | _ => simp [occurrences, Deferred.cell]

/-- The cell of a value occurs wherever the value is held. -/
theorem Holds.occurrences_pos {value part : Deferred} (holds : value.Holds part) :
    0 < value.occurrences part.cell := by
  have sum_pos : ∀ {weights : List Nat} {weight : Nat}, weight ∈ weights → 0 < weight →
      0 < weights.sum := fun member positive =>
    Nat.lt_of_lt_of_le positive (List.single_le_sum (by simp) _ member)
  induction holds with
  | self value => exact value.occurrences_cell_pos
  | merged member _ ih =>
    rw [occurrences_merged]
    exact Nat.add_pos_right _ (sum_pos (List.mem_map_of_mem member) ih)
  | packedTuple member _ ih =>
    rw [occurrences_packedTuple]
    exact Nat.add_pos_right _ (sum_pos (List.mem_map_of_mem member) ih)
  | packedDict member _ ih =>
    rw [occurrences_packedDict]
    exact Nat.add_pos_right _ (sum_pos (List.mem_map.mpr ⟨_, member, rfl⟩) ih)

end Deferred

def Supplied.occurrences (cell : CellId) (stream : List Supplied) : Nat :=
  (stream.map fun supplied => supplied.value.occurrences cell).sum

/-! ## One place for every cell -/

namespace Binder

/-- How often a cell occurs in what a binder has ahead, used or unmatched. -/
def occurrences (cell : CellId) (binder : Binder) : Nat :=
  Supplied.occurrences cell binder.stream +
    binder.used.weight (fun bound => bound.value.occurrences cell) +
    binder.unmatched.weight (Deferred.occurrences cell)

/-- No cell has two places, and a cell that is still to come has none. -/
structure Separates (binder : Binder) : Prop where
  once : ∀ cell, binder.occurrences cell ≤ 1
  fresh : ∀ cell : CellId, binder.nextCell ≤ cell.index → binder.occurrences cell = 0

variable {binder after : Binder}

theorem mem_takeOut (member : other ∈ before ++ rest) : other ∈ before ++ supplied :: rest := by
  rcases List.mem_append.mp member with inBefore | inRest
  · exact List.mem_append_left _ inBefore
  · exact List.mem_append_right _ (List.mem_cons_of_mem _ inRest)

theorem occurrences_takeOut {stream : List Supplied} (ahead : stream = before ++ supplied :: rest)
    (cell : CellId) :
    Supplied.occurrences cell stream =
      Supplied.occurrences cell (before ++ rest) + supplied.value.occurrences cell := by
  simp only [ahead, Supplied.occurrences, List.map_append, List.map_cons, List.sum_append,
    List.sum_cons]
  omega

/-- A parameter that is bound to a value for the first time takes over its cells. -/
theorem occurrences_bindValue (unused : binder.used.get? parameter.name = none) (index : Nat)
    (value : Deferred) (cell : CellId) :
    (binder.bindValue parameter index value).occurrences cell =
      binder.occurrences cell + value.occurrences cell := by
  have inserted := Table.weight_insert_of_none unused
    (fun bound => bound.value.occurrences cell)
    ⟨binder.function, index, parameter.name, parameter.kind, value, false⟩
  simp only [occurrences, bindValue, append, inserted]
  omega

/-- A move begins at most one cell and copies none. -/
theorem Moves.occurrences_le (moves : binder.Moves after) (cell : CellId) :
    after.occurrences cell ≤
      binder.occurrences cell + cell.between binder.nextCell after.nextCell := by
  cases moves with
  | @leave before rest supplied keyword ahead _ _ _ =>
    have taken := occurrences_takeOut ahead cell
    -- A value that is replaced takes its cells with it, so this is not an equation.
    have inserted := Table.weight_insert (Deferred.occurrences cell) binder.unmatched keyword
      supplied.value
    refine Nat.le_add_right_of_le ?_
    simp only [occurrences]
    omega
  | @supply before rest supplied keyword parameter index ahead _ _ looked unused =>
    have taken := occurrences_takeOut ahead cell
    rw [← (FunctionDeclaration.getElem?_of_parameter? looked).2] at unused
    have inserted := Table.weight_insert_of_none unused
      (fun bound => bound.value.occurrences cell)
      ⟨binder.function, index, parameter.name, parameter.kind, supplied.value, false⟩
    refine Nat.le_add_right_of_le ?_
    simp only [occurrences, Binder.supply, inserted]
    omega
  | @widen before rest supplied keyword parameter index existing ahead _ _ _ found =>
    have taken := occurrences_takeOut ahead cell
    have inserted := Table.weight_insert_of_some found
      (fun bound => bound.value.occurrences cell)
      { existing with value := .merged ⟨binder.nextCell⟩ [existing.value, supplied.value] }
    simp only [Deferred.occurrences_merged, List.map_cons, List.map_nil, List.sum_cons,
      List.sum_nil, ← CellId.between_succ] at inserted
    simp only [occurrences, Binder.widen, reportRepetition, report]
    omega
  | reuse | missing => exact Nat.le_add_right _ _
  | @position parameter supplied rest _ unused ahead _ =>
    have taken : Supplied.occurrences cell binder.stream =
        Supplied.occurrences cell rest + supplied.value.occurrences cell := by
      rw [ahead]
      exact occurrences_takeOut (List.nil_append _).symm cell
    have unusedStill : { binder with stream := rest }.used.get? parameter.name = none := unused
    rw [occurrences_bindValue unusedStill]
    refine Nat.le_add_right_of_le ?_
    simp only [occurrences]
    omega
  | @starred parameter _ unused =>
    have unusedStill : { binder with
        stream := binder.stream.dropWhile fun supplied => supplied.keyword.isNone
        nextCell := binder.nextCell + 1 }.used.get? parameter.name = none := unused
    have parted : Supplied.occurrences cell binder.stream =
        Supplied.occurrences cell
            (binder.stream.takeWhile fun supplied => supplied.keyword.isNone) +
          Supplied.occurrences cell
            (binder.stream.dropWhile fun supplied => supplied.keyword.isNone) := by
      rw [Supplied.occurrences, Supplied.occurrences, Supplied.occurrences, ← List.sum_append,
        ← List.map_append, List.takeWhile_append_dropWhile]
    simp only [bindStarred]
    rw [occurrences_bindValue unusedStill, Deferred.occurrences_packedTuple,
      ← CellId.between_succ, List.map_map]
    simp only [occurrences, Supplied.occurrences, Function.comp_def] at parted ⊢
    simp only [bindValue, append]
    omega
  | @doubleStarred parameter _ _ unused =>
    have unusedStill : { binder with nextCell := binder.nextCell + 1, unmatched := ∅ }.used.get?
        parameter.name = none := unused
    have collected : (binder.unmatched.entries.map fun entry => entry.2.occurrences cell).sum =
        binder.unmatched.weight (Deferred.occurrences cell) := rfl
    simp only [bindDoubleStarred]
    rw [occurrences_bindValue unusedStill, Deferred.occurrences_packedDict,
      ← CellId.between_succ, collected]
    simp only [occurrences, Table.weight_empty, bindValue, append]
    omega

theorem Moves.nextCell_le (moves : binder.Moves after) : binder.nextCell ≤ after.nextCell := by
  cases moves with
  | leave | supply | reuse | position => exact Nat.le_refl _
  | widen | starred | doubleStarred | missing => exact Nat.le_succ _

/-- Cells that have one place keep having one place. -/
theorem Separates.of_moves (separates : binder.Separates) (moves : binder.Moves after) :
    after.Separates where
  once := by
    intro cell
    have copied := moves.occurrences_le cell
    by_cases begun : binder.nextCell ≤ cell.index
    · rw [separates.fresh cell begun, Nat.zero_add] at copied
      exact copied.trans (cell.between_le_one _ _)
    · rw [CellId.between_eq_zero_of_lt (Nat.not_le.mp begun)] at copied
      exact copied.trans (separates.once cell)
  fresh := by
    intro cell later
    have copied := moves.occurrences_le cell
    rw [CellId.between_eq_zero_of_le later,
      separates.fresh cell (moves.nextCell_le.trans later)] at copied
    exact Nat.le_zero.mp copied

/-! ## The places of parameters -/

/--
What stands in the place of a parameter is what the parameter was supplied, or else nothing
that was there from the start, and then no keyword is ahead that could still supply it, and
the parameter does not collect.
-/
def Fills (binder : Binder) (start : Nat) (parameter : Parameter) (bound : BoundParameter) :
    Prop :=
  binder.used.get? parameter.name = some bound ∨
    binder.used.get? parameter.name = none ∧
      (∀ supplied ∈ binder.stream, supplied.keyword = none) ∧
      (∀ cell : CellId, cell.index < start → bound.value.occurrences cell = 0) ∧
      parameter.kind.collects = false

/-- Whatever a binder has used is in its place once its place is there. -/
structure Places (binder : Binder) (start : Nat) : Prop where
  starts : start ≤ binder.nextCell
  indexed : ∀ (index : Nat) (bound : BoundParameter), binder.result[index]? = some bound →
    bound.index = index
  known : ∀ (name : String) (bound : BoundParameter), binder.used.get? name = some bound →
    ∃ parameter : Parameter, binder.declaration.parameters[bound.index]? = some parameter ∧
      parameter.name = name
  filled : ∀ (index : Nat) (parameter : Parameter) (bound : BoundParameter),
    binder.declaration.parameters[index]? = some parameter →
    binder.result[index]? = some bound → binder.Fills start parameter bound

namespace Places

variable {start : Nat} {parameter : Parameter} {bound : BoundParameter}

/-- Values that are taken out of the stream or left unmatched change no place. -/
theorem of_same (places : binder.Places start) {other : Binder}
    (declaration : other.declaration = binder.declaration) (result : other.result = binder.result)
    (used : other.used = binder.used) (stream : ∀ supplied ∈ other.stream, supplied ∈ binder.stream)
    (further : binder.nextCell ≤ other.nextCell) :
    other.Places start where
  starts := places.starts.trans further
  indexed := by
    rw [result]
    exact places.indexed
  known := by
    rw [used, declaration]
    exact places.known
  filled := by
    intro index parameter bound declared found
    rw [declaration] at declared
    rw [result] at found
    rw [Fills, used]
    exact (places.filled index parameter bound declared found).imp id
      fun ⟨unused, positional, absent⟩ =>
        ⟨unused, fun supplied member => positional supplied (stream supplied member), absent⟩

theorem append (places : binder.Places start)
    (declared : binder.declaration.Lists binder.result.length parameter)
    (isAt : bound.index = binder.result.length) (fills : binder.Fills start parameter bound) :
    (binder.append bound).Places start where
  starts := places.starts
  indexed := by
    intro index found isFound
    rw [Binder.append, List.getElem?_append] at isFound
    split at isFound
    · exact places.indexed index found isFound
    · rw [List.getElem?_singleton] at isFound
      split at isFound
      · cases isFound
        omega
      · cases isFound
  known := places.known
  filled := by
    intro index other found otherDeclared isFound
    rw [Binder.append, List.getElem?_append] at isFound
    split at isFound
    · exact places.filled index other found otherDeclared isFound
    · rw [List.getElem?_singleton] at isFound
      split at isFound
      · cases isFound
        have isLast : index = binder.result.length := by omega
        rw [isLast] at otherDeclared
        cases declared.symm.trans otherDeclared
        exact fills
      · cases isFound

/-- A keyword that supplies a parameter comes before the place of the parameter is there. -/
theorem ahead_of_unused (places : binder.Places start)
    (declared : binder.declaration.Lists index parameter)
    (unused : binder.used.get? parameter.name = none) (member : supplied ∈ binder.stream)
    (named : supplied.keyword = some keyword) :
    binder.result.length ≤ index := by
  by_contra before
  have found := List.getElem?_eq_getElem (Nat.not_le.mp before)
  rcases places.filled index parameter _ declared found with used | ⟨-, positional, -⟩
  · rw [unused] at used
    cases used
  · rw [positional supplied member] at named
    cases named

section

variable (places : binder.Places start)
  (distinct : (binder.declaration.parameters.map Parameter.name).Nodup)

include places distinct

/-- A parameter that has no place yet is used. -/
theorem use (declared : binder.declaration.Lists index parameter)
    (isAt : bound.index = index) (ahead : binder.result.length ≤ index) :
    Places { binder with used := binder.used.insert parameter.name bound } start where
  starts := places.starts
  indexed := places.indexed
  known := by
    intro name other found
    rcases Table.eq_or_get?_of_get?_insert found with ⟨rfl, rfl⟩ | before
    · exact ⟨parameter, isAt ▸ declared, rfl⟩
    · exact places.known name other before
  filled := by
    intro place other found otherDeclared isFound
    have before : place < binder.result.length := (List.getElem?_eq_some_iff.mp isFound).1
    have different : other.name ≠ parameter.name := fun same =>
      absurd (FunctionDeclaration.index_eq_of_name distinct otherDeclared declared same) (by omega)
    rw [Fills, Table.get?_insert_of_ne _ different]
    exact places.filled place other found otherDeclared isFound

theorem bindValue (declared : binder.declaration.Lists binder.result.length parameter)
    (value : Deferred) :
    (binder.bindValue parameter binder.result.length value).Places start := by
  let bound : BoundParameter :=
    ⟨binder.function, binder.result.length, parameter.name, parameter.kind, value, false⟩
  have used : Places { binder with used := binder.used.insert parameter.name bound } start :=
    places.use distinct declared rfl (Nat.le_refl _)
  exact used.append declared rfl (.inl (Table.get?_insert_self _ _ _))

theorem supply (declared : binder.declaration.Lists index parameter)
    (ahead : binder.result.length ≤ index) (value : Deferred) :
    (binder.supply parameter index value).Places start := by
  have unchanged : modifyFirst (fun present => present.index == index && present.isDefault)
      (fun _ => ⟨binder.function, index, parameter.name, parameter.kind, value, false⟩)
      binder.result = binder.result := by
    refine modifyFirst_eq_self fun present member => ?_
    obtain ⟨place, found⟩ := List.mem_iff_getElem?.mp member
    have before : place < binder.result.length := (List.getElem?_eq_some_iff.mp found).1
    have different : place ≠ index := by omega
    simp [places.indexed place present found, different]
  simp only [Binder.supply, unchanged]
  exact places.use distinct declared rfl ahead

/-- A parameter that is widened is widened in its place as well. -/
theorem widen (declared : binder.declaration.Lists index parameter)
    (found : binder.used.get? parameter.name = some existing) (value : Deferred) :
    (binder.widen parameter.name index existing value).Places start := by
  have isAt : existing.index = index := by
    obtain ⟨other, otherDeclared, same⟩ := places.known _ existing found
    exact FunctionDeclaration.index_eq_of_name distinct otherDeclared declared same
  have placed : ∀ place present, binder.result[place]? = some present →
      ((present.index == index) = true ↔ place = index) := by
    intro place present isPresent
    rw [places.indexed place present isPresent]
    exact beq_iff_eq
  refine ⟨places.starts.trans (Nat.le_succ _), ?_, ?_, ?_⟩
  · intro place bound isBound
    rw [Binder.widen, getElem?_modifyFirst placed] at isBound
    split at isBound
    · obtain ⟨before, isBefore, rfl⟩ := Option.map_eq_some_iff.mp isBound
      exact places.indexed place before isBefore
    · exact places.indexed place bound isBound
  · intro name bound isBound
    rcases Table.eq_or_get?_of_get?_insert isBound with ⟨rfl, rfl⟩ | before
    · exact ⟨parameter, isAt ▸ declared, rfl⟩
    · exact places.known name bound before
  · intro place other bound otherDeclared isBound
    have otherDeclared : binder.declaration.parameters[place]? = some other := otherDeclared
    rw [Binder.widen, getElem?_modifyFirst placed] at isBound
    split at isBound
    · rename_i here
      subst here
      cases declared.symm.trans otherDeclared
      obtain ⟨before, isBefore, rfl⟩ := Option.map_eq_some_iff.mp isBound
      rcases places.filled _ _ before declared isBefore with same | ⟨unused, -⟩
      · cases found.symm.trans same
        exact .inl (Table.get?_insert_self _ _ _)
      · cases found.symm.trans unused
    · rename_i elsewhere
      have different : other.name ≠ parameter.name := fun same =>
        elsewhere (FunctionDeclaration.index_eq_of_name distinct otherDeclared declared same)
      have sameUsed : (binder.widen parameter.name index existing value).used.get? other.name =
          binder.used.get? other.name := Table.get?_insert_of_ne _ different _
      rw [Fills, sameUsed]
      exact places.filled place other bound otherDeclared isBound

/-- Moves put everything that is used in its place. -/
theorem of_moves (moves : binder.Moves after) : after.Places start := by
  cases moves with
  | @leave before rest supplied keyword ahead =>
    refine places.of_same rfl rfl rfl (fun other member => ?_) (Nat.le_refl _)
    rw [ahead]
    exact mem_takeOut member
  | @supply before rest supplied keyword parameter index ahead _ named looked unused =>
    obtain ⟨declared, rfl⟩ := FunctionDeclaration.getElem?_of_parameter? looked
    have notPlaced := places.ahead_of_unused declared unused (ahead ▸ by simp) named
    have taken : Places { binder with stream := before ++ rest, sawKeyword := true } start :=
      places.of_same rfl rfl rfl (fun _ member => ahead ▸ mem_takeOut member) (Nat.le_refl _)
    exact taken.supply distinct declared notPlaced supplied.value
  | @widen before rest supplied keyword parameter index existing ahead _ _ looked found =>
    obtain ⟨declared, rfl⟩ := FunctionDeclaration.getElem?_of_parameter? looked
    have taken : Places { binder with stream := before ++ rest, sawKeyword := true } start :=
      places.of_same rfl rfl rfl (fun _ member => ahead ▸ mem_takeOut member) (Nat.le_refl _)
    exact taken.widen distinct declared found supplied.value
  | @reuse parameter bound declared found =>
    obtain ⟨other, otherDeclared, same⟩ := places.known _ bound found
    exact places.append declared
      (FunctionDeclaration.index_eq_of_name distinct otherDeclared declared same) (.inl found)
  | @position parameter supplied rest declared _ ahead =>
    have taken : Places { binder with stream := rest } start :=
      places.of_same rfl rfl rfl (fun _ member => ahead ▸ List.mem_cons_of_mem _ member)
        (Nat.le_refl _)
    exact taken.bindValue distinct declared supplied.value
  | @starred parameter declared =>
    have taken : Places
        { binder with
          stream := binder.stream.dropWhile fun supplied => supplied.keyword.isNone
          nextCell := binder.nextCell + 1 } start :=
      places.of_same rfl rfl rfl (fun _ member => (List.dropWhile_sublist _).subset member)
        (Nat.le_succ _)
    exact taken.bindValue distinct declared _
  | @doubleStarred parameter declared =>
    have taken : Places { binder with nextCell := binder.nextCell + 1, unmatched := ∅ } start :=
      places.of_same rfl rfl rfl (fun _ member => member) (Nat.le_succ _)
    exact taken.bindValue distinct declared _
  | @missing parameter value isDefault issues declared unused positional isNew single =>
    have advanced :
        Places { binder with nextCell := binder.nextCell + 1, issues := issues } start :=
      places.of_same rfl rfl rfl (fun _ member => member) (Nat.le_succ _)
    refine advanced.append declared rfl (.inr ⟨unused, positional, fun cell early => ?_, single⟩)
    -- What is missing has a cell that was not there from the start, and no other.
    have later : (⟨binder.nextCell⟩ : CellId) ≠ cell := by
      rintro rfl
      exact absurd places.starts (Nat.not_le.mpr early)
    rcases isNew with ⟨default, rfl⟩ | rfl
    · exact if_neg later
    · exact if_neg later

end

end Places

end Binder

end TypeInference
