import TypeInference.Proofs.Canonical
import TypeInference.Proofs.Judgement.Request
import TypeInference.Proofs.Replay.Return

/-!
# Reading a tuple

What has been answered is assured: wherever all is known that was known then, the same step
answers the same and adds nothing.  Instances are found member by member.  So once the
instances of all items of a tuple are found together, those of each item are assured, and
all ways to read the tuple come to them.
-/

namespace TypeInference

open Inference

variable {ι α β : Type} {tree : Tree} {origin state after known : State} {id : ValueId}
  {set union : TypeSet} {sets : List TypeSet} {items : List ι} {engine : Engine}
  {otherAsk : {α : Type} → Operation α → Inference α}

/-! ## Assured answers -/

/--
A step answers wherever all is known that is known in a state, adds nothing to what is
remembered and leaves the cells that there were at some time as they are.
-/
def State.Ensures (state : State) (step : Inference α) (holds : State → State → α → Prop) : Prop :=
  ∀ origin known : State, state.Extends known → known.nodeGuard.active = [] →
    origin.KeepsCells known → ∃ answer after, step known = .ok (answer, after) ∧
      known.Quiet after ∧ origin.KeepsCells after ∧ holds origin after answer

/-- A step answers the same wherever all is known that is known in a state. -/
abbrev State.Assures (state : State) (step : Inference α) (answer : α) : Prop :=
  state.Ensures step fun _ _ => Eq answer

/-- What a step answers in a state. -/
def Inference.answerIn (step : Inference TypeSet) (state : State) : TypeSet :=
  match step state with
  | .ok (answer, _) => answer
  | .error _ => ∅

namespace State.Ensures

theorem later (assures : state.Assures step answer) (extends_ : state.Extends after) :
    after.Assures step answer :=
  fun _ _ further => assures _ _ (extends_.trans further)

theorem pure (answer : α) : state.Assures (pure answer) answer :=
  fun _ known _ _ kept => ⟨answer, known, rfl, .refl known, kept, rfl⟩

theorem bind {next : α → Inference β} (assures : state.Assures step answer)
    (continues : state.Ensures (next answer) holds) :
    state.Ensures (step >>= next) holds := by
  intro origin known extends_ idle kept
  obtain ⟨_, between, started, quiet, betweenKept, rfl⟩ := assures _ _ extends_ idle kept
  obtain ⟨final, after, finished, quietAfter, afterKept, holdsLast⟩ :=
    continues _ _ (extends_.trans quiet.extends) (quiet.nodeGuard ▸ idle) betweenKept
  exact ⟨final, after, bind_eq_ok_iff.mpr ⟨_, between, started, finished⟩,
    quiet.trans quietAfter, afterKept, holdsLast⟩

theorem value (found : state.arena.get? id = some stored) : state.Assures (value id) stored :=
  fun _ known extends_ _ kept =>
    ⟨stored, known, value_of_get? (extends_.value found), .refl known, kept, rfl⟩

theorem mapM {step : ι → Inference α} (each : ∀ item, state.Assures (step item) (answer item)) :
    state.Assures (items.mapM step) (items.map answer) := by
  induction items with
  | nil => exact pure _
  | cons item rest ih =>
    rw [List.mapM_cons]
    exact (each item).bind (ih.bind (pure _))

theorem unionOver {setOf : ι → Inference TypeSet}
    (each : ∀ item ∈ items, state.Assures (setOf item) (answer item)) :
    state.Assures (unionOver setOf items) (.unions (items.map answer)) := by
  induction items with
  | nil => exact pure _
  | cons item rest ih =>
    rw [List.forall_mem_cons] at each
    exact each.1.bind ((ih each.2).bind (pure _))

/-- A step that can be repeated is assured to answer the same. -/
theorem of_repeats (repeats : Repeats step other) (idle : state.nodeGuard.active = [])
    (succeeds : step state = .ok (answer, after)) : after.Assures other answer := by
  intro origin known extends_ knownIdle kept
  obtain ⟨knownAfter, again, quiet, keeps⟩ := repeats.again idle succeeds extends_ knownIdle
  exact ⟨answer, knownAfter, again, quiet, kept.trans keeps, rfl⟩

theorem eq_answerIn (assures : state.Assures step answer) (idle : state.nodeGuard.active = []) :
    answer = step.answerIn state := by
  obtain ⟨_, after, repeated, _, _, rfl⟩ := assures state state (.refl state) idle (.of_eq rfl)
  rw [answerIn, repeated]

/-- What was answered item by item is assured for each of the items. -/
theorem of_unionOver {setOf other : ι → Inference TypeSet}
    (repeats : ∀ item, Repeats (setOf item) (other item)) (idle : state.nodeGuard.active = [])
    (succeeds : Inference.unionOver setOf items state = .ok (set, after)) :
    (state.Extends after ∧ after.nodeGuard.active = []) ∧
      set = .unions (items.map fun item => (other item).answerIn after) ∧
      ∀ item ∈ items, after.Assures (other item) ((other item).answerIn after) := by
  induction items generalizing state set with
  | nil =>
    cases succeeds
    exact ⟨⟨.refl _, idle⟩, rfl, by simp⟩
  | cons item rest ih =>
    obtain ⟨first, between, started, continued⟩ := bind_eq_ok_iff.mp succeeds
    obtain ⟨others, _, finished, ⟨⟩⟩ := bind_eq_ok_iff.mp continued
    have learns := (repeats item).learns started
    obtain ⟨⟨furtherExtends, afterIdle⟩, rfl, assured⟩ := ih (learns.nodeGuard ▸ idle) finished
    have assures := (of_repeats (repeats item) idle started).later furtherExtends
    have same := assures.eq_answerIn afterIdle
    refine ⟨⟨(learns.extends_ idle).trans furtherExtends, afterIdle⟩, by rw [same]; rfl, ?_⟩
    exact List.forall_mem_cons.mpr ⟨same ▸ assures, assured⟩

end State.Ensures

/-- What the members of a set come to, given what each of them does. -/
def TypeSet.shares (share : ValueId → TypeSet) (set : TypeSet) : TypeSet :=
  .unions (set.members.map share)

theorem TypeSet.unions_singleton (set : TypeSet) : unions [set] = set :=
  TypeSet.ext_mem (by simp [mem_unions])

theorem TypeSet.shares_unions (share : ValueId → TypeSet) (sets : List TypeSet) :
    (unions sets).shares share = .unions (sets.map (shares share)) := by
  refine TypeSet.ext_mem fun id => ?_
  simp only [shares, mem_unions, List.mem_map, exists_exists_and_eq_and, mem_members]
  grind

/-- Where the instances of a set have been found, those of all of its subsets are assured. -/
theorem exists_assures_instances (rehearsed : engine.Rehearsed tree otherAsk)
    (idle : state.nodeGuard.active = [])
    (succeeds : engine.instances set state = .ok (union, after)) :
    state.Extends after ∧ ∃ share, union = set.shares share ∧
      ∀ part : TypeSet, (∀ id ∈ part, id ∈ set) →
        after.Assures ((engine.asking otherAsk).instances part) (part.shares share) := by
  let limit := engine.settings.unificationDepthLimit
  let other := engine.asking otherAsk
  have repeats (id : ValueId) : Repeats (engine.valueInstances (engine.instancesWithin limit) id)
      (other.valueInstances (other.instancesWithin limit) id) :=
    rehearsed.repeats_of_fits fun _ =>
      Pairing.fits_valueInstances (Pairing.fits_instancesWithin limit) id
  obtain ⟨⟨extends_, _⟩, united, assured⟩ := State.Ensures.of_unionOver repeats idle succeeds
  exact ⟨extends_, _, united,
    fun part within => .unionOver fun id member => assured id (within id member)⟩

/-! ## Deferred items -/

theorem Engine.mergeRows_singleton (row : List Deferred) : mergeRows [row] = pure row := by
  have columned : columns [row] = row.map fun deferred => [deferred] := by
    refine List.ext_getElem (by simp [columns]) fun position _ inside => ?_
    simp only [List.length_map] at inside
    simp [columns, inside]
  rw [mergeRows, columned, List.mapM_map]
  show row.mapM (fun deferred => pure (id deferred)) = _
  rw [List.mapM_pure, List.map_id]

/-- Deferred values for sets that were known, in cells of their own that are new and empty. -/
structure State.Presents (origin state : State) (row : List Deferred) (sets : List TypeSet) :
    Prop where
  made : List.Forall₂ (fun deferred set => ∃ cell, deferred = .known cell set) row sets
  new : ∀ deferred ∈ row, origin.cells[deferred.cell.index]? = none ∧
    state.cells[deferred.cell.index]? = some none
  apart : row.Pairwise fun first second => first.cell.index ≠ second.cell.index

/-- What is presented is resolved to the sets that it was made for. -/
theorem State.Presents.resolves (presents : origin.Presents state row sets)
    (kept : origin.KeepsCells state) :
    ∃ after, unionOver engine.resolve row state = .ok (.unions sets, after) ∧
      state.Quiet after ∧ origin.KeepsCells after := by
  obtain ⟨made, new, apart⟩ := presents
  induction made generalizing state with
  | nil => exact ⟨state, rfl, .refl state, kept⟩
  | @cons _ set _ _ first _ ih =>
    obtain ⟨cell, rfl⟩ := first
    rw [List.forall_mem_cons] at new
    rw [List.pairwise_cons] at apart
    let filled : State := { state with
      cells := state.cells.modify cell.index (fun present => present.or (some set)) }
    have resolved : engine.resolve (.known cell set) state = .ok (set, filled) := by
      rw [Engine.resolve_eq]
      refine bind_eq_ok_iff.mpr ⟨none, state, ?_, rfl⟩
      exact congrArg (fun content => Except.ok (Option.join content, state)) new.1.2
    have elsewhere {position : Nat} (different : cell.index ≠ position) :
        filled.cells[position]? = state.cells[position]? := by
      simp [filled, Array.getElem?_modify, different]
    have filledKept : origin.KeepsCells filled := fun position content held => by
      have different : cell.index ≠ position := by
        rintro rfl
        cases new.1.1.symm.trans held
      exact (elsewhere different).trans (kept _ _ held)
    obtain ⟨after, others, quiet, afterKept⟩ := ih filledKept
      (fun deferred member => ⟨(new.2 deferred member).1,
        (elsewhere (apart.1 deferred member)).trans (new.2 deferred member).2⟩) apart.2
    have fills : state.Quiet filled := ⟨⟨rfl, rfl, rfl, rfl, rfl, rfl⟩, rfl, rfl, rfl⟩
    exact ⟨after, bind_eq_ok_iff.mpr ⟨set, filled, resolved,
      bind_eq_ok_iff.mpr ⟨_, after, others, rfl⟩⟩, fills.trans quiet, afterKept⟩

namespace State.Ensures

/-- Sets that are deferred one after another. -/
theorem row {setOf : ι → Inference TypeSet}
    (each : ∀ item ∈ items, state.Assures (setOf item) (answer item)) :
    state.Ensures (items.mapM fun item => do Engine.deferKnown (← setOf item))
      fun origin after row => origin.Presents after row (items.map answer) := by
  induction items with
  | nil => exact fun _ known _ _ kept =>
      ⟨[], known, rfl, .refl known, kept, .nil, by simp, .nil⟩
  | cons item rest ih =>
    rw [List.forall_mem_cons] at each
    rw [List.mapM_cons, bind_assoc]
    refine each.1.bind fun origin known extends_ idle kept => ?_
    let between : State := { known with cells := known.cells.push none }
    have quiet : known.Quiet between := ⟨⟨rfl, rfl, rfl, rfl, rfl, rfl⟩, rfl, rfl, rfl⟩
    have pushed : between.cells[known.cells.size]? = some none := by simp [between]
    have keeps : known.KeepsCells between := fun position content held => by
      have inside := (Array.getElem?_eq_some_iff.mp held).1
      rw [← held]
      exact Array.getElem?_push_lt inside ▸ Array.getElem?_eq_getElem inside ▸ rfl
    obtain ⟨others, after, finished, quietAfter, betweenKept, made, new, apart⟩ :=
      ih each.2 between between (extends_.trans quiet.extends) idle (.of_eq rfl)
    refine ⟨.known ⟨known.cells.size⟩ (answer item) :: others, after,
      bind_eq_ok_iff.mpr ⟨_, between, rfl, bind_eq_ok_iff.mpr ⟨others, after, finished, rfl⟩⟩,
      quiet.trans quietAfter, (kept.trans keeps).trans betweenKept, .cons ⟨_, rfl⟩ made,
      List.forall_mem_cons.mpr ⟨⟨?_, betweenKept _ _ pushed⟩, fun deferred member => ?_⟩,
      .cons (fun deferred member same => ?_) apart⟩
    · exact Array.getElem?_eq_none kept.size_le
    · refine ⟨?_, (new deferred member).2⟩
      rw [Option.eq_none_iff_forall_ne_some]
      intro content held
      cases (new deferred member).1.symm.trans ((kept.trans keeps) _ _ held)
    · change known.cells.size = deferred.cell.index at same
      cases (new deferred member).1.symm.trans (same ▸ pushed)

theorem wrapped (ensures : state.Ensures step holds) :
    state.Ensures (do return some (← step)) fun origin after found =>
      ∃ answer, found = some answer ∧ holds origin after answer := by
  intro origin known extends_ idle kept
  obtain ⟨answer, after, ran, quiet, afterKept, holdsAfter⟩ := ensures _ _ extends_ idle kept
  exact ⟨some answer, after, bind_eq_ok_iff.mpr ⟨answer, after, ran, rfl⟩, quiet, afterKept,
    answer, rfl, holdsAfter⟩

/-- Whatever iterating over one value yields is resolved. -/
theorem elementSet
    (elements : state.Ensures (engine.elements id) fun origin after found =>
      ∃ row, found = some row ∧ origin.Presents after row sets) :
    state.Assures (engine.elementSet (.singleton id)) (.unions sets) := by
  intro origin known extends_ idle kept
  obtain ⟨_, between, found, quiet, betweenKept, row, rfl, presents⟩ :=
    elements _ _ extends_ idle kept
  obtain ⟨after, resolved, quietAfter, afterKept⟩ := presents.resolves betweenKept
  rw [elementSet_singleton]
  refine ⟨_, after, bind_eq_ok_iff.mpr ⟨some row, between, found, ?_⟩, quiet.trans quietAfter,
    afterKept, rfl⟩
  rw [Option.toList_some, Engine.mergeRows_singleton, pure_bind]
  exact resolved

end State.Ensures

/-! ## Tuples -/

/-- What the items of a tuple are at the positions that count its places. -/
structure TuplePlaces (size : Nat) (union : TypeSet) (item : Index → TypeSet) : Prop where
  /-- Counting from the back does not overflow, whatever the position. -/
  exact : ∀ position : Int64, position < 0 →
    (.ofNat size + position : Int64).toInt = size + position.toInt
  union : union = .unions ((List.range size).map fun place => item (.position (.ofNat place)))
  backwards : ∀ place position : Int64, 0 ≤ place.toInt → place.toInt < size →
    position.toInt = place.toInt - size → item (.position position) = item (.position place)
  outside : ∀ position : Int64, position.toInt < -size ∨ size ≤ position.toInt →
    item (.position position) = ∅

/--
What reading a tuple with some type arguments comes to, index by index.  There are `2 ^ 63`
positions that count from the front, which is more than a sequence in memory can be long.
-/
structure TupleItems (arguments : TypeArguments) (union : TypeSet) (item : Index → TypeSet) :
    Prop where
  unknown : item .unknown = union
  key : ∀ key, item (.key key) = union
  homogeneous : arguments.homogeneous = true → ∀ position, item (.position position) = union
  places : arguments.homogeneous = false → arguments.size < 2 ^ 63 →
    TuplePlaces arguments.size union item

section Positions

variable {length place : Nat} {position : Int64}

theorem toInt_ofNat_add (fits : length < 2 ^ 63) (negative : position < 0) :
    (Int64.ofNat length + position).toInt = length + position.toInt := by
  have least := position.le_toInt
  have below : position.toInt < 0 := Int64.lt_iff_toInt_lt.mp negative
  rw [Int64.toInt_add, Int64.toInt_ofNat_of_lt fits]
  exact Int.bmod_eq_of_le (by omega) (by omega)

/-- Whatever its length, a position counts a place in a sequence or none. -/
theorem lt_of_resolvePosition (counted : resolvePosition length position = some place) :
    place < length := by
  simp only [resolvePosition, Bool.and_eq_true, decide_eq_true_eq, Option.ite_none_right_eq_some,
    Option.some.injEq, Int64.le_iff_toInt_le, Int64.toInt_zero] at counted
  omega

/-- A position counts a place from the front or from the back. -/
theorem resolvePosition_eq_some_iff (fits : length < 2 ^ 63) :
    resolvePosition length position = some place ↔
      place < length ∧ (position.toInt = place ∨ position.toInt = place - length) := by
  simp only [resolvePosition, Bool.and_eq_true, decide_eq_true_eq, Option.ite_none_right_eq_some,
    Option.some.injEq, Int64.le_iff_toInt_le, Int64.toInt_zero]
  split
  · rename_i negative
    have below : position.toInt < 0 := Int64.lt_iff_toInt_lt.mp negative
    rw [toInt_ofNat_add fits negative]
    omega
  · rename_i positive
    have above : ¬position.toInt < 0 := fun below => positive (Int64.lt_iff_toInt_lt.mpr below)
    omega

end Positions

/-- The items of a tuple are found at their places. -/
theorem tuplePlaces_of_sets (fits : sets.length < 2 ^ 63) :
    TuplePlaces sets.length (.unions sets) (Engine.packedTupleItem sets) where
  exact _ negative := toInt_ofNat_add fits negative
  union := by
    congr 1
    refine List.ext_getElem (by simp) fun place inside _ => ?_
    have counted := (resolvePosition_eq_some_iff fits).mpr
      ⟨inside, .inl (Int64.toInt_ofNat_of_lt (inside.trans fits))⟩
    simp [Engine.packedTupleItem, counted, inside]
  backwards place position positive inside counts := by
    obtain ⟨place', same⟩ := Int.eq_ofNat_of_zero_le positive
    have inside : place' < sets.length := by omega
    have forwards := (resolvePosition_eq_some_iff fits).mpr ⟨inside, .inl same⟩
    have backwards := (resolvePosition_eq_some_iff fits).mpr ⟨inside, .inr (same ▸ counts)⟩
    simp only [Engine.packedTupleItem, forwards, backwards]
  outside position far := by
    have nowhere : resolvePosition sets.length position = none := by
      refine Option.eq_none_iff_forall_ne_some.mpr fun place found => ?_
      have counted := (resolvePosition_eq_some_iff fits).mp found
      omega
    simp only [Engine.packedTupleItem, nowhere]

theorem tupleItems_of_sets (slots : List TypeSet) (same : sets.length = slots.length) :
    TupleItems ⟨slots, false⟩ (.unions sets) (Engine.packedTupleItem sets) := by
  refine ⟨rfl, fun _ => rfl, nofun, fun _ fits => ?_⟩
  have sizes : TypeArguments.size ⟨slots, false⟩ = sets.length := same.symm
  rw [sizes] at fits ⊢
  exact tuplePlaces_of_sets fits

/-- All ways to read a tuple are assured. -/
structure State.AssuresTuple (state : State) (engine : Engine) (id : ValueId)
    (union : TypeSet) (item : Index → TypeSet) : Prop where
  elements : state.Assures (engine.elementSet (.singleton id)) union
  items : ∀ index, state.Assures (engine.itemOf index id) (item index)

theorem assuresTuple_packed (found : state.arena.get? id = some (.packedTuple sets)) :
    state.AssuresTuple engine id (.unions sets) (Engine.packedTupleItem sets) where
  elements := by
    have each (set : TypeSet) (_ : set ∈ sets) : state.Assures (pure set) set := .pure set
    have row := State.Ensures.row each
    simp only [pure_bind, List.map_id'] at row
    exact .elementSet ((State.Ensures.value found).bind row.wrapped)
  items index := (State.Ensures.value found).bind (.pure _)

/-- The kinds of items that a tuple has. -/
def TypeArguments.kinds (arguments : TypeArguments) : List TypeSet :=
  if arguments.homogeneous then [arguments.slot 0] else arguments.slots

theorem Engine.tupleElements_eq (engine : Engine) (generics : Generics) :
    engine.tupleElements generics = (do
      let arguments ← engine.typeArguments generics
      arguments.kinds.mapM fun kind => do deferKnown (← engine.instances kind)) := by
  refine bind_congr fun arguments => ?_
  cases homogeneous : arguments.homogeneous <;> simp [TypeArguments.kinds, homogeneous]

/-- A tuple whose kinds of items are assured is assured to be read in all ways. -/
theorem exists_assuresTuple_of_kinds (found : state.arena.get? id = some (.tuple generics))
    (read : state.Assures (engine.typeArguments generics) arguments)
    (assured : ∀ part : TypeSet, (∀ id ∈ part, id ∈ TypeSet.unions arguments.kinds) →
      state.Assures (engine.instances part) (part.shares share)) :
    ∃ item, TupleItems arguments ((TypeSet.unions arguments.kinds).shares share) item ∧
      state.AssuresTuple engine id ((TypeSet.unions arguments.kinds).shares share) item := by
  have kinds (kind : TypeSet) (isKind : kind ∈ arguments.kinds) :=
    assured kind fun _ member => TypeSet.mem_unions.mpr ⟨kind, isKind, member⟩
  have all := assured (.unions arguments.kinds) fun _ member => member
  have elements : state.Assures (engine.elementSet (.singleton id))
      ((TypeSet.unions arguments.kinds).shares share) := by
    rw [TypeSet.shares_unions]
    refine .elementSet ((State.Ensures.value found).bind (State.Ensures.wrapped ?_))
    rw [Engine.tupleElements_eq]
    exact read.bind (.row kinds)
  obtain ⟨slots, homogeneous⟩ := arguments
  cases homogeneous with
  | true =>
    refine ⟨fun _ => _, ⟨rfl, fun _ => rfl, fun _ _ => rfl, nofun⟩, elements, fun index =>
      (State.Ensures.value found).bind (read.bind ?_)⟩
    simpa [TypeArguments.kinds, TypeSet.unions_singleton] using all
  | false =>
    have same : TypeArguments.kinds ⟨slots, false⟩ = slots := rfl
    rw [TypeSet.shares_unions, same] at all elements ⊢
    refine ⟨_, tupleItems_of_sets slots (List.length_map _), elements, fun index => ?_⟩
    refine (State.Ensures.value found).bind (read.bind ?_)
    cases index with
    | key | unknown => exact all
    | position position =>
      cases counted : resolvePosition slots.length position with
      | none => simpa [Engine.packedTupleItem, TypeArguments.size, counted] using .pure ∅
      | some place =>
        have inside := lt_of_resolvePosition counted
        simpa [Engine.packedTupleItem, TypeArguments.size, counted, TypeArguments.slot, inside]
          using kinds _ (List.getElem_mem inside)

/-- A tuple that was read once is assured to be read in all ways. -/
theorem exists_assuresTuple (rehearsed : engine.Rehearsed tree otherAsk)
    (idle : state.nodeGuard.active = []) (found : state.arena.get? id = some (.tuple generics))
    (succeeds : engine.itemOf .unknown id state = .ok (union, after)) :
    ∃ arguments item,
      after.Assures ((engine.asking otherAsk).typeArguments generics) arguments ∧
      TupleItems arguments union item ∧
      after.AssuresTuple (engine.asking otherAsk) id union item := by
  have tupleRead : engine.tupleItem generics .unknown state = .ok (union, after) :=
    (bind_of_ok (value_of_get? found)).symm.trans succeeds
  obtain ⟨arguments, between, argumentsRead, continued⟩ := bind_eq_ok_iff.mp tupleRead
  have repeats := rehearsed.repeats_typeArguments generics
  have learns := repeats.learns argumentsRead
  have instantiated : engine.instances (.unions arguments.kinds) between = .ok (union, after) := by
    rw [← continued]
    cases homogeneous : arguments.homogeneous <;>
      simp [TypeArguments.kinds, homogeneous, TypeSet.unions_singleton]
  obtain ⟨furtherExtends, share, rfl, assured⟩ :=
    exists_assures_instances rehearsed (learns.nodeGuard ▸ idle) instantiated
  have read := (State.Ensures.of_repeats repeats idle argumentsRead).later furtherExtends
  obtain ⟨item, items⟩ := exists_assuresTuple_of_kinds
    (furtherExtends.value ((learns.extends_ idle).value found)) read assured
  exact ⟨arguments, item, read, items⟩

/-- A way to read a tuple. -/
inductive TupleReading where
  | elements
  | item (index : Index)

namespace TupleReading

def operation (id : ValueId) : TupleReading → Operation TypeSet
  | elements => .elementSet (.singleton id)
  | item index => .readItem (.singleton id) index

def answer (union : TypeSet) (itemAt : Index → TypeSet) : TupleReading → TypeSet
  | elements => union
  | item index => itemAt index

end TupleReading

/-- The type arguments of a tuple, which are read if they have to be. -/
def Environment.HasSlots (environment : Environment) (fuel : Nat) (state : State)
    (arguments : TypeArguments) : Value → Prop
  | .tuple generics => ∃ after,
    environment.answer fuel (.typeArguments generics) state = .ok (arguments, after)
  | .packedTuple items => arguments = ⟨items, false⟩
  | _ => False

/--
Over a tree of fixed nodes, whatever a request was asked for before, all ways to read a tuple
agree once all of its items have been read: iterating over it and reading it at an unknown
index or at a key come to all of its items, and so does any position of a tuple of any length.
Any other tuple has an item for each of its slots, counted from the front and from the back,
and none anywhere else.
-/
theorem tuple_readings_agree
    {environment : Environment}
    {tree : Tree}
    (provider : environment.provider = tree.fixedProvider)
    {arena : Arena}
    {spent : Nat}
    {β : Type}
    {history : Program β}
    {reply : β}
    {state : State}
    (reached : environment.run spent history (environment.start arena) = .ok (reply, state))
    {id : ValueId}
    {stored : Value}
    (found : state.arena.get? id = some stored)
    (isTuple : (∃ generics, stored = .tuple generics) ∨ ∃ items, stored = .packedTuple items)
    {fuel : Nat}
    {union : TypeSet}
    {after : State}
    (completed : environment.answer fuel (.readItem (.singleton id) .unknown) state =
      .ok (union, after))
    {more : Nat}
    (larger : fuel < more) :
    ∃ arguments item, environment.HasSlots more after arguments stored ∧
      TupleItems arguments union item ∧
      ∀ readings : List TupleReading, ∃ last,
        readings.mapM (fun reading => environment.answer more (reading.operation id)) after =
          .ok (readings.map (TupleReading.answer union item), last) := by
  have idle : state.nodeGuard.active = [] := by
    rw [(environment.restores_run reached).nodeGuard]
    rfl
  simp only [Environment.answer, ← environment.stage_eq_engine] at completed ⊢
  have rehearsed := Environment.rehearsed_of_le provider (Nat.le_of_lt larger)
  have afterIdle : after.nodeGuard.active = [] :=
    ((environment.proceeds_perform fuel _) _ _ _ completed).nodeGuard ▸ idle
  have read : (environment.stage fuel).itemOf .unknown id state = .ok (union, after) :=
    (congrFun (unionOver_singleton _ id) state).symm.trans completed
  obtain ⟨arguments, item, hasSlots, items, assures⟩ :
      ∃ arguments item, environment.HasSlots more after arguments stored ∧
        TupleItems arguments union item ∧
        after.AssuresTuple (environment.stage more) id union item := by
    rcases isTuple with ⟨generics, rfl⟩ | ⟨sets, rfl⟩
    · obtain ⟨arguments, item, slotsRead, assures⟩ := exists_assuresTuple rehearsed idle found read
      obtain ⟨_, last, repeated, _, _, rfl⟩ := slotsRead _ _ (.refl after) afterIdle (.of_eq rfl)
      refine ⟨_, item, ⟨last, ?_⟩, assures⟩
      rw [Environment.answer, ← environment.stage_eq_engine]
      exact repeated
    · cases (bind_of_ok (value_of_get? found)).symm.trans read
      exact ⟨⟨sets, false⟩, _, rfl, tupleItems_of_sets sets rfl,
        assuresTuple_packed found⟩
  have each (reading : TupleReading) :
      after.Assures ((environment.stage more).perform (reading.operation id))
        (reading.answer union item) := by
    cases reading with
    | elements => exact assures.elements
    | item index =>
      show after.Assures (unionOver _ [id]) _
      rw [unionOver_singleton]
      exact assures.items index
  refine ⟨arguments, item, hasSlots, items, fun readings => ?_⟩
  obtain ⟨_, last, repeated, _, _, rfl⟩ :=
    (State.Ensures.mapM each : after.Assures (readings.mapM _) _) _ _ (.refl after) afterIdle
      (.of_eq rfl)
  exact ⟨last, repeated⟩

/-- A subscript of two elements, of which the first describes what the second does and more. -/
def Tree.overlappingSubscript : Tree :=
  { nodes := #[.fixed (.ofList [⟨4⟩, ⟨5⟩]), .fixed (.singleton ⟨5⟩), .fixed ∅]
    subscripts := ⟨[(⟨2⟩, [⟨0⟩, ⟨1⟩])]⟩ }

/-- A tuple of two items is read in all ways, the last item from the back. -/
theorem tuple_readings_agree_of_overlappingSubscript :
    let environment : Environment :=
      { declarations := World.initial.declarations
        provider := Tree.overlappingSubscript.fixedProvider }
    let arena : Arena := World.initial.arena.push (.tuple (.lazy ⟨2⟩))
    ∃ union after arguments item last,
      environment.answer 1 (.readItem (.singleton ⟨19⟩) .unknown) (environment.start arena) =
        .ok (union, after) ∧
      union = .ofList [⟨20⟩, ⟨21⟩] ∧
      environment.HasSlots 2 after arguments (.tuple (.lazy ⟨2⟩)) ∧
      TupleItems arguments union item ∧
      [TupleReading.item (.position (-1)), .elements].mapM
        (fun reading => environment.answer 2 (reading.operation ⟨19⟩)) after =
          .ok ([item (.position (-1)), union], last) := by
  intro environment arena
  have outcome : ((environment.answer 1 (.readItem (.singleton ⟨19⟩) .unknown)
      (environment.start arena)).toOption.map Prod.fst) = some (.ofList [⟨20⟩, ⟨21⟩]) := by
    decide +kernel
  obtain ⟨⟨union, after⟩, completed, same⟩ := Option.map_eq_some_iff.mp outcome
  have completed := Except.eq_ok_of_toOption completed
  have reached : environment.run 0 (.done ()) (environment.start arena) =
      .ok ((), environment.start arena) := rfl
  have provider : environment.provider = Tree.overlappingSubscript.fixedProvider := rfl
  have found : (environment.start arena).arena.get? ⟨19⟩ = some (.tuple (.lazy ⟨2⟩)) := rfl
  obtain ⟨arguments, item, hasSlots, items, readings⟩ :=
    tuple_readings_agree provider reached found (.inl ⟨_, rfl⟩) completed (Nat.lt_succ_self 1)
  obtain ⟨last, repeated⟩ := readings [.item (.position (-1)), .elements]
  exact ⟨union, after, arguments, item, last, completed, same, hasSlots, items, repeated⟩

end TypeInference
