import TypeInference.Proofs.Binding
import TypeInference.Proofs.Binding.Minting

/-!
# What becomes of supplied values

Every value that a call supplies ends in the place of one parameter, or it is reported.
There is one exception.  The keywords that name no parameter wait in a table until a
double-starred parameter collects them, and of a keyword that is repeated there the last
value replaces the others, which are neither collected nor reported.
-/

namespace TypeInference

variable {α : Type} {name : String} {bound : BoundParameter} {stream : List Supplied}
  {items : List α} {index nextCell : Nat} {function : FunctionId}
  {declaration : FunctionDeclaration} {callSite : Option NodeId} {supplied : Supplied}

/-- The bound parameter at an index holds a value. -/
def BoundParameter.HeldAt (bound : List BoundParameter) (value : Deferred) (index : Nat) : Prop :=
  ∃ parameter, bound[index]? = some parameter ∧ parameter.value.Holds value

/--
What becomes of a value that a call supplies before the rest of its stream: one bound
parameter holds it, or none does.  In that case it is positional and the call supplies too
many values, or its keyword is reported, or a later value of the same keyword replaces it in
what a double-starred parameter collects.
-/
inductive Supplied.Outcome (declaration : FunctionDeclaration) (given : Nat)
    (bound : List BoundParameter) (issues : List Diagnostic) (supplied : Supplied)
    (rest : List Supplied) : Prop
  | held
      (once : ∃! index, BoundParameter.HeldAt bound supplied.value index)
  | surplus (node : Option NodeId)
      (absent : ∀ index, ¬BoundParameter.HeldAt bound supplied.value index)
      (positional : supplied.keyword = none)
      (reported : Diagnostic.tooMany declaration given node ∈ issues)
  | unexpected (keyword : String) (node : Option NodeId)
      (absent : ∀ index, ¬BoundParameter.HeldAt bound supplied.value index)
      (named : supplied.keyword = some keyword)
      (reported : Diagnostic.unexpected declaration keyword node ∈ issues)
  | replaced (keyword : String) (later : Supplied) (index : Nat)
      (absent : ∀ index, ¬BoundParameter.HeldAt bound supplied.value index)
      (named : supplied.keyword = some keyword)
      (unknown : declaration.parameter? keyword = none)
      (collects : declaration.has .doubleStarred = true)
      (member : later ∈ rest)
      (laterNamed : later.keyword = some keyword)
      (collected : BoundParameter.HeldAt bound later.value index)

def Supplied.isNamed (supplied : Supplied) : Bool :=
  supplied.keyword.isSome

/-! ## Places in lists -/

theorem exists_last {condition : α → Prop} (satisfied : ∃ item ∈ items, condition item) :
    ∃ first last rest, items = first ++ last :: rest ∧ condition last ∧
      ∀ item ∈ rest, ¬condition item := by
  induction items with
  | nil =>
    obtain ⟨_, member, _⟩ := satisfied
    cases member
  | cons head tail ih =>
    by_cases later : ∃ item ∈ tail, condition item
    · obtain ⟨first, last, rest, rfl, holds, none⟩ := ih later
      exact ⟨head :: first, last, rest, rfl, holds, none⟩
    · obtain ⟨item, member, holds⟩ := satisfied
      rcases List.mem_cons.mp member with rfl | inTail
      · exact ⟨[], item, tail, rfl, holds, fun other isOther satisfies =>
          later ⟨other, isOther, satisfies⟩⟩
      · exact absurd ⟨item, inTail, holds⟩ later

namespace Binder

variable {binder after : Binder} {value : Deferred}

/-! ## Used values -/

/-- A value is held by what some parameter was supplied. -/
def Uses (binder : Binder) (value : Deferred) : Prop :=
  ∃ name bound, binder.used.get? name = some bound ∧ bound.value.Holds value

theorem uses_inserted (inserted : after.used = binder.used.insert name bound)
    (holds : bound.value.Holds value) :
    after.Uses value :=
  ⟨name, bound, by rw [inserted, Table.get?_insert_self], holds⟩

theorem Uses.insert (uses : binder.Uses value)
    (inserted : after.used = binder.used.insert name bound)
    (keeps : ∀ existing, binder.used.get? name = some existing →
      existing.value.Holds value → bound.value.Holds value) :
    after.Uses value := by
  obtain ⟨other, existing, found, holds⟩ := uses
  by_cases same : other = name
  · exact uses_inserted inserted (keeps existing (same ▸ found) holds)
  · exact ⟨other, existing, by rw [inserted, Table.get?_insert_of_ne _ same, found], holds⟩

theorem Uses.insert_unused (uses : binder.Uses value) (unused : binder.used.get? name = none)
    (inserted : after.used = binder.used.insert name bound) :
    after.Uses value := by
  refine uses.insert inserted fun existing found => ?_
  cases unused.symm.trans found

/-- A used value stays in use: a parameter that is widened holds what it was. -/
theorem Moves.uses (moves : binder.Moves after) (uses : binder.Uses value) : after.Uses value := by
  cases moves with
  | leave | reuse | missing => exact uses
  | @supply before rest supplied keyword parameter index ahead positional named looked unused =>
    rw [← (FunctionDeclaration.getElem?_of_parameter? looked).2] at unused
    exact uses.insert_unused unused rfl
  | @widen before rest supplied keyword parameter index existing ahead positional named looked
      found =>
    refine uses.insert rfl fun other otherFound holds => ?_
    cases found.symm.trans otherFound
    exact .merged List.mem_cons_self holds
  | position _ unused | starred _ unused | doubleStarred _ _ unused =>
    exact uses.insert_unused unused rfl

/-! ## Accounts of a stream -/

/--
An account of the values that a call supplies, where the named values that a binder has
taken so far are known in their order.
-/
structure Accounts (stream passed : List Supplied) (binder : Binder) : Prop where
  /-- Named values are taken in their order. -/
  ordered : stream.filter Supplied.isNamed = passed ++ binder.stream.filter Supplied.isNamed
  /-- A positional value is still ahead, or used. -/
  positional : ∀ supplied ∈ stream, supplied.keyword = none →
    supplied ∈ binder.stream ∨ binder.Uses supplied.value
  /-- A keyword that names a parameter is used. -/
  matched : ∀ supplied ∈ passed, ∀ keyword, supplied.keyword = some keyword →
    binder.declaration.parameter? keyword ≠ none → binder.Uses supplied.value
  /-- The last value of a keyword that names no parameter is unmatched, or used. -/
  recent : ∀ before supplied rest keyword, passed = before ++ supplied :: rest →
    supplied.keyword = some keyword → binder.declaration.parameter? keyword = none →
    (∀ later ∈ rest, later.keyword ≠ some keyword) →
    binder.unmatched.get? keyword = some supplied.value ∨ binder.Uses supplied.value
  /-- A keyword that names no parameter is unmatched until it is collected. -/
  collected : ∀ supplied ∈ passed, ∀ keyword, supplied.keyword = some keyword →
    binder.declaration.parameter? keyword = none →
    (∃ value, binder.unmatched.get? keyword = some value) ∨
      binder.declaration.has .doubleStarred = true

theorem accounts_start (function : FunctionId) (declaration : FunctionDeclaration)
    (callSite : Option NodeId) (stream : List Supplied) (nextCell : Nat) :
    Accounts stream [] (start function declaration callSite stream nextCell) where
  ordered := rfl
  positional := fun _ member _ => .inl member
  matched := List.forall_mem_nil _
  recent := by
    intro before supplied rest keyword split
    cases List.append_eq_nil_iff.mp split.symm |>.2
  collected := List.forall_mem_nil _

theorem filter_isNamed_dropWhile (stream : List Supplied) :
    (stream.dropWhile fun supplied => supplied.keyword.isNone).filter Supplied.isNamed =
      stream.filter Supplied.isNamed := by
  induction stream with
  | nil => rfl
  | cons supplied rest ih =>
    cases named : supplied.keyword with
    | some keyword => rw [List.dropWhile_cons_of_neg (by simp [named])]
    | none =>
      rw [List.dropWhile_cons_of_pos (by simp [named]), ih,
        List.filter_cons_of_neg (by simp [Supplied.isNamed, named])]

namespace Accounts

variable {stream passed before rest : List Supplied} {supplied : Supplied} {keyword : String}

section

variable (accounts : Accounts stream passed binder)

include accounts

/-- Moves may take keywords, use positional values and collect unmatched ones. -/
theorem advance (moves : binder.Moves after) {taken : List Supplied}
    (named : binder.stream.filter Supplied.isNamed = taken ++ after.stream.filter Supplied.isNamed)
    (ahead : ∀ supplied ∈ binder.stream, supplied.keyword = none →
      supplied ∈ after.stream ∨ after.Uses supplied.value)
    (settled : ∀ supplied ∈ taken, ∀ keyword, supplied.keyword = some keyword →
      binder.declaration.parameter? keyword ≠ none ∧ after.Uses supplied.value ∨
        binder.declaration.parameter? keyword = none ∧
          after.unmatched.get? keyword = some supplied.value)
    (unmatched : ∀ keyword value, binder.unmatched.get? keyword = some value →
      after.unmatched.get? keyword = some value ∨
        after.Uses value ∧ after.declaration.has .doubleStarred = true ∨
        ∃ supplied ∈ taken, supplied.keyword = some keyword) :
    Accounts stream (passed ++ taken) after where
  ordered := by rw [accounts.ordered, named, List.append_assoc]
  positional := by
    intro supplied member unnamed
    rcases accounts.positional supplied member unnamed with isAhead | uses
    · exact ahead supplied isAhead unnamed
    · exact .inr (moves.uses uses)
  matched := by
    rw [moves.declaration]
    intro supplied member keyword isNamed known
    rcases List.mem_append.mp member with earlier | isTaken
    · exact moves.uses (accounts.matched supplied earlier keyword isNamed known)
    · rcases settled supplied isTaken keyword isNamed with ⟨-, uses⟩ | ⟨unknown, -⟩
      · exact uses
      · exact absurd unknown known
  recent := by
    rw [moves.declaration]
    intro before supplied rest keyword split isNamed unknown last
    have ofTaken (isTaken : supplied ∈ taken) :
        after.unmatched.get? keyword = some supplied.value ∨ after.Uses supplied.value :=
      (settled supplied isTaken keyword isNamed).symm.imp And.right And.right
    rcases List.append_eq_append_iff.mp split with ⟨_, -, same⟩ | ⟨between, same, others⟩
    · exact ofTaken (same ▸ by simp)
    · cases between with
      | nil => exact ofTaken (List.nil_append taken ▸ others ▸ List.mem_cons_self)
      | cons first between =>
        cases others
        rcases accounts.recent before supplied between keyword same isNamed unknown fun later
          member => last later (List.mem_append_left _ member) with waits | uses
        · -- An earlier value is still the last of its keyword only if no other is taken.
          rcases unmatched keyword supplied.value waits with still | ⟨uses, -⟩ | ⟨other, isTaken, of⟩
          · exact .inl still
          · exact .inr uses
          · exact absurd of (last other (List.mem_append_right _ isTaken))
        · exact .inr (moves.uses uses)
  collected := by
    intro supplied member keyword isNamed unknown
    rw [moves.declaration] at unknown
    have ofTaken (other : Supplied) (isTaken : other ∈ taken)
        (otherNamed : other.keyword = some keyword) :
        ∃ value, after.unmatched.get? keyword = some value := by
      rcases settled other isTaken keyword otherNamed with ⟨known, -⟩ | ⟨-, waits⟩
      · exact absurd unknown known
      · exact ⟨_, waits⟩
    rcases List.mem_append.mp member with earlier | isTaken
    · rcases accounts.collected supplied earlier keyword isNamed unknown with ⟨value, waits⟩ | has
      · rcases unmatched keyword value waits with still | ⟨-, has⟩ | ⟨other, isTaken, of⟩
        · exact .inl ⟨value, still⟩
        · exact .inr has
        · exact .inl (ofTaken other isTaken of)
      · exact .inr (moves.declaration ▸ has)
    · exact .inl (ofTaken supplied isTaken isNamed)

/-- The first keyword that is ahead is taken, and nothing else. -/
theorem take (moves : binder.Moves after) (ahead : binder.stream = before ++ supplied :: rest)
    (positional : ∀ earlier ∈ before, earlier.keyword = none)
    (named : supplied.keyword = some keyword) (left : after.stream = before ++ rest)
    (settled : binder.declaration.parameter? keyword ≠ none ∧ after.Uses supplied.value ∨
      binder.declaration.parameter? keyword = none ∧
        after.unmatched.get? keyword = some supplied.value)
    (unmatched : ∀ name value, name ≠ keyword → binder.unmatched.get? name = some value →
      after.unmatched.get? name = some value) :
    Accounts stream (passed ++ [supplied]) after := by
  refine accounts.advance moves ?_ (fun other member unnamed => .inl ?_) ?_
    fun name value waits => ?_
  · have skipped : before.filter Supplied.isNamed = [] :=
      List.filter_eq_nil_iff.mpr fun earlier member => by
        simp [Supplied.isNamed, positional earlier member]
    have isNamed : supplied.isNamed = true := by simp [Supplied.isNamed, named]
    rw [ahead, left, List.filter_append, List.filter_append, skipped,
      List.filter_cons_of_pos isNamed]
    rfl
  · rw [ahead, List.mem_append, List.mem_cons] at member
    rw [left, List.mem_append]
    rcases member with inBefore | rfl | inRest
    · exact .inl inBefore
    · cases named.symm.trans unnamed
    · exact .inr inRest
  · intro other isTaken name isNamed
    cases List.mem_singleton.mp isTaken
    cases named.symm.trans isNamed
    exact settled
  · by_cases same : name = keyword
    · exact .inr (.inr ⟨supplied, List.mem_singleton_self _, same ▸ named⟩)
    · exact .inl (unmatched name value same waits)

/-- What was accounted for before a move is accounted for after it. -/
theorem of_moves (moves : binder.Moves after) : ∃ taken, Accounts stream taken after := by
  have made := moves
  cases made with
  | leave ahead positional named unknown =>
    exact ⟨_, accounts.take moves ahead positional named rfl
      (.inr ⟨unknown, Table.get?_insert_self _ _ _⟩)
      fun _ _ different waits => (Table.get?_insert_of_ne _ different _).trans waits⟩
  | supply ahead positional named looked =>
    exact ⟨_, accounts.take moves ahead positional named rfl
      (.inl ⟨by simp [looked], uses_inserted rfl (.self _)⟩) fun _ _ _ waits => waits⟩
  | widen ahead positional named looked =>
    exact ⟨_, accounts.take moves ahead positional named rfl (.inl ⟨by simp [looked],
      uses_inserted rfl (.merged (List.mem_cons_of_mem _ List.mem_cons_self) (.self _))⟩)
      fun _ _ _ waits => waits⟩
  | reuse | missing =>
    exact ⟨_, accounts.advance moves (List.nil_append _).symm (fun _ member _ => .inl member)
      (List.forall_mem_nil _) fun _ _ => .inl⟩
  | @position parameter supplied rest declared unused ahead positional =>
    refine ⟨passed ++ [], accounts.advance moves ?_ (fun other member _ => ?_)
      (List.forall_mem_nil _) fun _ _ => .inl⟩
    · rw [ahead, List.filter_cons_of_neg (by simp [Supplied.isNamed, positional])]
      rfl
    · rw [ahead, List.mem_cons] at member
      rcases member with rfl | behind
      · exact .inr (uses_inserted rfl (.self _))
      · exact .inl behind
  | @starred parameter declared unused =>
    refine ⟨passed ++ [], accounts.advance moves ?_ (fun other member _ => ?_)
      (List.forall_mem_nil _) fun _ _ => .inl⟩
    · exact (filter_isNamed_dropWhile binder.stream).symm
    · have parted : other ∈ (binder.stream.takeWhile fun supplied => supplied.keyword.isNone) ++
          binder.stream.dropWhile fun supplied => supplied.keyword.isNone := by
        rw [List.takeWhile_append_dropWhile]
        exact member
      rcases List.mem_append.mp parted with packed | behind
      · exact .inr (uses_inserted rfl (.packedTuple (List.mem_map_of_mem packed) (.self _)))
      · exact .inl behind
  | @doubleStarred parameter declared kind unused =>
    refine ⟨_, accounts.advance moves (List.nil_append _).symm (fun _ member _ => .inl member)
      (List.forall_mem_nil _) fun keyword value waits => .inr (.inl ⟨?_, ?_⟩)⟩
    · exact uses_inserted rfl (.packedDict (Table.mem_of_find waits) (.self _))
    · rw [moves.declaration, FunctionDeclaration.has, List.any_eq_true]
      exact ⟨parameter, List.mem_of_getElem? declared, by simp [kind]⟩

/-- Of a keyword that names no parameter, a value waits or this one or a later one is used. -/
theorem waits_or_used (split : passed = before ++ supplied :: rest)
    (named : supplied.keyword = some keyword)
    (unknown : binder.declaration.parameter? keyword = none) :
    (∃ value, binder.unmatched.get? keyword = some value) ∨
      binder.Uses supplied.value ∨
      ∃ later ∈ rest, later.keyword = some keyword ∧ binder.Uses later.value := by
  have some_named : ∃ item ∈ supplied :: rest, item.keyword = some keyword :=
    ⟨supplied, List.mem_cons_self, named⟩
  obtain ⟨first, last, others, splitRest, lastNamed, isLast⟩ := exists_last some_named
  rw [splitRest, ← List.append_assoc] at split
  rcases accounts.recent _ last others keyword split lastNamed unknown isLast with waits | uses
  · exact .inl ⟨_, waits⟩
  · have member : last ∈ supplied :: rest := splitRest ▸ List.mem_append_right _ List.mem_cons_self
    rcases List.mem_cons.mp member with rfl | inRest
    · exact .inr (.inl uses)
    · exact .inr (.inr ⟨last, inRest, lastNamed, uses⟩)

/--
A value that no parameter uses in the end is left over, or its keyword is unmatched, or its
keyword is repeated and collected with another value.
-/
theorem settle (drained : ∀ supplied ∈ binder.stream, supplied.keyword = none)
    (split : stream = before ++ supplied :: rest) (unused : ¬binder.Uses supplied.value) :
    supplied.keyword = none ∧ supplied ∈ binder.stream ∨
      ∃ keyword, supplied.keyword = some keyword ∧
        ((∃ value, binder.unmatched.get? keyword = some value) ∨
          binder.declaration.parameter? keyword = none ∧
            binder.declaration.has .doubleStarred = true ∧
            ∃ later ∈ rest, later.keyword = some keyword ∧ binder.Uses later.value) := by
  -- No keyword is ahead any more, so that every named value of the stream has been taken.
  have nothingAhead : binder.stream.filter Supplied.isNamed = [] :=
    List.filter_eq_nil_iff.mpr fun other member => by simp [Supplied.isNamed, drained other member]
  have ordered := accounts.ordered
  rw [nothingAhead, List.append_nil, split, List.filter_append] at ordered
  cases named : supplied.keyword with
  | none =>
    rcases accounts.positional supplied (split ▸ List.mem_append_right _ List.mem_cons_self)
      named with ahead | uses
    · exact .inl ⟨rfl, ahead⟩
    · exact absurd uses unused
  | some keyword =>
    have isNamed : supplied.isNamed = true := by simp [Supplied.isNamed, named]
    rw [List.filter_cons_of_pos isNamed] at ordered
    have taken : supplied ∈ passed := ordered ▸ List.mem_append_right _ List.mem_cons_self
    refine .inr ⟨keyword, rfl, ?_⟩
    by_cases unknown : binder.declaration.parameter? keyword = none
    · rcases accounts.collected supplied taken keyword named unknown with waits | has
      · exact .inl waits
      · rcases accounts.waits_or_used ordered.symm named unknown with
          waits | uses | ⟨later, member, sameName, uses⟩
        · exact .inl waits
        · exact absurd uses unused
        · exact .inr ⟨unknown, has, later, (List.mem_filter.mp member).1, sameName, uses⟩
    · exact absurd (accounts.matched supplied taken keyword named unknown) unused

end

end Accounts

/-! ## Places of used values -/

namespace Places

variable {start : Nat}

section

variable (places : binder.Places start)
  (complete : binder.result.length = binder.declaration.parameters.length)

include places complete

/-- What a parameter was supplied is in its place once every parameter is bound. -/
theorem heldAt_of_uses (uses : binder.Uses value) :
    ∃ index, BoundParameter.HeldAt binder.result value index := by
  obtain ⟨name, bound, found, holds⟩ := uses
  obtain ⟨parameter, declared, rfl⟩ := places.known name bound found
  have within : bound.index < binder.result.length := by
    rw [complete]
    exact (List.getElem?_eq_some_iff.mp declared).1
  obtain ⟨result, placed⟩ : ∃ result, binder.result[bound.index]? = some result :=
    ⟨_, List.getElem?_eq_getElem within⟩
  refine ⟨bound.index, result, placed, ?_⟩
  rcases places.filled bound.index parameter result declared placed with same | ⟨unused, -⟩
  · cases found.symm.trans same
    exact holds
  · cases found.symm.trans unused

/-- A place that holds a value of the stream holds what its parameter was supplied. -/
theorem used_of_heldAt (early : value.cell.index < start)
    (held : BoundParameter.HeldAt binder.result value index) :
    ∃ parameter bound, binder.declaration.parameters[index]? = some parameter ∧
      binder.used.get? parameter.name = some bound ∧
      0 < bound.value.occurrences value.cell := by
  obtain ⟨bound, placed, holds⟩ := held
  have within : index < binder.declaration.parameters.length := by
    rw [← complete]
    exact (List.getElem?_eq_some_iff.mp placed).1
  have declared := List.getElem?_eq_getElem within
  have occurs := holds.occurrences_pos
  rcases places.filled index _ bound declared placed with used | ⟨-, -, absent, -⟩
  · exact ⟨_, bound, declared, used, occurs⟩
  · exact absurd (absent value.cell early) occurs.ne'

end

/-- If no cell has two places, a value of the stream has at most one. -/
theorem eq_of_heldAt (places : binder.Places start) (separates : binder.Separates)
    (distinct : (binder.declaration.parameters.map Parameter.name).Nodup)
    (complete : binder.result.length = binder.declaration.parameters.length)
    (early : value.cell.index < start) (held : BoundParameter.HeldAt binder.result value index)
    (otherHeld : BoundParameter.HeldAt binder.result value other) :
    index = other := by
  obtain ⟨parameter, bound, declared, used, occurs⟩ := places.used_of_heldAt complete early held
  obtain ⟨otherParameter, otherBound, otherDeclared, otherUsed, otherOccurs⟩ :=
    places.used_of_heldAt complete early otherHeld
  by_contra apart
  have different : parameter.name ≠ otherParameter.name := fun same =>
    apart (FunctionDeclaration.index_eq_of_name distinct declared otherDeclared same)
  have twice := Table.add_le_weight different used otherUsed
    fun bound => bound.value.occurrences value.cell
  have once := separates.once value.cell
  unfold Binder.occurrences at once
  omega

end Places

/-! ## Whole streams -/

theorem places_start (function : FunctionId) (declaration : FunctionDeclaration)
    (callSite : Option NodeId) (stream : List Supplied) (nextCell : Nat) :
    (start function declaration callSite stream nextCell).Places nextCell where
  starts := Nat.le_refl _
  indexed := fun _ _ found => by cases found
  known := fun _ _ found => by cases found
  filled := fun _ _ _ _ found => by cases found

/-- Whatever a binder does with a stream, it can account for it. -/
theorem invariants_of_moves (distinct : (declaration.parameters.map Parameter.name).Nodup)
    (separates : (start function declaration callSite stream nextCell).Separates)
    (moves : Relation.ReflTransGen Moves (start function declaration callSite stream nextCell)
      binder) :
    binder.declaration = declaration ∧ binder.given = stream.length ∧ binder.Separates ∧
      binder.Places nextCell ∧ ∃ passed, Accounts stream passed binder := by
  induction moves with
  | refl =>
    exact ⟨rfl, rfl, separates, places_start _ _ _ _ _, [], accounts_start _ _ _ _ _⟩
  | tail _ moves ih =>
    obtain ⟨rfl, given, separates, places, passed, accounts⟩ := ih
    exact ⟨moves.declaration, moves.given.trans given, separates.of_moves moves,
      places.of_moves distinct moves, accounts.of_moves moves⟩

/-! ## Reports -/

/-- A keyword that is still unmatched when a binder finishes is reported. -/
theorem unexpected_mem_issues_finish
    (waits : binder.drainKeywords.unmatched.get? keyword = some value) :
    ∃ node, Diagnostic.unexpected binder.drainKeywords.declaration keyword node ∈
      binder.finish.issues := by
  have member := List.mem_map_of_mem (f := fun entry : String × Deferred =>
    Diagnostic.unexpected binder.drainKeywords.declaration entry.1
      (entry.2.node?.or binder.drainKeywords.callSite)) (Table.mem_of_find waits)
  refine ⟨value.node?.or binder.drainKeywords.callSite, ?_⟩
  rw [finish_eq]
  exact List.mem_append_left _ (List.mem_append_right _ member)

/-- A value that is still ahead when a binder finishes makes the call supply too many. -/
theorem tooMany_mem_issues_finish (ahead : supplied ∈ binder.drainKeywords.stream) :
    ∃ node, Diagnostic.tooMany binder.drainKeywords.declaration binder.drainKeywords.given node ∈
      binder.finish.issues := by
  obtain ⟨first, isFirst⟩ : ∃ first, binder.drainKeywords.stream.head? = some first :=
    ⟨_, List.head?_eq_some_head (List.ne_nil_of_mem ahead)⟩
  refine ⟨first.value.node?.or binder.drainKeywords.callSite, ?_⟩
  rw [finish_eq, isFirst]
  exact List.mem_append_right _ List.mem_cons_self

/-- What becomes of a value of a stream in which no cell occurs twice. -/
theorem outcome_bindStream (distinct : (declaration.parameters.map Parameter.name).Nodup)
    (separates : (start function declaration callSite stream nextCell).Separates)
    (split : stream = before ++ supplied :: rest) :
    supplied.Outcome declaration stream.length
      (bindStream function declaration callSite stream nextCell).result
      (bindStream function declaration callSite stream nextCell).issues rest := by
  obtain ⟨binder, moves, complete, finishes⟩ :=
    moves_bindStream function declaration callSite stream nextCell
  obtain ⟨rfl, given, separated, places, passed, accounts⟩ :=
    invariants_of_moves distinct separates moves
  -- The cell of a supplied value is older than the cells that binding begins.
  have early : supplied.value.cell.index < nextCell := by
    by_contra late
    have none := separates.fresh supplied.value.cell (Nat.not_lt.mp late)
    have taken := occurrences_takeOut split supplied.value.cell
    have occurs := supplied.value.occurrences_cell_pos
    simp only [Binder.occurrences, start] at none
    omega
  rw [finishes, result_finish, ← given]
  by_cases held : ∃ index, BoundParameter.HeldAt binder.drainKeywords.result supplied.value index
  · obtain ⟨index, isHeld⟩ := held
    exact .held ⟨index, isHeld, fun other otherHeld =>
      places.eq_of_heldAt separated distinct complete early otherHeld isHeld⟩
  · have absent := not_exists.mp held
    have unused : ¬binder.drainKeywords.Uses supplied.value := fun uses =>
      held (places.heldAt_of_uses complete uses)
    have drained : ∀ other ∈ binder.drainKeywords.stream, other.keyword = none :=
      fun other member => by simpa using (List.mem_filter.mp member).2
    rcases accounts.settle drained split unused with
      ⟨positional, ahead⟩ | ⟨keyword, named, ⟨value, waits⟩ |
        ⟨unknown, collects, later, member, laterNamed, uses⟩⟩
    · obtain ⟨node, reported⟩ := tooMany_mem_issues_finish ahead
      exact .surplus node absent positional reported
    · obtain ⟨node, reported⟩ := unexpected_mem_issues_finish waits
      exact .unexpected keyword node absent named reported
    · obtain ⟨index, collected⟩ := places.heldAt_of_uses complete uses
      exact .replaced keyword later index absent named unknown collects member laterNamed collected

end Binder

/-! ## Whole calls -/

/-- No cell occurs twice in the values that arguments supply. -/
theorem separates_of_unpack {engine : Engine} (reads : engine.Reads State.Proceeds)
    {function? : Option FunctionId} {sink noted : Diagnostics} {state unpacked : State}
    (unpacks : engine.unpack arguments function? sink state = .ok ((stream, noted), unpacked))
    (function : FunctionId) (declaration : FunctionDeclaration) (callSite : Option NodeId) :
    (Binder.start function declaration callSite stream unpacked.cells.size).Separates := by
  have light (cell : CellId) :
      (Binder.start function declaration callSite stream unpacked.cells.size).occurrences cell ≤
        cell.between state.cells.size unpacked.cells.size := by
    have mints : Mints cell 0 (engine.unpack arguments function? sink) fun answer =>
        Supplied.occurrences cell answer.1 := mints_unpack reads arguments function? sink
    exact (mints _ _ _ unpacks).2.trans (Nat.zero_add _).le
  exact
    { once := fun cell => (light cell).trans (cell.between_le_one _ _)
      fresh := fun cell later =>
        Nat.le_zero.mp ((light cell).trans (CellId.between_eq_zero_of_le later _).le) }

/--
Let the parameters of a function have names of their own, with diagnostics on and a sink
that records.  If the arguments of a call unpack, then binding returns, and what becomes of
every value of the unpacked stream is known: exactly one returned parameter holds it, or its
loss is reported, or its keyword names no parameter and is repeated later in the stream, and
a later value is collected instead of it.
-/
theorem outcome_of_supplied
    {environment : Environment}
    (reporting : environment.settings.reportsDiagnostics = true)
    {function : FunctionId}
    {declaration : FunctionDeclaration}
    (declared : environment.declarations.function? function = some declaration)
    (distinct : (declaration.parameters.map Parameter.name).Nodup)
    {arguments : Arguments}
    {sink noted : Diagnostics}
    (recording : sink.discards = false)
    {fuel : Nat}
    {state unpacked : State}
    {stream : List Supplied}
    (unpacks : environment.answer fuel (.unpack arguments (some function) sink) state =
      .ok ((stream, noted), unpacked)) :
    ∃ bound issues after,
      environment.answer fuel (.bind function arguments sink) state =
        .ok ((bound, { noted with items := noted.items ++ issues }), after) ∧
      ∀ before supplied rest, stream = before ++ supplied :: rest →
        supplied.Outcome declaration stream.length bound issues rest := by
  rw [Environment.answer, ← environment.stage_eq_engine] at unpacks
  rw [Environment.answer, ← environment.stage_eq_engine]
  rw [← environment.stage_toEnvironment fuel] at declared
  obtain ⟨binder, after, rfl, binds⟩ := Engine.bind_eq_ok declared unpacks
  have records : noted.discards = false :=
    (((environment.stage fuel).ensures_unpack (some function) arguments sink state _ unpacked
      unpacks).2).trans recording
  rw [Engine.recorded, if_pos (by simp [reporting, records])] at binds
  have separates := separates_of_unpack (environment.abides_proceeds fuel).toReads unpacks
    function declaration arguments.callSite?
  exact ⟨_, _, after, binds, fun before supplied rest split =>
    Binder.outcome_bindStream distinct separates split⟩

/--
A method call whose receiver is given a second time by its keyword, with a repeated keyword
that names no parameter.
-/
theorem outcome_of_supplied_of_mixed :
    let environment := Engine.ofEveryKind.toEnvironment
    let arguments : Arguments :=
      .bound ⟨3⟩ (.written [.positional ⟨0⟩, .keyword "self" ⟨1⟩, .keyword "color" ⟨2⟩,
        .keyword "color" ⟨4⟩] (some ⟨5⟩))
    let stream : List Supplied :=
      [⟨none, .known ⟨0⟩ (.singleton ⟨3⟩)⟩, ⟨none, .node ⟨1⟩ ⟨0⟩⟩,
        ⟨some "self", .node ⟨2⟩ ⟨1⟩⟩, ⟨some "color", .node ⟨3⟩ ⟨2⟩⟩,
        ⟨some "color", .node ⟨4⟩ ⟨4⟩⟩]
    ∃ declaration unpacked bound issues after,
      environment.settings.reportsDiagnostics = true ∧
      environment.declarations.function? ⟨0⟩ = some declaration ∧
      (declaration.parameters.map Parameter.name).Nodup ∧
      environment.answer 0 (.unpack arguments (some ⟨0⟩) {}) { arena := .empty } =
        .ok ((stream, {}), unpacked) ∧
      environment.answer 0 (.bind ⟨0⟩ arguments {}) { arena := .empty } =
        .ok ((bound, { items := issues }), after) ∧
      ∀ before supplied rest, stream = before ++ supplied :: rest →
        supplied.Outcome declaration 5 bound issues rest := by
  intro environment arguments stream
  have declared : environment.declarations.function? ⟨0⟩ = some _ := rfl
  have unpacks : environment.answer 0 (.unpack arguments (some ⟨0⟩) {}) { arena := .empty } =
      .ok ((stream, {}), _) := rfl
  obtain ⟨bound, issues, after, binds, outcomes⟩ :=
    outcome_of_supplied rfl declared (by decide) rfl unpacks
  exact ⟨_, _, bound, issues, after, rfl, declared, by decide, unpacks, binds, outcomes⟩

/-- An environment with one function, which collects keywords. -/
def Environment.ofCollector : Environment where
  declarations.functions := #[
    { name := "f", parameters := [{ name := "kw", kind := .doubleStarred }] }]
  provider := { inferNode := fun _ => .done ∅ }

/--
Of two values for one keyword that the function collects, no parameter holds the first, and
nothing is reported.
-/
theorem first_value_lost_of_repeated_keyword :
    let arguments : Arguments := .written [.keyword "x" ⟨0⟩, .keyword "x" ⟨1⟩] none
    let first : Supplied := ⟨some "x", .node ⟨0⟩ ⟨0⟩⟩
    let second : Supplied := ⟨some "x", .node ⟨1⟩ ⟨1⟩⟩
    ∃ unpacked bound after,
      Environment.ofCollector.settings.reportsDiagnostics = true ∧
      Environment.ofCollector.answer 0 (.unpack arguments (some ⟨0⟩) {}) { arena := .empty } =
        .ok (([first, second], {}), unpacked) ∧
      Environment.ofCollector.answer 0 (.bind ⟨0⟩ arguments {}) { arena := .empty } =
        .ok ((bound, {}), after) ∧
      ∀ index, ¬BoundParameter.HeldAt bound first.value index := by
  intro arguments first second
  refine ⟨_, [⟨⟨0⟩, 0, "kw", .doubleStarred, .packedDict ⟨2⟩ [("x", second.value)], false⟩], _,
    rfl, rfl, rfl, ?_⟩
  rintro index ⟨parameter, found, holds⟩
  cases List.mem_singleton.mp (List.mem_of_getElem? found)
  exact absurd holds.occurrences_pos (by decide)

end TypeInference
