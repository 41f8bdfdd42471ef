import Mathlib.Data.List.Basic
import Mathlib.Logic.Relation
import TypeInference.Call.Binder

/-!
# Moves of a binder

Whatever a call supplies, a binder makes a few kinds of moves: it takes a keyword out of the
stream, to leave it unmatched, to supply a parameter or to widen one, and it appends the
next parameter to the result.  Binding a stream is a sequence of such moves, for every order
of parameters and of arguments, so that what every move preserves holds of every call.
-/

namespace TypeInference

variable {rest : List Supplied} {supplied : Supplied} {parameter : Parameter}

/-! ## Changing the first entry -/

section

variable {α : Type} {condition : α → Bool} {change : α → α} {items : List α}

theorem length_modifyFirst : (modifyFirst condition change items).length = items.length := by
  induction items with
  | nil => rfl
  | cons item rest ih =>
    unfold modifyFirst
    split
    · rfl
    · rw [List.length_cons, ih, List.length_cons]

theorem modifyFirst_eq_self (none : ∀ item ∈ items, condition item = false) :
    modifyFirst condition change items = items := by
  induction items with
  | nil => rfl
  | cons item rest ih =>
    rw [List.forall_mem_cons] at none
    rw [modifyFirst, none.1, ih none.2]
    rfl

/-- If the condition is to stand at a place, then only the entry at that place changes. -/
theorem getElem?_modifyFirst
    (placed : ∀ index item, items[index]? = some item → (condition item = true ↔ index = place))
    (index : Nat) :
    (modifyFirst condition change items)[index]? =
      if index = place then items[index]?.map change else items[index]? := by
  induction items generalizing place index with
  | nil => simp [modifyFirst]
  | cons item rest ih =>
    have first := placed 0 item rfl
    unfold modifyFirst
    cases place with
    | zero =>
      rw [if_pos (first.mpr rfl)]
      cases index <;> simp
    | succ place =>
      rw [if_neg (by simp [first])]
      cases index with
      | zero => simp
      | succ index =>
        have restPlaced : ∀ later entry, rest[later]? = some entry →
            (condition entry = true ↔ later = place) := by
          intro later entry found
          rw [placed (later + 1) entry found]
          exact Nat.add_right_cancel_iff
        simpa using ih restPlaced index

end

namespace Binder

inductive Moves : Binder → Binder → Prop
  /-- A keyword names no parameter. -/
  | leave {binder : Binder} {before rest : List Supplied} {supplied : Supplied} {keyword : String}
      (ahead : binder.stream = before ++ supplied :: rest)
      (positional : ∀ earlier ∈ before, earlier.keyword = none)
      (named : supplied.keyword = some keyword)
      (unknown : binder.declaration.parameter? keyword = none) :
      Moves binder
        { binder with
          stream := before ++ rest
          sawKeyword := true
          unmatched := binder.unmatched.insert keyword supplied.value }
  /-- A keyword names a parameter that has no value. -/
  | supply {binder : Binder} {before rest : List Supplied} {supplied : Supplied} {keyword : String}
      {parameter : Parameter} {index : Nat}
      (ahead : binder.stream = before ++ supplied :: rest)
      (positional : ∀ earlier ∈ before, earlier.keyword = none)
      (named : supplied.keyword = some keyword)
      (looked : binder.declaration.parameter? keyword = some (parameter, index))
      (unused : binder.used.get? keyword = none) :
      Moves binder
        ({ binder with stream := before ++ rest, sawKeyword := true }.supply parameter index
          supplied.value)
  /-- A keyword names a parameter that has a value. -/
  | widen {binder : Binder} {before rest : List Supplied} {supplied : Supplied} {keyword : String}
      {parameter : Parameter} {index : Nat} {existing : BoundParameter}
      (ahead : binder.stream = before ++ supplied :: rest)
      (positional : ∀ earlier ∈ before, earlier.keyword = none)
      (named : supplied.keyword = some keyword)
      (looked : binder.declaration.parameter? keyword = some (parameter, index))
      (found : binder.used.get? keyword = some existing) :
      Moves binder
        ({ binder with stream := before ++ rest, sawKeyword := true }.widen keyword index existing
          supplied.value)
  /-- The next parameter was supplied before. -/
  | reuse {binder : Binder} {parameter : Parameter} {bound : BoundParameter}
      (declared : binder.declaration.parameters[binder.result.length]? = some parameter)
      (found : binder.used.get? parameter.name = some bound) :
      Moves binder (binder.append bound)
  /-- The next parameter takes a positional value. -/
  | position {binder : Binder} {parameter : Parameter} {supplied : Supplied} {rest : List Supplied}
      (declared : binder.declaration.parameters[binder.result.length]? = some parameter)
      (unused : binder.used.get? parameter.name = none)
      (ahead : binder.stream = supplied :: rest)
      (positional : supplied.keyword = none)
      (single : parameter.kind.collects = false) :
      Moves binder
        ({ binder with stream := rest }.bindValue parameter binder.result.length supplied.value)
  /-- The next parameter collects positional values. -/
  | starred {binder : Binder} {parameter : Parameter}
      (declared : binder.declaration.parameters[binder.result.length]? = some parameter)
      (unused : binder.used.get? parameter.name = none)
      (kind : parameter.kind = .starred) :
      Moves binder (binder.bindStarred parameter binder.result.length)
  /-- The next parameter collects what is unmatched. -/
  | doubleStarred {binder : Binder} {parameter : Parameter}
      (declared : binder.declaration.parameters[binder.result.length]? = some parameter)
      (kind : parameter.kind = .doubleStarred)
      (unused : binder.used.get? parameter.name = none) :
      Moves binder (binder.bindDoubleStarred parameter binder.result.length)
  /-- The next parameter is given nothing, and no keyword is ahead. -/
  | missing {binder : Binder} {parameter : Parameter} {value : Deferred} {isDefault : Bool}
      {issues : List Diagnostic}
      (declared : binder.declaration.parameters[binder.result.length]? = some parameter)
      (unused : binder.used.get? parameter.name = none)
      (positional : ∀ supplied ∈ binder.stream, supplied.keyword = none)
      (isNew : (∃ default, value = .node ⟨binder.nextCell⟩ default) ∨
        value = .unknown ⟨binder.nextCell⟩)
      (single : parameter.kind.collects = false) :
      Moves binder
        ({ binder with nextCell := binder.nextCell + 1, issues := issues }.append
          ⟨binder.function, binder.result.length, parameter.name, parameter.kind, value,
            isDefault⟩)

variable {binder after : Binder}

theorem Moves.declaration (moves : binder.Moves after) :
    after.declaration = binder.declaration := by
  cases moves with
  | _ => rfl

theorem Moves.given (moves : binder.Moves after) : after.given = binder.given := by
  cases moves with
  | _ => rfl

theorem declaration_of_moves (moves : Relation.ReflTransGen Moves binder after) :
    after.declaration = binder.declaration := by
  induction moves with
  | refl => rfl
  | tail _ moves ih => exact moves.declaration.trans ih

/-! ## Keywords -/

/-- A move that binds no further parameter. -/
def TakesKeyword (binder after : Binder) : Prop :=
  binder.Moves after ∧ after.result.length = binder.result.length

/-- Binding a keyword is a move that takes it out of the stream. -/
theorem takes_bindKeyword (binder : Binder)
    (positional : ∀ earlier ∈ before, earlier.keyword = none)
    (named : supplied.keyword = some keyword) :
    TakesKeyword { binder with stream := before ++ supplied :: rest }
      { binder.bindKeyword keyword supplied.value with stream := before ++ rest } := by
  simp only [bindKeyword]
  cases looked : binder.declaration.parameter? keyword with
  | none => exact ⟨.leave rfl positional named looked, rfl⟩
  | some entry =>
    obtain ⟨parameter, index⟩ := entry
    cases found : binder.used.get? keyword with
    | none => exact ⟨.supply rfl positional named looked found, length_modifyFirst⟩
    | some existing => exact ⟨.widen rfl positional named looked found, length_modifyFirst⟩

theorem takes_bindLeadingKeywords (binder : Binder) (stream : List Supplied) :
    Relation.ReflTransGen TakesKeyword { binder with stream := stream }
      (binder.bindLeadingKeywords stream) := by
  induction stream generalizing binder with
  | nil => exact .refl
  | cons supplied rest ih =>
    unfold bindLeadingKeywords
    split
    · rename_i keyword named
      exact .head (takes_bindKeyword binder (List.forall_mem_nil _) named) (ih _)
    · exact .refl

/-- What is left behind the leading keywords starts with a positional value. -/
theorem positional_of_bindLeadingKeywords (binder : Binder) {stream : List Supplied}
    (ahead : (binder.bindLeadingKeywords stream).stream = supplied :: rest) :
    supplied.keyword = none := by
  induction stream generalizing binder with
  | nil => cases ahead
  | cons first others ih =>
    unfold bindLeadingKeywords at ahead
    split at ahead
    · exact ih _ ahead
    · rename_i positional
      cases ahead
      exact positional

theorem takes_drainKeywords (binder : Binder) :
    Relation.ReflTransGen TakesKeyword binder binder.drainKeywords := by
  have drained : ∀ (items kept : List Supplied) (binder : Binder),
      (∀ earlier ∈ kept, earlier.keyword = none) →
      Relation.ReflTransGen TakesKeyword { binder with stream := kept ++ items }
        { items.foldl bindNamed binder with
          stream := kept ++ items.filter fun supplied => supplied.keyword.isNone } := by
    intro items
    induction items with
    | nil => exact fun _ _ _ => .refl
    | cons supplied rest ih =>
      intro kept binder positional
      rw [List.foldl_cons, bindNamed]
      split
      · rename_i keyword named
        rw [List.filter_cons_of_neg (by simp [named])]
        exact .head (takes_bindKeyword binder positional named) (ih kept _ positional)
      · rename_i unnamed
        rw [List.filter_cons_of_pos (by simp [unnamed])]
        have keptPositional : ∀ earlier ∈ kept ++ [supplied], earlier.keyword = none := by
          intro earlier member
          rcases List.mem_append.mp member with inKept | isLast
          · exact positional earlier inKept
          · exact List.mem_singleton.mp isLast ▸ unnamed
        simpa only [List.append_assoc, List.singleton_append] using
          ih (kept ++ [supplied]) binder keptPositional
  exact drained binder.stream [] binder (List.forall_mem_nil _)

theorem takes_prepare (binder : Binder) (kind : ParameterKind) :
    Relation.ReflTransGen TakesKeyword binder (binder.prepare kind) := by
  have leading := takes_bindLeadingKeywords binder binder.stream
  cases kind with
  | keywordOnly | doubleStarred => exact leading.trans (takes_drainKeywords _)
  | positional | starred => exact leading

theorem moves_of_takes (takes : Relation.ReflTransGen TakesKeyword binder after) :
    Relation.ReflTransGen Moves binder after ∧ after.result.length = binder.result.length := by
  induction takes with
  | refl => exact ⟨.refl, rfl⟩
  | tail _ last ih => exact ⟨ih.1.tail last.1, last.2.trans ih.2⟩

/-! ## Parameters -/

theorem moves_bindMissing
    (declared : binder.declaration.parameters[binder.result.length]? = some parameter)
    (unused : binder.used.get? parameter.name = none)
    (positional : ∀ supplied ∈ binder.stream, supplied.keyword = none)
    (single : parameter.kind.collects = false) :
    Moves binder (binder.bindMissing parameter binder.result.length) ∧
      (binder.bindMissing parameter binder.result.length).result.length =
        binder.result.length + 1 := by
  unfold bindMissing
  cases parameter.default with
  | some default =>
    exact ⟨.missing declared unused positional (.inl ⟨default, rfl⟩) single, List.length_append⟩
  | none =>
    dsimp only
    split <;>
      exact ⟨.missing declared unused positional (.inr rfl) single, List.length_append⟩

/-- Binding the next parameter is a sequence of moves. -/
theorem moves_bindParameter
    (declared : binder.declaration.parameters[binder.result.length]? = some parameter) :
    Relation.ReflTransGen Moves binder (binder.bindParameter (parameter, binder.result.length)) ∧
      (binder.bindParameter (parameter, binder.result.length)).result.length =
        binder.result.length + 1 := by
  obtain ⟨prepared, sameLength⟩ := moves_of_takes (takes_prepare binder parameter.kind)
  have stillDeclared := declared
  rw [← declaration_of_moves prepared, ← sameLength] at stillDeclared
  refine and_imp.mpr (fun moves longer => ⟨prepared.tail moves, longer⟩) ?_
  simp only [bindParameter]
  rw [← sameLength]
  split
  · rename_i bound found
    exact ⟨.reuse stillDeclared found, List.length_append⟩
  · rename_i unused
    unfold bindUnused
    split
    · rename_i kind
      exact ⟨.starred stillDeclared unused kind, List.length_append⟩
    · rename_i kind
      exact ⟨.doubleStarred stillDeclared kind unused, List.length_append⟩
    · rename_i kind
      have single : parameter.kind.collects = false := by
        rw [kind]
        rfl
      refine moves_bindMissing stillDeclared unused (fun supplied member => ?_) single
      rw [kind] at member
      simpa using (List.mem_filter.mp member).2
    · rename_i kind
      have single : parameter.kind.collects = false := by
        rw [kind]
        rfl
      split
      · rename_i nothing
        refine moves_bindMissing stillDeclared unused ?_ single
        rw [nothing]
        exact List.forall_mem_nil _
      · rename_i supplied rest ahead
        have positional : supplied.keyword = none := by
          rw [kind] at ahead
          exact positional_of_bindLeadingKeywords binder ahead
        exact ⟨.position stillDeclared unused ahead positional single, List.length_append⟩

/-- Binding the parameters that are left is a sequence of moves. -/
theorem moves_bindParameters {rest : List Parameter}
    (left : binder.declaration.parameters.drop binder.result.length = rest) :
    Relation.ReflTransGen Moves binder
        ((rest.zipIdx binder.result.length).foldl bindParameter binder) ∧
      ((rest.zipIdx binder.result.length).foldl bindParameter binder).result.length =
        binder.result.length + rest.length := by
  induction rest generalizing binder with
  | nil => exact ⟨.refl, rfl⟩
  | cons parameter rest ih =>
    have declared : binder.declaration.parameters[binder.result.length]? = some parameter := by
      rw [← List.head?_drop, left]
      rfl
    obtain ⟨moves, longer⟩ := moves_bindParameter declared
    have stillLeft :
        (binder.bindParameter (parameter, binder.result.length)).declaration.parameters.drop
          (binder.bindParameter (parameter, binder.result.length)).result.length = rest := by
      rw [declaration_of_moves moves, longer, ← List.tail_drop, left]
      rfl
    obtain ⟨others, length⟩ := ih stillLeft
    rw [longer] at others length
    refine ⟨moves.trans others, length.trans ?_⟩
    rw [List.length_cons]
    omega

/-- Binding a stream is a sequence of moves up to where no keyword is ahead. -/
theorem moves_bindStream (function : FunctionId) (declaration : FunctionDeclaration)
    (callSite : Option NodeId) (stream : List Supplied) (nextCell : Nat) :
    ∃ binder : Binder,
      Relation.ReflTransGen Moves (start function declaration callSite stream nextCell)
        binder.drainKeywords ∧
      binder.drainKeywords.result.length = declaration.parameters.length ∧
      bindStream function declaration callSite stream nextCell = binder.finish := by
  have left : (start function declaration callSite stream nextCell).declaration.parameters.drop
      (start function declaration callSite stream nextCell).result.length =
        declaration.parameters := rfl
  obtain ⟨moves, length⟩ := moves_bindParameters left
  obtain ⟨drained, sameLength⟩ := moves_of_takes (takes_drainKeywords _)
  refine ⟨_, moves.trans drained, ?_, rfl⟩
  rw [sameLength, length]
  exact Nat.zero_add _

/-! ## Finishing -/

theorem foldl_reportTooFew (binder : Binder) (parameters : List Parameter) :
    parameters.foldl
        (fun binder parameter =>
          if parameter.isRequired && !binder.used.contains parameter.name then
            binder.reportTooFew
          else binder)
        binder =
      { binder with
        issues := binder.issues ++
          List.replicate
            (parameters.countP fun parameter =>
              parameter.isRequired && !binder.used.contains parameter.name)
            (.tooFew binder.declaration binder.given binder.callSite) } := by
  induction parameters generalizing binder with
  | nil => simp
  | cons parameter rest ih =>
    rw [List.foldl_cons, ih]
    by_cases missing : (parameter.isRequired && !binder.used.contains parameter.name) = true
    · rw [if_pos missing, List.countP_cons, if_pos missing, List.replicate_succ]
      simp [reportTooFew, report]
    · rw [if_neg missing, List.countP_cons, if_neg missing, Nat.add_zero]

theorem foldl_reportUnexpected (binder : Binder) (entries : List (String × Deferred)) :
    entries.foldl (fun binder entry => binder.reportUnexpected entry.1 entry.2) binder =
      { binder with
        issues := binder.issues ++ entries.map fun entry =>
          .unexpected binder.declaration entry.1 (entry.2.node?.or binder.callSite) } := by
  induction entries generalizing binder with
  | nil => simp
  | cons entry rest ih =>
    rw [List.foldl_cons, ih]
    simp [reportUnexpected, report]

/-- When a binder finishes, it notes problems and changes nothing else. -/
theorem finish_eq (binder : Binder) :
    binder.finish =
      { binder.drainKeywords with
        issues := binder.drainKeywords.issues ++
          (if binder.drainKeywords.sawKeyword && binder.drainKeywords.unmatched.isEmpty &&
              !binder.drainKeywords.sawRepetition then
            List.replicate
              (binder.drainKeywords.declaration.parameters.countP fun parameter =>
                parameter.isRequired && !binder.drainKeywords.used.contains parameter.name)
              (.tooFew binder.drainKeywords.declaration binder.drainKeywords.given
                binder.drainKeywords.callSite)
          else []) ++
          (binder.drainKeywords.unmatched.entries.map fun entry =>
            .unexpected binder.drainKeywords.declaration entry.1
              (entry.2.node?.or binder.drainKeywords.callSite)) ++
          binder.drainKeywords.stream.head?.toList.map fun surplus =>
            .tooMany binder.drainKeywords.declaration binder.drainKeywords.given
              (surplus.value.node?.or binder.drainKeywords.callSite) } := by
  unfold finish
  generalize binder.drainKeywords = drained
  rw [reportMissing, foldl_reportTooFew]
  split <;>
    rw [reportUnmatched, foldl_reportUnexpected, reportSurplus] <;>
    cases ahead : drained.stream <;>
    simp [reportTooMany, report, ahead]

theorem result_finish (binder : Binder) : binder.finish.result = binder.drainKeywords.result := by
  rw [finish_eq]

end Binder

end TypeInference
