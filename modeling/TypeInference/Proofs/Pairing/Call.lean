import TypeInference.Proofs.Pairing.Annotation

/-!
# Paired calls

Iteration and unpacking make deferred values, binding, comparison and unification
resolve them.  The deferred values of both sides stand for the same, so that whatever
is found through them is the same.
-/

namespace TypeInference

/-- Operations that neither take nor give deferred values. -/
def Operation.isRepeatable {α : Type} : Operation α → Bool
  | .elements _ | .iterate _ | .unpack _ _ _ | .bind _ _ _ | .accepts _ | .resolve _ => false
  | _ => true

/-- Whether an operation is guarded against being performed within itself. -/
def Operation.isGuarded {α : Type} : Operation α → Bool
  | .inferNode _ | .execute _ _ | .returnType _ _ => true
  | _ => false

/-! ## Related lists -/

section Lists

variable {α β : Type} {related : α → β → Prop}

theorem rel_getElem? (itemsRelated : List.Forall₂ related items others) (position : Nat) :
    Option.Rel related items[position]? others[position]? := by
  induction itemsRelated generalizing position with
  | nil => exact .none
  | cons itemRelated _ ih =>
    cases position with
    | zero => exact .some itemRelated
    | succ position => exact ih position

/-- Rows that are related place by place have related columns. -/
theorem forall₂_columns (rowsRelated : List.Forall₂ (List.Forall₂ related) rows others) :
    List.Forall₂ (List.Forall₂ related) (Engine.columns rows) (Engine.columns others) := by
  have sameLengths : rows.map List.length = others.map List.length := by
    induction rowsRelated with
    | nil => rfl
    | cons rowRelated _ ih =>
      rw [List.map_cons, List.map_cons, rowRelated.length_eq, ih]
  unfold Engine.columns
  rw [sameLengths]
  exact List.forall₂_map_left_iff.mpr <| List.forall₂_map_right_iff.mpr <|
    List.forall₂_same.mpr fun position _ =>
      List.rel_filterMap (fun _ _ rowRelated => rel_getElem? rowRelated position) rowsRelated

section While

variable {test : α → Bool} {otherTest : β → Bool} {items : List α} {others : List β}
  (alike : ∀ item other, related item other → test item = otherTest other)
  (itemsRelated : List.Forall₂ related items others)

include alike itemsRelated

theorem forall₂_takeWhile :
    List.Forall₂ related (items.takeWhile test) (others.takeWhile otherTest) := by
  induction itemsRelated with
  | nil => exact .nil
  | @cons item other rest restOthers itemRelated _ ih =>
    rw [List.takeWhile_cons, List.takeWhile_cons, alike item other itemRelated]
    split
    · exact .cons itemRelated ih
    · exact .nil

theorem forall₂_dropWhile :
    List.Forall₂ related (items.dropWhile test) (others.dropWhile otherTest) := by
  induction itemsRelated with
  | nil => exact .nil
  | @cons item other rest restOthers itemRelated restRelated ih =>
    rw [List.dropWhile_cons, List.dropWhile_cons, alike item other itemRelated]
    split
    · exact ih
    · exact .cons itemRelated restRelated

end While

/-- Values that stand for the same have the same keyword. -/
theorem isNone_keyword_of_alike (supplied other : Supplied)
    (suppliedAlike : Supplied.Alike alike supplied other) :
    supplied.keyword.isNone = other.keyword.isNone := by
  obtain ⟨value, _, rfl⟩ := suppliedAlike
  rfl

/-- Streams that go together supply values that go together. -/
theorem forall₂_values (streamAlike : List.Forall₂ (Supplied.Alike alike) stream others) :
    List.Forall₂ alike (stream.map fun supplied => supplied.value)
      (others.map fun supplied => supplied.value) := by
  refine List.forall₂_map_left_iff.mpr (List.forall₂_map_right_iff.mpr ?_)
  refine streamAlike.imp fun supplied other suppliedAlike => ?_
  obtain ⟨value, valueAlike, rfl⟩ := suppliedAlike
  exact valueAlike

end Lists

open Inference in
/-- What calling one value returns, given what calling functions returns. -/
def Engine.callValue (engine : Engine) (returned : FunctionId → Inference TypeSet)
    (arguments : Arguments) (id : ValueId) : Inference TypeSet := do
  match ← value id with
  | .function function => returned function
  | .overloaded functions =>
    match ← engine.selectOverload arguments functions with
    | some function => returned function
    | none => unionOver returned functions
  | .boundMethod callee receiver =>
    engine.execute (.singleton callee) (.bound receiver arguments)
  | .classObject class_ => engine.construct class_ arguments
  | .genericClass class_ generics => engine.instantiate class_ generics
  | .callable generics => engine.callCallable generics arguments
  | .any => return ∅
  | _ =>
    emit (.notCallable (← engine.describe id))
    return ∅

/-- Calling a value is calling it with what its functions return. -/
theorem Engine.executeValue_eq_callValue (engine : Engine) (arguments : Arguments) (id : ValueId) :
    engine.executeValue arguments id =
      engine.callValue (fun function => engine.returnType function arguments) arguments id :=
  rfl

namespace Pairing

open Inference

variable {engine : Engine} {pairing : Pairing engine} {world : pairing.World}

theorem monotone_rows : Monotone pairing.Rows :=
  fun _ _ larger _ _ related => related.imp (pairing.alike_monotone larger)

theorem monotone_supplied :
    Monotone fun world : pairing.World => Supplied.Alike (pairing.Alike world) :=
  fun _ _ larger _ _ related =>
    related.imp fun _ alike => ⟨pairing.alike_monotone larger _ _ alike.1, alike.2⟩

theorem monotone_streams : Monotone pairing.Streams :=
  fun _ _ larger _ _ related => related.imp (monotone_supplied larger)

theorem monotone_boundParameter :
    Monotone fun world : pairing.World => BoundParameter.Alike (pairing.Alike world) :=
  fun _ _ larger _ _ related =>
    related.imp fun _ alike => ⟨pairing.alike_monotone larger _ _ alike.1, alike.2⟩

/-! ## Iteration -/

/-- Both runs merge the same columns, each in cells of its own. -/
theorem pairs_mergeRows (related : List.Forall₂ (pairing.Rows world) rows others) :
    pairing.Pairs world pairing.Rows (Engine.mergeRows rows) (Engine.mergeRows others) :=
  pairs_mapM monotone_rows pairing.alike_monotone (forall₂_columns related)
    fun _ _ _ _ alike => pairing.pairs_deferMerged alike

/-- One deferred set for each item. -/
theorem pairs_mapM_deferKnown {α : Type} {setOf otherOf : α → Inference TypeSet}
    (each : ∀ item, pairing.Fits (setOf item) (otherOf item)) (items : List α) :
    pairing.Pairs world pairing.Rows
      (items.mapM fun item => setOf item >>= Engine.deferKnown)
      (items.mapM fun item => otherOf item >>= Engine.deferKnown) :=
  pairs_mapM_same pairing.alike_monotone
    (fun _ item => (each item).andThen fun later set _ => pairing.pairs_deferKnown later set) items

theorem pairs_deferOne (set : TypeSet) :
    pairing.Pairs world pairing.Rows
      (Engine.deferKnown set >>= fun deferred => Pure.pure [deferred])
      (Engine.deferKnown set >>= fun deferred => Pure.pure [deferred]) :=
  pairs_map (pairing.pairs_deferKnown world set) fun alike => .cons alike .nil

/-- The elements of a tuple go together, one by one. -/
theorem pairs_tupleElements (generics : Generics) :
    pairing.Pairs world pairing.Rows
      (engine.tupleElements generics) (pairing.other.tupleElements generics) := by
  refine (fits_typeArguments generics).andThen fun later arguments _ => ?_
  split
  · exact (fits_instances _).andThen fun _ element _ => pairs_deferOne element
  · exact pairs_mapM_deferKnown fits_instances arguments.slots

theorem pairs_keyElements (keys : List String) :
    pairing.Pairs world pairing.Rows (Engine.keyElements keys) (Engine.keyElements keys) :=
  pairs_mapM_deferKnown (fun _ => fits_internSet _) keys

/-- Elements that are found. -/
theorem pairs_found {step other : Inference (List Deferred)}
    (pairs : pairing.Pairs world pairing.Rows step other) :
    pairing.Pairs world (fun later => Option.Rel (pairing.Rows later))
      (step >>= fun row => Pure.pure (some row)) (other >>= fun row => Pure.pure (some row)) :=
  pairs_map pairs fun related => .some related

theorem pairs_notFound :
    pairing.Pairs world (fun later => Option.Rel (pairing.Rows later))
      (Pure.pure none) (Pure.pure none) :=
  pairing.pairs_pure .none

/-- An instance has elements in both runs or in neither. -/
theorem pairs_instanceElements (id : ValueId) :
    pairing.Pairs world (fun later => Option.Rel (pairing.Rows later))
      (engine.instanceElements id) (pairing.other.instanceElements id) := by
  have finishes (later : pairing.World) (element : TypeSet) :
      pairing.Pairs later (fun final => Option.Rel (pairing.Rows final))
        (engine.instances element >>= fun set =>
          Engine.deferKnown set >>= fun deferred => Pure.pure (some [deferred]))
        (pairing.other.instances element >>= fun set =>
          Engine.deferKnown set >>= fun deferred => Pure.pure (some [deferred])) :=
    (fits_instances element).andThen fun final set _ =>
      pairs_map (pairing.pairs_deferKnown final set) fun alike => .some (.cons alike .nil)
  refine (fits_classOf id).andThen fun later class? _ => ?_
  cases class? with
  | none => exact pairs_notFound
  | some class_ =>
    refine (fits_ancestor? class_ Builtin.iterable).andThen fun later iterable? _ => ?_
    cases iterable? with
    | none => exact pairs_notFound
    | some iterable =>
      refine (fits_value iterable).andThen fun later stored _ => ?_
      cases stored with
      | genericClass class_ generics =>
        exact (fits_typeArguments generics).andThen fun later arguments _ => finishes later _
      | _ => exact finishes later ∅

/-- What is iterated over goes together, as far as there is anything. -/
theorem pairs_elements (id : ValueId) :
    pairing.Pairs world (fun later => Option.Rel (pairing.Rows later))
      (engine.elements id) (pairing.other.elements id) := by
  have known (later : pairing.World) (items : List TypeSet) :
      pairing.Pairs later pairing.Rows
        (items.mapM Engine.deferKnown) (items.mapM Engine.deferKnown) :=
    pairs_mapM_same pairing.alike_monotone pairing.pairs_deferKnown items
  refine (fits_value id).andThen fun later stored _ => ?_
  cases stored with
  | tuple generics => exact pairs_found (pairs_tupleElements generics)
  | packedTuple items | typeList items => exact pairs_found (known later items)
  | packedDict entries => exact pairs_found (pairs_keyElements _)
  | typedDict class_ =>
    exact (fits_typedDictKeys class_).andThen fun _ keys _ => pairs_found (pairs_keyElements keys)
  | literal text =>
    refine (fits_internSet _).andThen fun final element _ => ?_
    exact pairs_map (pairing.pairs_deferKnown final element) fun alike => .some (.cons alike .nil)
  | any => exact pairing.pairs_pure (.some .nil)
  | instanceOf class_ generics => exact pairs_instanceElements id
  | _ => exact pairs_notFound

/-- The elements of a set go together, column by column. -/
theorem pairs_iterate (set : TypeSet) :
    pairing.Pairs world pairing.Rows (engine.iterate set) (pairing.other.iterate set) :=
  pairing.pairs_bind
    (pairs_filterMapOver monotone_rows (fun _ id => pairs_elements id) set.members)
    fun _ _ _ _ related => pairs_mergeRows related

/-- All elements of a set are the same in both runs. -/
theorem fits_elementSet (set : TypeSet) : pairing.Both (·.elementSet set) :=
  fun _ => pairing.pairs_bind (pairs_iterate set) fun _ _ _ _ related =>
    pairs_unionOver pairing.alike_monotone related fun _ _ _ _ alike => pairing.pairs_resolve alike

/-! ## Unpacking -/

section Unpacking

variable {sink other : Diagnostics} (sinks : pairing.Sinks sink other)

include sinks

/-- What is unpacked after a star goes together, and so do the reports. -/
theorem pairs_starredRow (function : Option FunctionId) (node : NodeId) (id : ValueId) :
    pairing.Pairs world (Beside pairing.Rows pairing.Sinks)
      (engine.starredRow function node id sink)
      (pairing.other.starredRow function node id other) := by
  refine pairing.pairs_bind (pairs_elements id) fun later answer otherAnswer _ related => ?_
  cases related with
  | some related => exact pairing.pairs_pure ⟨related, sinks⟩
  | none =>
    exact pairs_map (pairing.pairs_reportUnpackable later function _ node _ id sinks)
      fun reported => ⟨.nil, reported⟩

theorem pairs_opaqueEntries (function : Option FunctionId) (node : NodeId) (id : ValueId) :
    pairing.Pairs world (Beside pairing.Streams pairing.Sinks)
      (engine.opaqueEntries function node id sink >>= fun sink => Pure.pure ([], sink))
      (pairing.other.opaqueEntries function node id other >>= fun sink => Pure.pure ([], sink)) :=
  pairs_map (pairing.pairs_reportUnpackable world function _ node _ id sinks)
    fun reported => ⟨.nil, reported⟩

/-- What is supplied beside sinks that are left alone. -/
theorem pairs_beside (pairs : pairing.Pairs world pairing.Streams step otherStep) :
    pairing.Pairs world (Beside pairing.Streams pairing.Sinks)
      (step >>= fun supplied => Pure.pure (supplied, sink))
      (otherStep >>= fun supplied => Pure.pure (supplied, other)) :=
  pairs_map pairs fun related => ⟨related, sinks⟩

/-- What is unpacked after two stars has the same keys in both runs. -/
theorem pairs_doubleStarredRow (function : Option FunctionId) (node : NodeId) (id : ValueId) :
    pairing.Pairs world (Beside pairing.Streams pairing.Sinks)
      (engine.doubleStarredRow function node id sink)
      (pairing.other.doubleStarredRow function node id other) := by
  refine (fits_value id).andThen fun later stored _ => ?_
  cases stored with
  | packedDict entries =>
    refine pairs_beside sinks (pairs_mapM_same monotone_supplied (fun final entry => ?_) entries)
    exact pairs_map (pairing.pairs_deferKnown final entry.2) fun alike => ⟨_, alike, rfl⟩
  | typedDict class_ =>
    refine (fits_typedDictKeys class_).andThen fun later keys _ => ?_
    refine pairs_beside sinks (pairs_mapM_same monotone_supplied (fun final key => ?_) keys)
    refine (fits_typedDictField class_ key).andThen fun final field _ => ?_
    exact pairs_map (pairing.pairs_deferKnown final field) fun alike => ⟨_, alike, rfl⟩
  | instanceOf class_ generics =>
    have mapping : pairing.Both (·.isMapping class_) :=
      (fits_intern _).bind fun id => fits_isSubclass id Builtin.mapping
    refine mapping.andThen fun later isMapping _ => ?_
    cases isMapping with
    | false => exact pairs_opaqueEntries sinks function node id
    | true =>
      refine (fits_classDeclaration class_).andThen fun later declaration _ => ?_
      exact pairs_map (pairing.pairs_emit later _) fun _ => ⟨.nil, sinks⟩
  | any => exact pairing.pairs_pure ⟨.nil, sinks⟩
  | _ => exact pairs_opaqueEntries sinks function node id

/-- An argument supplies what goes together, in the same number. -/
theorem pairs_expandArgument (function : Option FunctionId) (argument : Argument) :
    pairing.Pairs world (Beside pairing.Streams pairing.Sinks)
      (engine.expandArgument function argument sink)
      (pairing.other.expandArgument function argument other) := by
  cases argument with
  | positional node =>
    exact pairs_map (pairing.pairs_deferNode world node)
      fun alike => ⟨.cons ⟨_, alike, rfl⟩ .nil, sinks⟩
  | keyword name node => exact pairing.pairs_pure ⟨.nil, sinks⟩
  | starred node =>
    refine pairs_andThen (pairing.pairs_inferNode world node) fun later values _ => ?_
    refine pairing.pairs_bind
      (pairs_throughSink monotone_rows
        (fun _ id _ _ sinks => pairs_starredRow sinks function node id) values.members sinks)
      fun later rows otherRows _ related => ?_
    refine pairing.pairs_bind (pairs_mergeRows related.1) fun later row otherRow _ merged => ?_
    refine pairing.pairs_pure ⟨?_, related.2⟩
    refine List.forall₂_map_left_iff.mpr (List.forall₂_map_right_iff.mpr ?_)
    exact merged.imp fun _ _ alike => ⟨_, alike, rfl⟩
  | doubleStarred node =>
    refine pairs_andThen (pairing.pairs_inferNode world node) fun later values _ => ?_
    refine pairing.pairs_bind
      (pairs_throughSink monotone_streams
        (fun _ id _ _ sinks => pairs_doubleStarredRow sinks function node id) values.members sinks)
      fun later rows otherRows _ related => ?_
    exact pairing.pairs_pure ⟨List.rel_flatten related.1, related.2⟩

theorem pairs_unpackWritten (arguments : List Argument) (function : Option FunctionId) :
    pairing.Pairs world (Beside pairing.Streams pairing.Sinks)
      (engine.unpackWritten arguments function sink)
      (pairing.other.unpackWritten arguments function other) := by
  refine pairing.pairs_bind
    (pairs_throughSink monotone_streams
      (fun _ argument _ _ sinks => pairs_expandArgument sinks function argument) _ sinks)
    fun later expanded otherExpanded _ related => ?_
  refine pairing.pairs_bind
    (pairs_mapM_same monotone_supplied (fun final entry => ?_) _)
    fun final named otherNamed larger namedRelated => ?_
  · exact pairs_map (pairing.pairs_deferNode final entry.2) fun alike => ⟨_, alike, rfl⟩
  · have expandedRelated := List.rel_flatten (related.1.imp (monotone_streams larger))
    exact pairing.pairs_pure ⟨List.rel_append expandedRelated namedRelated, related.2⟩

/-- The streams of one call go together. -/
theorem pairs_unpack (arguments : Arguments) (function : Option FunctionId) :
    pairing.Pairs world (Beside pairing.Streams pairing.Sinks)
      (engine.unpack arguments function sink) (pairing.other.unpack arguments function other) := by
  induction arguments generalizing world with
  | written arguments callSite => exact pairs_unpackWritten sinks arguments function
  | values sets =>
    refine pairs_beside sinks (pairs_mapM_same monotone_supplied (fun final set => ?_) sets)
    exact pairs_map (pairing.pairs_deferKnown final set) fun alike => ⟨_, alike, rfl⟩
  | bound receiver rest ih =>
    refine pairing.pairs_bind (pairing.pairs_deferKnown world _)
      fun later first otherFirst _ alike => ?_
    refine pairing.pairs_bind ih fun final stream otherStream larger related => ?_
    have firstAlike := pairing.alike_monotone larger _ _ alike
    exact pairing.pairs_pure ⟨.cons ⟨_, firstAlike, rfl⟩ related.1, related.2⟩

/-! ## Binding -/

/-- Parameters are bound to values that go together. -/
theorem pairs_bindCall (function : FunctionId) (arguments : Arguments) :
    pairing.Pairs world
      (Beside (fun later => List.Forall₂ (BoundParameter.Alike (pairing.Alike later)))
        pairing.Sinks)
      (engine.bind function arguments sink) (pairing.other.bind function arguments other) := by
  rw [Engine.bind_eq, Engine.bind_eq]
  refine (fits_functionDeclaration function).andThen fun later declaration _ => ?_
  refine pairing.pairs_bind (pairs_unpack sinks arguments (some function))
    fun later supplied otherSupplied _ related => ?_
  exact pairing.pairs_bindSupplied function declaration _ related.1 related.2

end Unpacking

section Discarding

variable (discarding : pairing.Sinks .discarding .discarding)

include discarding

theorem pairs_bindQuietly (function : FunctionId) (arguments : Arguments) :
    pairing.Pairs world
      (fun later => List.Forall₂ (BoundParameter.Alike (pairing.Alike later)))
      (engine.bindQuietly function arguments) (pairing.other.bindQuietly function arguments) :=
  pairs_map (pairs_bindCall discarding function arguments) fun related => related.1

end Discarding

/-- Values that go together fit an annotation in both runs or in neither. -/
theorem pairs_accepts {parameter other : BoundParameter}
    (related : BoundParameter.Alike (pairing.Alike world) parameter other) :
    pairing.Pairs world Same (engine.accepts parameter) (pairing.other.accepts other) := by
  obtain ⟨value, alike, rfl⟩ := related
  unfold Engine.accepts
  split
  · exact fits_pure true world
  · refine (fits_functionDeclaration parameter.function).andThen fun later declaration larger => ?_
    cases (declaration.parameters[parameter.index]?).bind Parameter.hint with
    | none => exact fits_pure true later
    | some node =>
      refine (fits_readHint node).andThen fun final hints largest => ?_
      split
      · exact fits_pure true final
      · have finalAlike := pairing.alike_monotone (larger.trans largest) _ _ alike
        refine pairs_andThen (pairing.pairs_resolve finalAlike) fun last values _ => ?_
        refine (fits_classesOf values).bind (fun classes => ?_) last
        refine (fits_anyAdmitted hints classes).bind fun accepted => ?_
        exact fits_emit _ (fits_pure accepted)

/-! ## Builtin calls -/

/-- The same problem, or the same values before streams that go together. -/
def Matched (world : pairing.World)
    (answer other : Except Clinic.Issue (TypeSet × List Supplied)) : Prop :=
  (∃ issue, answer = .error issue ∧ other = .error issue) ∨
    ∃ values rest otherRest, answer = .ok (values, rest) ∧ other = .ok (values, otherRest) ∧
      pairing.Streams world rest otherRest

/-- A parameter of a signature takes as much from both streams. -/
theorem pairs_matchParameter (signature : String) (expected index : Nat)
    (parameter : Clinic.Parameter) {stream other : List Supplied}
    (related : pairing.Streams world stream other) :
    pairing.Pairs world Matched
      (engine.matchParameter signature expected index parameter stream)
      (pairing.other.matchParameter signature expected index parameter other) := by
  have mismatch (later : pairing.World) (issue : Clinic.Issue) :
      pairing.Pairs later Matched (Pure.pure (.error issue)) (Pure.pure (.error issue)) :=
    pairing.pairs_pure (.inl ⟨issue, rfl, rfl⟩)
  unfold Engine.matchParameter
  split
  · cases related with
    | nil =>
      dsimp only
      split
      · exact pairing.pairs_pure (.inr ⟨∅, [], [], rfl, rfl, .nil⟩)
      · exact mismatch world _
    | @cons supplied otherSupplied rest otherRest alike restRelated =>
      obtain ⟨value, alike, rfl⟩ := alike
      dsimp only
      split
      · exact mismatch world _
      · refine pairs_andThen (pairing.pairs_resolve alike) fun later values larger => ?_
        split
        · exact mismatch later _
        · exact pairing.pairs_pure
            (.inr ⟨values, rest, otherRest, rfl, rfl, monotone_streams larger _ _ restRelated⟩)
  · have items := forall₂_takeWhile isNone_keyword_of_alike related
    rw [← bind_assoc, ← bind_assoc]
    refine pairs_andThen (pairing.pairs_resolvePacked (forall₂_values items))
      fun later packed larger => ?_
    have restRelated :=
      monotone_streams larger _ _ (forall₂_dropWhile isNone_keyword_of_alike related)
    exact pairing.pairs_pure (.inr ⟨packed, _, _, rfl, rfl, restRelated⟩)
  · exact mismatch world _

/-- All parameters of a signature take the same values. -/
theorem pairs_matchParameters (signature : String) (expected index : Nat)
    (parameters : List Clinic.Parameter) {stream other : List Supplied}
    (related : pairing.Streams world stream other) :
    pairing.Pairs world Same
      (engine.matchParameters signature expected index parameters stream)
      (pairing.other.matchParameters signature expected index parameters other) := by
  induction parameters generalizing world index stream other with
  | nil => exact fits_pure _ world
  | cons parameter parameters ih =>
    refine pairing.pairs_bind (pairs_matchParameter signature expected index parameter related)
      fun later answer otherAnswer _ matched => ?_
    obtain ⟨issue, rfl, rfl⟩ | ⟨values, rest, otherRest, rfl, rfl, restRelated⟩ := matched
    · exact fits_pure _ later
    · refine pairs_andThen (ih (index + 1) restRelated) fun final others _ => ?_
      exact fits_pure _ final

/-! ## Unification -/

/-- A value binds a variable to the same in both runs. -/
theorem fits_bindingOf (id : ValueId) : pairing.Fits (Engine.bindingOf id)
  (Engine.bindingOf id) := by
  refine (fits_value id).bind fun seen => ?_
  refine fits_ite (fits_internSet _) ?_
  refine (fits_classOf id).bind fun class? => ?_
  cases class? <;> exact fits_pure _

theorem fits_unifyVariable (variable_ : TypeVariableId) (actual : TypeSet) :
    pairing.Fits (Engine.unifyVariable variable_ actual) (Engine.unifyVariable variable_ actual) :=
  (fits_unionOver fits_bindingOf actual.members).map

theorem fits_tuplesIn (set : TypeSet) : pairing.Fits (Engine.tuplesIn set)
  (Engine.tuplesIn set) := by
  have isTuple (id : ValueId) : pairing.Fits (Engine.isTuple id) (Engine.isTuple id) := by
    refine (fits_value id).bind fun stored => ?_
    cases stored <;> exact fits_pure _
  exact fits_unionOver (fun id => (isTuple id).map) set.members

section Unifier

variable {nested nestedOther : Engine.Unifier}
  (nestedFits : ∀ hint actual, pairing.Fits (nested hint actual) (nestedOther hint actual))

include nestedFits

theorem fits_unifyPairwise (generics : Generics) (argumentClass : ValueId) :
    pairing.Fits (engine.unifyPairwise nested generics argumentClass)
      (pairing.other.unifyPairwise nestedOther generics argumentClass) := by
  refine (fits_value argumentClass).bind fun stored => ?_
  cases stored with
  | genericClass class_ found =>
    refine (fits_typeArguments found).bind fun foundArguments => ?_
    refine (fits_typeArguments generics).bind fun arguments => ?_
    refine fits_mergeOver (fun slots : TypeSet × TypeSet => ?_) _
    exact (fits_instances slots.2).bind (nestedFits slots.1)
  | _ => exact fits_pure ∅

/-- Tuples are unified alike, be they homogeneous or not. -/
theorem fits_unifyTuple (generics : Generics) (actual : TypeSet) :
    pairing.Fits (engine.unifyTuple nested generics actual)
      (pairing.other.unifyTuple nestedOther generics actual) := by
  refine (fits_tuplesIn actual).bind fun tuples => ?_
  refine fits_ite (fits_pure ∅) ?_
  refine (fits_typeArguments generics).bind fun arguments => ?_
  refine fits_ite ((fits_elementSet tuples).bind (nestedFits _)) ?_
  refine fits_mergeOver (fun id => (fits_classOf id).bind fun class? => ?_) tuples.members
  cases class? with
  | none => exact fits_pure ∅
  | some class_ => exact fits_unifyPairwise nestedFits generics class_

/-- A value is unified through the same ancestor. -/
theorem fits_unifyInstance (class_ : ClassId) (generics : Generics) (id : ValueId) :
    pairing.Fits (engine.unifyInstance nested class_ generics id)
      (pairing.other.unifyInstance nestedOther class_ generics id) := by
  refine (fits_value id).bind fun stored => ?_
  refine fits_ite (fits_pure ∅) ?_
  refine (fits_classOf id).bind fun class? => ?_
  cases class? with
  | none => exact fits_pure ∅
  | some argumentClass =>
    refine (fits_ancestor? argumentClass class_).bind fun ancestor? => ?_
    cases ancestor? with
    | none => exact fits_pure ∅
    | some ancestor => exact fits_unifyPairwise nestedFits generics ancestor

theorem fits_unifyClass (class_ : ClassId) (generics : Generics) (actual : TypeSet) :
    pairing.Fits (engine.unifyClass nested class_ generics actual)
      (pairing.other.unifyClass nestedOther class_ generics actual) := by
  refine (fits_typeArguments generics).bind fun arguments => ?_
  refine fits_ite (fits_pure ∅) ?_
  refine fits_ite ((fits_elementSet actual).bind (nestedFits _)) ?_
  refine fits_ite (fits_unifyTuple nestedFits generics actual) ?_
  exact fits_mergeOver (fits_unifyInstance nestedFits class_ generics) actual.members

/-- Each typing form is unified alike if nested annotations are. -/
theorem fits_unifyForm (form : SpecialForm) (generics : Generics) (actual : TypeSet) :
    pairing.Fits (engine.unifyForm nested form generics actual)
      (pairing.other.unifyForm nestedOther form generics actual) := by
  refine (fits_typeArguments generics).bind fun arguments => ?_
  refine fits_ite (fits_pure ∅) ?_
  cases form with
  | optional | classVar => exact nestedFits _ _
  | union => exact fits_mergeOver (fun slot => nestedFits slot actual) arguments.slots
  | type => exact (fits_instances actual).bind (nestedFits _)
  | callable => exact fits_ite ((fits_execute actual .empty).bind (nestedFits _)) (fits_pure ∅)
  | tuple => exact fits_unifyTuple nestedFits generics actual

end Unifier

/-- Unification goes down the same levels; deeper ones leave the same event. -/
theorem fits_unifyWithin (levels : Nat) (hint actual : TypeSet) :
    pairing.Both (·.unifyWithin levels hint actual) := by
  induction levels generalizing hint actual with
  | zero => exact fits_ite (fits_pure ∅) (fits_emit _ (fits_pure ∅))
  | succ levels ih =>
    refine fits_ite (fits_pure ∅) (fits_mergeOver (fun id => ?_) hint.members)
    refine Fits.bind pairing.pairs_unified fun _ => ?_
    refine (fits_value id).bind fun stored => ?_
    cases stored with
    | typeVariable variable_ => exact fits_unifyVariable variable_ actual
    | genericClass class_ generics =>
      exact fits_unifyClass ih class_ generics actual
    | special form generics => exact fits_unifyForm ih form generics actual
    | _ => exact fits_pure ∅

theorem fits_unify (hint actual : TypeSet) :
    pairing.Fits (engine.unify hint actual) (pairing.other.unify hint actual) :=
  fits_unifyWithin engine.levels hint actual

theorem fits_annotatedValues (kind : ParameterKind) (values : TypeSet) :
    pairing.Both (·.annotatedValues kind values) := by
  cases kind with
  | starred => exact fits_elementSet values
  | doubleStarred =>
    refine fits_unionOver (fun id => (fits_value id).bind fun stored => ?_) values.members
    cases stored with
    | instanceOf class_ generics =>
      exact fits_ite ((fits_typeArguments generics).bind fun _ => fits_instances _) (fits_pure ∅)
    | _ => exact fits_pure _
  | positional | keywordOnly => exact fits_pure values

theorem fits_receiverBindings (receiver : ValueId) (owner : ClassId) :
    pairing.Both (·.receiverBindings receiver owner) := by
  refine (fits_classOf receiver).bind fun class? => ?_
  cases class? with
  | none => exact fits_pure ∅
  | some class_ =>
    refine (fits_ancestor? class_ owner).bind fun ancestor? => ?_
    cases ancestor? with
    | none => exact fits_pure ∅
    | some ancestor => exact fits_classBindings ancestor

/-- An annotated parameter binds the same variables. -/
theorem pairs_parameterBindings (declaration : FunctionDeclaration)
    {parameter other : BoundParameter}
    (related : BoundParameter.Alike (pairing.Alike world) parameter other) :
    pairing.Pairs world Same
      (engine.parameterBindings declaration parameter)
      (pairing.other.parameterBindings declaration other) := by
  obtain ⟨value, alike, rfl⟩ := related
  unfold Engine.parameterBindings
  cases (declaration.parameters[parameter.index]?).bind Parameter.hint with
  | none => exact fits_pure ∅ world
  | some node =>
    refine (fits_readHint node).andThen fun later hint larger => ?_
    refine (fits_freeVariables hint).andThen fun final free largest => ?_
    split
    · exact fits_pure ∅ final
    · have finalAlike := pairing.alike_monotone (larger.trans largest) _ _ alike
      refine pairs_andThen (pairing.pairs_resolve finalAlike) fun last values _ => ?_
      exact ((fits_annotatedValues parameter.kind values).bind (fits_unify hint)) last

/-- Values that stand for the same, each beside the annotation it is matched with. -/
def SuppliedFor (world : pairing.World) (pair other : Supplied × TypeSet) : Prop :=
  Supplied.Alike (pairing.Alike world) pair.1 other.1 ∧ pair.2 = other.2

theorem monotone_suppliedFor :
    Monotone (SuppliedFor : pairing.World → Supplied × TypeSet → Supplied × TypeSet → Prop) :=
  fun _ _ larger _ _ holds => ⟨monotone_supplied larger _ _ holds.1, holds.2⟩

theorem rel_zip {stream other : List Supplied} (related : pairing.Streams world stream other)
    (expected : List TypeSet) :
    List.Forall₂ (SuppliedFor world) (stream.zip expected) (other.zip expected) := by
  induction related generalizing expected with
  | nil => exact .nil
  | cons alike _ ih =>
    cases expected with
    | nil => exact .nil
    | cons set expected => exact .cons ⟨alike, rfl⟩ (ih expected)

/-- The parameters of a callable bind the same variables. -/
theorem pairs_parameterListBindings {stream other : List Supplied}
    (related : pairing.Streams world stream other) (id : ValueId) :
    pairing.Pairs world Same
      (engine.parameterListBindings stream id) (pairing.other.parameterListBindings other id) := by
  refine (fits_value id).andThen fun later stored larger => ?_
  cases stored with
  | typeList expected =>
    have zipped : List.Forall₂ (SuppliedFor later) (stream.zip expected) (other.zip expected) :=
      rel_zip (monotone_streams larger _ _ related) expected
    refine pairs_mergeOver monotone_suppliedFor zipped fun final pair otherPair _ holds => ?_
    obtain ⟨⟨value, alike, same⟩, sameSet⟩ := holds
    rw [same, sameSet]
    refine pairs_andThen (pairing.pairs_resolve alike) fun last values _ => ?_
    exact fits_unify _ values last
  | _ => exact fits_pure ∅ later

/-! ## Calls -/

section Calls

variable (discarding : pairing.Sinks .discarding .discarding)

include discarding

theorem fits_matchSignature (arguments : Arguments) (signature : String) :
    pairing.Both (·.matchSignature arguments signature) := by
  intro world
  unfold Engine.matchSignature
  cases Clinic.parse signature with
  | error issue => exact fits_pure _ world
  | ok parameters =>
    exact pairing.pairs_bind (pairs_unpack discarding arguments none)
      fun _ _ _ _ related => pairs_matchParameters signature _ 0 parameters related.1

/-- A builtin function returns the same in both runs. -/
theorem fits_executeBuiltin (behavior : BuiltinBehavior) (arguments : Arguments) :
    pairing.Both (·.executeBuiltin behavior arguments) := by
  refine (fits_matchSignature discarding arguments behavior.signature).bind fun matched => ?_
  cases matched with
  | error issue => exact fits_emit _ (fits_pure ∅)
  | ok values =>
    cases behavior with
    | cast => exact fits_instances _
    | overload => exact fits_pure _

/-- A call binds the variables of its function alike. -/
theorem fits_inferVariables (function : FunctionId) (arguments : Arguments) :
    pairing.Both (·.inferVariables function arguments) := by
  have finishes (declaration : FunctionDeclaration) (seed : Substitution) :
      pairing.Fits (do
        let parameters ← engine.bindQuietly function arguments
        let found ← mergeOver (engine.parameterBindings declaration) parameters
        emit (.variablesInferred declaration.name (seed.merge found))
        return seed.merge found) (do
        let parameters ← pairing.other.bindQuietly function arguments
        let found ← mergeOver (pairing.other.parameterBindings declaration) parameters
        emit (.variablesInferred declaration.name (seed.merge found))
        return seed.merge found) := by
    intro world
    refine pairing.pairs_bind (pairs_bindQuietly discarding function arguments)
      fun later parameters otherParameters _ related => ?_
    refine pairs_andThen (pairs_mergeOver monotone_boundParameter related
        fun _ _ _ _ alike => pairs_parameterBindings declaration alike)
      fun final found _ => ?_
    exact fits_emit _ (fits_pure _) final
  refine (fits_functionDeclaration function).bind fun declaration => ?_
  cases arguments.receiver? with
  | none => exact finishes declaration ∅
  | some receiver =>
    cases declaration.owner with
    | none => exact finishes declaration ∅
    | some owner => exact (fits_receiverBindings receiver owner).bind (finishes declaration)

/-- A return annotation has the same instances, with or without variables. -/
theorem fits_annotatedReturn (function : FunctionId) (arguments : Arguments) (node : NodeId) :
    pairing.Both (·.annotatedReturn function arguments node) := by
  refine (fits_readHint node).bind fun hint => ?_
  refine (fits_freeVariables hint).bind fun free => ?_
  refine fits_ite (fits_instances hint) ?_
  refine (fits_inferVariables discarding function arguments).bind fun bindings => ?_
  exact (fits_substitute hint bindings).bind fits_instances

theorem fits_acceptsCall (arguments : Arguments) (function : FunctionId) :
    pairing.Both (·.acceptsCall arguments function) :=
  fun _ => pairing.pairs_bind (pairs_bindQuietly discarding function arguments)
    fun _ _ _ _ related => pairs_allOf monotone_boundParameter related
      fun _ _ _ _ alike => pairs_accepts alike

/-- Both runs select the same overload. -/
theorem fits_selectOverload (arguments : Arguments) (functions : List FunctionId) :
    pairing.Both (·.selectOverload arguments functions) := by
  induction functions with
  | nil => exact fits_pure none
  | cons function rest ih =>
    refine (fits_acceptsCall discarding arguments function).bind fun accepted => ?_
    exact fits_ite (fits_emit _ (fits_pure _)) ih

theorem fits_constructedGenerics (class_ : ClassId) (declaration : ClassDeclaration)
    (arguments : Arguments) :
    pairing.Both (·.constructedGenerics class_ declaration arguments) := by
  have constructor (id : ValueId) : pairing.Both (·.constructor? id) := by
    refine (fits_lookUpMember id "__init__").bind fun member? => ?_
    cases member? with
    | none => exact fits_pure none
    | some found =>
      obtain ⟨_, member⟩ := found
      cases member <;> exact fits_pure _
  have slot (bindings : Substitution) (variable_ : TypeVariableId) :
      pairing.Fits (Engine.parameterSlot bindings variable_)
        (Engine.parameterSlot bindings variable_) := by
    unfold Engine.parameterSlot
    cases bindings.get? variable_ with
    | none => exact fits_internSet _
    | some set => exact fits_pure set
  refine (fits_intern _).bind fun id => ?_
  refine (constructor id).bind fun constructor? => ?_
  cases constructor? with
  | none => exact fits_pure _
  | some constructor =>
    refine (fits_intern _).bind fun receiver => ?_
    refine (fits_inferVariables discarding constructor _).bind fun bindings => ?_
    refine fits_ite (fits_pure _) ?_
    exact (fits_mapM (slot bindings) declaration.typeParameters).map

/-- A class makes the same instance, with the type arguments of its constructor. -/
theorem fits_construct (class_ : ClassId) (arguments : Arguments) :
    pairing.Both (·.construct class_ arguments) := by
  refine (fits_classDeclaration class_).bind fun declaration => ?_
  refine fits_ite ?_ (fits_instantiate class_ .none)
  exact (fits_constructedGenerics discarding class_ declaration arguments).bind
    (fits_instantiate class_)

/-- A callable returns the same in both runs. -/
theorem fits_callCallable (generics : Generics) (arguments : Arguments) :
    pairing.Both (·.callCallable generics arguments) := by
  refine (fits_typeArguments generics).bind fun typeArguments => ?_
  refine fits_ite (fun world => ?_) (fits_emit _ (fits_pure ∅))
  refine pairing.pairs_bind (pairs_unpack discarding arguments none)
    fun later supplied otherSupplied _ related => ?_
  refine pairing.pairs_bind
    (pairs_mergeOver monotone_same (forall₂_same _) fun final id otherId larger same => ?_)
    fun final bindings otherBindings _ same => ?_
  · cases same
    exact pairs_parameterListBindings (monotone_streams larger _ _ related.1) id
  · cases same
    exact ((fits_substitute _ bindings).bind fits_instances) final

/-- A value is called alike if its functions return the same. -/
theorem fits_callValue
    (returns : ∀ function, pairing.Fits (returned function) (otherReturned function))
    (arguments : Arguments) (id : ValueId) :
    pairing.Fits (engine.callValue returned arguments id)
      (pairing.other.callValue otherReturned arguments id) := by
  refine (fits_value id).bind fun stored => ?_
  cases stored with
  | function function => exact returns function
  | overloaded functions =>
    refine (fits_selectOverload discarding arguments functions).bind fun selected? => ?_
    cases selected? with
    | some function => exact returns function
    | none => exact fits_unionOver returns functions
  | boundMethod callee receiver => exact fits_execute _ _
  | classObject class_ => exact fits_construct discarding class_ arguments
  | genericClass class_ generics => exact fits_instantiate class_ generics
  | callable generics => exact fits_callCallable discarding generics arguments
  | any => exact fits_pure ∅
  | _ => exact fits_remark id _ (fits_pure ∅)

/-- Operations that are neither nodes nor calls and carry no deferred values go together. -/
theorem fits_unguarded (operation : Operation α) (repeatable : operation.isRepeatable = true)
    (unguarded : operation.isGuarded = false) : pairing.Both (·.perform operation) := by
  cases operation with
  | intern stored => exact fits_intern stored
  | value id => exact fits_value id
  | readHint node => exact fits_readHint node
  | parameterType function index => exact fits_parameterType function index
  | typeArguments generics => exact fits_typeArguments generics
  | classOf id => exact fits_classOf id
  | classesOf set => exact fits_classesOf set
  | resolutionOrder id => exact fits_resolutionOrder id
  | ancestor id class_ => exact fits_ancestor? id class_
  | instances set => exact fits_instances set
  | elementSet set => exact fits_elementSet set
  | readAttribute set name => exact fits_readAttribute set name
  | readItem set index => exact fits_readItem set index
  | typedDictKeys class_ => exact fits_typedDictKeys class_
  | typedDictField class_ key => exact fits_typedDictField class_ key
  | unify hint actual => exact fits_unify hint actual
  | freeVariables set => exact fits_freeVariables set
  | inferVariables function arguments =>
    exact fits_inferVariables discarding function arguments
  | substitute set substitution => exact fits_substitute set substitution
  | classBindings id => exact fits_classBindings id
  | matchSignature arguments signature =>
    exact fits_matchSignature discarding arguments signature
  | inferNode | execute | returnType => cases unguarded
  | elements | iterate | unpack | bind | accepts | resolve => cases repeatable

section Returns

variable (returns : ∀ function arguments, pairing.Both (·.returnType function arguments))

include returns

theorem fits_executeValue (arguments : Arguments) (id : ValueId) :
    pairing.Fits (engine.executeValue arguments id) (pairing.other.executeValue arguments id) := by
  rw [Engine.executeValue_eq_callValue, Engine.executeValue_eq_callValue]
  exact fits_callValue discarding (fun function => returns function arguments) arguments id

theorem fits_executeSet (set : TypeSet) (arguments : Arguments) :
    pairing.Both (·.executeSet set arguments) :=
  fits_unionOver (fits_executeValue discarding returns arguments) set.members

/-! ## Operations -/

variable (nodes : ∀ node, pairing.Both (·.inferNodeOnce node))

include nodes

/-- Operations that neither take nor give deferred values go together. -/
theorem fits_perform (operation : Operation α) (repeatable : operation.isRepeatable = true) :
    pairing.Both (·.perform operation) := by
  cases operation with
  | inferNode node => exact nodes node
  | execute set arguments => exact fits_executeSet discarding returns set arguments
  | returnType function arguments => exact returns function arguments
  | _ => exact fits_unguarded discarding _ repeatable rfl

end Returns

end Calls

end Pairing

end TypeInference
