import TypeInference.Proofs.Judgement.Ancestry

/-!
# Elements, items and attributes keep a request well formed

Deferred values are resolved within the scope, and so are the elements, items and
attributes of values.  Looking up a method is the only step that interns a function.
-/

namespace TypeInference

variable {id : ValueId} {set : TypeSet} {class_ : ClassId} {generics : Generics}

/-- The value of a method. -/
def MethodGroup.callee : MethodGroup → Value
  | .single function => .function function
  | .overloaded functions => .overloaded functions

namespace Judgement

variable {env : Environment} {judgement : Judgement env} {bound : Nat}

open Inference

/-! ## Deferred values -/

/-- A deferred node mentions nothing that could be out of scope. -/
theorem yields_deferNode (node : NodeId) : judgement.Yields bound fun _ => Engine.deferNode node :=
  Yields.bind yields_freshCell fun _ cell _ _ => yields_pure (by
    simp only [Within, Scoped.within, Deferred.InScope])

/-- A deferred set is within the scope of the set. -/
theorem yields_deferKnown (within : env.Scopes bound set) :
    judgement.Yields bound fun _ => Engine.deferKnown set :=
  Yields.bind yields_freshCell fun _ cell larger _ =>
    yields_pure (within_known (within.grow larger) cell)

/-- A value that is put off until its parts are known is within their scope. -/
theorem yields_deferMerged (within : env.Scopes bound parts) :
    judgement.Yields bound fun _ => Engine.deferMerged parts := by
  unfold Engine.deferMerged
  split
  · exact yields_pure (within_cons.mp within).1
  · exact Yields.bind yields_freshCell fun _ cell larger _ =>
      yields_pure (within_merged (within.grow larger) cell)

/-- Columns are made of what the rows hold. -/
theorem within_columns [Scoped α] {rows : List (List α)} (within : env.Scopes bound rows) :
    env.Scopes bound (Engine.columns rows) := by
  refine within_map _ fun position _ => ?_
  intro item member
  obtain ⟨row, rowMember, found⟩ := List.mem_filterMap.mp member
  exact within row rowMember item (List.mem_of_getElem? found)

/-- The rows of an iteration are merged column by column. -/
theorem yields_mergeRows (within : env.Scopes bound rows) :
    judgement.Yields bound fun _ => Engine.mergeRows rows :=
  yields_mapM fun column member => yields_deferMerged (within_columns within column member)

/-- What a cell holds is within the scope, be it found there or computed now. -/
theorem yields_remember (cell : CellId) (computeYields : judgement.Yields bound compute) :
    judgement.Yields bound fun fuel => Engine.remember cell (compute fuel) := by
  refine Yields.bind (yields_cellAnswer? cell) fun _ found larger foundWithin => ?_
  cases found with
  | some answer => exact yields_pure (foundWithin answer rfl)
  | none =>
    refine Yields.bind (computeYields.grow larger) fun _ answer _ answerWithin => ?_
    exact Yields.bind (yields_fillCell answerWithin cell) fun _ _ largest _ =>
      yields_pure (answerWithin.grow largest)

/-- What is packed is within the scope of its sets. -/
theorem within_packed {deferred : Deferred} (packs : deferred.recipe = .pack packed)
    (within : env.Scopes bound sets) :
    env.Scopes bound (packed sets) ∧ (packed sets).isPlain = true := by
  cases deferred with
  | packedTuple => cases packs; exact ⟨within, rfl⟩
  | packedDict =>
    cases packs
    exact ⟨fun entry member => ⟨trivial, within _ (List.of_mem_zip member).2⟩, rfl⟩
  | _ => cases packs

/-- A deferred value within the scope comes to a set within the scope. -/
theorem yields_resolve (reads : judgement.Reads) (deferred : Deferred) (bound : Nat)
    (within : env.Scopes bound deferred) :
    judgement.Stages bound (·.resolve deferred) := by
  induction deferred using Deferred.induction_on_parts with
  | each deferred ih =>
    obtain ⟨takenWithin, partsWithin⟩ := Deferred.inScope_iff.mp within
    have resolved : judgement.Yields bound fun fuel =>
        deferred.parts.mapM (env.stage fuel).resolve :=
      yields_mapM fun part isPart => ih part isPart (partsWithin part isPart)
    simp only [Engine.resolve_eq]
    refine yields_remember deferred.cell ?_
    cases recipe : deferred.recipe with
    | infer node => exact reads.node bound node
    | take set => exact yields_pure (takenWithin set recipe)
    | unite =>
      exact resolved.map within_unions
    | pack packed =>
      refine Yields.bind resolved fun _ _ _ setsWithin => ?_
      obtain ⟨packedWithin, plain⟩ := within_packed recipe setsWithin
      exact yields_internSet packedWithin plain

variable (reads : judgement.Reads) (calls : judgement.Calls)

include reads

/-! ## Fields of dictionary classes -/

/-- The fields of a dictionary class are declared by its ancestors. -/
theorem yields_typedDictKeys (within : env.Scopes bound class_) :
    judgement.Stages bound (·.typedDictKeys class_) := by
  have classYields : judgement.Yields bound fun _ => intern (.classObject class_) :=
    yields_intern within rfl
  refine Yields.bind classYields fun _ id _ idWithin => ?_
  refine Yields.bind (yields_ancestors reads idWithin) fun later reached _ reachedWithin => ?_
  have declarationsYield : judgement.Yields later fun fuel =>
      reached.mapM (fun ancestor => (env.stage fuel).classDeclaration ancestor.class_) :=
    yields_mapM fun ancestor member => yields_classDeclaration (reachedWithin ancestor member).1
  exact Yields.bind declarationsYield fun _ _ _ _ => yields_pure fun _ _ => trivial

omit reads in
theorem yields_firstField (within : env.Scopes bound reached) (key : String) :
    judgement.Stages bound (·.firstField key reached) := by
  induction reached generalizing bound with
  | nil => exact yields_pure within_none
  | cons ancestor rest ih =>
    replace within := within_cons.mp within
    refine Yields.bind (yields_classDeclaration within.1.1) fun _ declaration larger _ => ?_
    cases found : declaration.fields.get? key with
    | none => exact ih (within.2.grow larger)
    | some node => exact yields_pure (within_some trivial)

include calls

/-- A field has instances within the scope, or an event tells that there is none. -/
theorem yields_typedDictField (within : env.Scopes bound class_) (key : String) :
    judgement.Stages bound (·.typedDictField class_ key) := by
  have classYields : judgement.Yields bound fun _ => intern (.classObject class_) :=
    yields_intern within rfl
  refine Yields.bind classYields fun _ id _ idWithin => ?_
  refine Yields.bind (yields_ancestors reads idWithin) fun _ reached _ reachedWithin => ?_
  refine Yields.bind (yields_firstField reachedWithin key) fun later node _ _ => ?_
  cases node with
  | some node =>
    exact Yields.bind (yields_readHint reads node) fun _ _ _ hintWithin =>
      yields_instances reads calls hintWithin
  | none =>
    have declared : env.Scopes later class_ := within
    refine Yields.bind (yields_classDeclaration declared) fun _ declaration _ _ => ?_
    exact yields_emit_pure _ within_empty

/-! ## Iteration -/

/-- A homogeneous tuple has one element, any other one for each of its slots. -/
theorem yields_tupleElements (within : env.Scopes bound generics) :
    judgement.Stages bound (·.tupleElements generics) := by
  refine Yields.bind (yields_typeArguments reads within) fun later arguments _ argumentsWithin => ?_
  refine keeps_ite (fun _ => ?_) fun _ => ?_
  · refine Yields.bind (yields_instances reads calls (within_slot argumentsWithin 0))
      fun _ element _ elementWithin => ?_
    exact (yields_deferKnown elementWithin).map fun deferredWithin =>
      within_cons.mpr ⟨deferredWithin, within_nil⟩
  · refine yields_mapM fun slot member => ?_
    exact Yields.bind (yields_instances reads calls (argumentsWithin slot member))
      fun _ _ _ elementWithin => yields_deferKnown elementWithin

omit reads calls in
/-- Keys are elements as literals. -/
theorem yields_keyElements (keys : List String) :
    judgement.Yields bound fun _ => Engine.keyElements keys := by
  refine yields_mapM fun key _ => ?_
  have literalYields : judgement.Yields bound fun _ => internSet (.literal key) :=
    yields_internSet trivial rfl
  exact Yields.bind literalYields fun _ _ _ setWithin => yields_deferKnown setWithin

/-- The elements of an instance are what its ancestor among the iterables is given. -/
theorem yields_instanceElements (within : env.Scopes bound id) :
    judgement.Stages bound (·.instanceElements id) := by
  have finishes : ∀ later element, env.Scopes later element →
      judgement.Yields later fun fuel => (do
        return some [← Engine.deferKnown (← (env.stage fuel).instances element)] :
        Inference (Option (List Deferred))) := by
    intro later element elementWithin
    refine Yields.bind (yields_instances reads calls elementWithin) fun _ _ _ instancesWithin => ?_
    exact (yields_deferKnown instancesWithin).map fun deferredWithin =>
      within_some (within_cons.mpr ⟨deferredWithin, within_nil⟩)
  refine Yields.bind (yields_classOf within) fun _ class_ _ classWithin => ?_
  cases class_ with
  | none => exact yields_pure within_none
  | some class_ =>
    refine Yields.bind (yields_ancestor? reads (classWithin class_ rfl) _)
      fun _ found _ foundWithin => ?_
    cases found with
    | none => exact yields_pure within_none
    | some iterable =>
      refine Yields.bind (yields_value (foundWithin iterable rfl)) fun _ stored _ storedWithin => ?_
      cases stored with
      | genericClass owner generics =>
        exact Yields.bind (yields_typeArguments reads storedWithin.2)
          fun later arguments _ argumentsWithin => finishes later _ (within_slot argumentsWithin 0)
      | _ => exact finishes _ ∅ within_empty

/-- The elements of a value are within its scope, if it has any. -/
theorem yields_elements (within : env.Scopes bound id) :
    judgement.Stages bound (·.elements id) := by
  have someYields : ∀ {later : Nat} {row : Nat → Inference (List Deferred)},
      judgement.Yields later row →
      judgement.Yields later fun fuel => (do return some (← row fuel) :
        Inference (Option (List Deferred))) :=
    fun rowYields => rowYields.map within_some
  refine Keeps.bind (keeps_value within) fun later stored larger meets => ?_
  have idWithin := within.grow larger
  have storedWithin := meets.grow idWithin
  cases stored with
  | tuple generics => exact someYields (yields_tupleElements reads calls storedWithin)
  | packedTuple items | typeList items =>
    exact someYields (yields_mapM fun set member => yields_deferKnown (storedWithin set member))
  | packedDict entries => exact someYields (yields_keyElements _)
  | typedDict class_ =>
    exact Yields.bind (yields_typedDictKeys reads storedWithin) fun _ keys _ _ =>
      someYields (yields_keyElements keys)
  | literal text =>
    refine keeps_of_world fun arena largest world => ?_
    have instanceYields : judgement.Yields arena.size fun _ =>
        internSet (.instanceOf Builtin.str .none) :=
      yields_internSet ⟨within_builtin world.declared (by decide), within_nil⟩ rfl
    refine Yields.bind instanceYields fun _ element _ elementWithin => ?_
    exact (yields_deferKnown elementWithin).map fun deferredWithin =>
      within_some (within_cons.mpr ⟨deferredWithin, within_nil⟩)
  | any => exact yields_pure (within_some within_nil)
  | instanceOf class_ generics => exact yields_instanceElements reads calls idWithin
  | _ => exact yields_pure within_none

/-- Iterating over a set defers the elements of all its members. -/
theorem yields_iterate (within : env.Scopes bound set) :
    judgement.Stages bound (·.iterate set) := by
  have rowsYield : judgement.Yields bound fun fuel =>
      filterMapOver (env.stage fuel).elements set.members :=
    yields_filterMapOver fun id member => yields_elements reads calls (within id member)
  exact Yields.bind rowsYield fun _ _ _ rowsWithin => yields_mergeRows rowsWithin

/-- All elements of a set are resolved within the scope. -/
theorem yields_elementSet (within : env.Scopes bound set) :
    judgement.Stages bound (·.elementSet set) :=
  Yields.bind (yields_iterate reads calls within) fun later _ _ itemsWithin =>
    yields_unionOver fun item member => yields_resolve reads item later (itemsWithin item member)

/-! ## Items -/

omit reads calls in
/-- An item of a packed tuple is one of its sets, or all of them. -/
theorem within_packedTupleItem (within : env.Scopes bound items) (index : Index) :
    env.Scopes bound (Engine.packedTupleItem items index) := by
  cases index with
  | position position =>
    simp only [Engine.packedTupleItem]
    cases resolvePosition items.length position with
    | some place => exact within_getD within place
    | none => exact within_empty
  | key | unknown => exact within_unions within

omit reads calls in
/-- A value of a packed dictionary is one of its sets, or all of them. -/
theorem within_packedDictItem (within : env.Scopes bound entries) (index : Index) :
    env.Scopes bound (Engine.packedDictItem entries index) := by
  have valuesWithin : env.Scopes bound (entries.map (fun entry => entry.2)) :=
    within_map _ fun entry member => (within entry member).2
  cases index with
  | key text =>
    simp only [Engine.packedDictItem]
    cases found : entries.find? (fun entry => entry.1 == text) with
    | some entry => exact (within entry (List.mem_of_find?_eq_some found)).2
    | none => exact within_empty
  | position | unknown => exact within_unions valuesWithin

/-- A place outside of a tuple has no item, and one that is not known has all. -/
theorem yields_tupleItem (within : env.Scopes bound generics) (index : Index) :
    judgement.Stages bound (·.tupleItem generics index) := by
  refine Yields.bind (yields_typeArguments reads within) fun _ arguments _ argumentsWithin => ?_
  have slotYields := fun place => yields_instances reads calls (within_slot argumentsWithin place)
  refine keeps_ite (fun _ => slotYields 0) fun _ => ?_
  cases index with
  | position position =>
    simp only
    cases resolvePosition arguments.size position with
    | some place => exact slotYields place
    | none => exact yields_empty
  | key | unknown => exact yields_instances reads calls (within_unions argumentsWithin)

/-- A key that is not known reads every field. -/
theorem yields_typedDictItem (within : env.Scopes bound class_) (index : Index) :
    judgement.Stages bound (·.typedDictItem class_ index) := by
  have allYield : judgement.Yields bound fun fuel => (do
      unionOver ((env.stage fuel).typedDictField class_)
        (← (env.stage fuel).typedDictKeys class_) : Inference TypeSet) :=
    Yields.bind (yields_typedDictKeys reads within) fun _ _ larger _ =>
      yields_unionOver fun key _ => yields_typedDictField reads calls (within.grow larger) key
  cases index with
  | key key => exact yields_typedDictField reads calls within key
  | position | unknown => exact allYield

omit calls in
/-- The ancestor that says what the items are is within the scope. -/
theorem yields_containerAncestor {class_ : ValueId} (within : env.Scopes bound class_) :
    judgement.Keeps bound (fun fuel => (env.stage fuel).containerAncestor class_)
      fun later found => ∀ container ∈ found, env.Scopes later container.1 := by
  refine Yields.bind (yields_ancestor? reads within _) fun _ found larger foundWithin => ?_
  cases found with
  | some mapping =>
    refine keeps_pure fun _ largest container same => ?_
    cases same
    exact (foundWithin mapping rfl).grow largest
  | none =>
    refine Yields.bind (yields_ancestor? reads (within.grow larger) _)
      fun _ found _ foundWithin => ?_
    cases found with
    | some iterable =>
      refine keeps_pure fun _ largest container same => ?_
      cases same
      exact (foundWithin iterable rfl).grow largest
    | none =>
      refine keeps_pure fun _ _ container same => ?_
      cases same

/-- The item of an instance is the slot that its container has for items. -/
theorem yields_instanceItem (within : env.Scopes bound id) :
    judgement.Stages bound (·.instanceItem id) := by
  refine Yields.bind (yields_classOf within) fun _ class_ _ classWithin => ?_
  cases class_ with
  | none => exact yields_empty
  | some class_ =>
    refine Keeps.bind (yields_containerAncestor reads (classWithin class_ rfl))
      fun _ found _ foundWithin => ?_
    cases found with
    | none => exact yields_empty
    | some container =>
      refine Yields.bind (yields_value (foundWithin container rfl))
        fun _ stored _ storedWithin => ?_
      cases stored with
      | genericClass owner generics =>
        exact Yields.bind (yields_typeArguments reads storedWithin.2)
          fun _ arguments _ argumentsWithin =>
            yields_instances reads calls (within_slot argumentsWithin container.2)
      | _ => exact yields_instances reads calls within_empty

omit reads calls in
theorem yields_describe (id : ValueId) : judgement.Stages bound (·.describe id) := by
  intro state admitted _
  show judgement.Accepts (fun _ => .ok (state.arena.describe env.declarations id, state)) _
  exact judgement.ok ⟨admitted, Arena.le_refl state.arena, trivial⟩

/-- Values that have no items yield none, and an event describes them. -/
theorem yields_itemOf (index : Index) (within : env.Scopes bound id) :
    judgement.Stages bound (·.itemOf index id) := by
  refine Keeps.bind (keeps_value within) fun later stored larger meets => ?_
  have idWithin := within.grow larger
  have storedWithin := meets.grow idWithin
  cases stored with
  | tuple generics => exact yields_tupleItem reads calls storedWithin index
  | packedTuple items => exact yields_pure (within_packedTupleItem storedWithin index)
  | packedDict entries => exact yields_pure (within_packedDictItem storedWithin index)
  | typedDict class_ => exact yields_typedDictItem reads calls storedWithin index
  | literal text =>
    refine keeps_of_world fun arena largest world => ?_
    exact yields_internSet ⟨within_builtin world.declared (by decide), within_nil⟩ rfl
  | instanceOf class_ generics => exact yields_instanceItem reads calls idWithin
  | any => exact yields_empty
  | _ =>
    exact Yields.bind (yields_describe id) fun _ _ _ _ => yields_emit_pure _ within_empty

theorem yields_readItem (within : env.Scopes bound set) (index : Index) :
    judgement.Stages bound (·.readItem set index) :=
  yields_unionOver fun id member => yields_itemOf reads calls index (within id member)

/-! ## Attributes -/

/-- Interning a method, bound or not, keeps what is kept besides well-formedness. -/
def Interns (judgement : Judgement env) : Prop :=
  ∀ {arena : Arena} {returns : Table Invocation Progress} (group : MethodGroup),
    judgement.Invariant arena returns →
    judgement.Invariant (arena.intern group.callee).2 returns ∧
      ∀ receiver,
        judgement.Invariant
          ((arena.intern group.callee).2.intern
            (.boundMethod (arena.intern group.callee).1 receiver)).2 returns

omit reads calls in
/-- A method is interned first, and bound to the value it was looked up on then. -/
theorem yields_methodValue (interns : judgement.Interns)
    (groupWithin : env.Scopes bound group) (isClass : Bool) (within : env.Scopes bound id) :
    judgement.Yields bound fun _ => Engine.methodValue group isClass id := by
  intro state admitted larger
  have outcome : Engine.methodValue group isClass id = (do
      let callee ← intern group.callee
      if isClass then return .singleton callee
      else internSet (.boundMethod callee id)) := by
    cases group <;> rfl
  have calleeWithin : env.Scopes state.arena.size group.callee := by
    cases group with
    | single function => exact groupWithin function (by simp [MethodGroup.signatures])
    | overloaded functions => exact groupWithin
  have wellFormed := admitted.wellFormed.intern calleeWithin
  obtain ⟨kept, boundKept⟩ := interns group admitted.invariant
  have calleeStored := Arena.lt_size_of_get? (Arena.get?_intern state.arena group.callee)
  have continues := Arena.le_intern state.arena group.callee
  simp only [KeepsAt, outcome]
  cases isClass with
  | true => exact judgement.ok ⟨⟨wellFormed, kept⟩, continues, within_singleton calleeStored⟩
  | false =>
    have idWithin := (within.grow larger).grow (Arena.size_le_of_le continues)
    have methodWithin : env.Scopes _
        (Value.boundMethod (state.arena.intern group.callee).1 id) := ⟨calleeStored, idWithin⟩
    refine judgement.ok ⟨⟨wellFormed.intern methodWithin, boundKept id⟩, ?_, ?_⟩
    · exact Arena.le_trans continues (Arena.le_intern _ _)
    · exact within_singleton (Arena.lt_size_of_get? (Arena.get?_intern _ _))

/-- A field is seen with the type arguments of its owner. -/
theorem yields_fieldValue (within : env.Scopes bound owner) (node : NodeId) :
    judgement.Stages bound (·.fieldValue owner node) := by
  refine Yields.bind (yields_readHint reads node) fun _ hint larger hintWithin => ?_
  refine Yields.bind (yields_classBindings reads (within.grow larger))
    fun _ bindings largest bindingsWithin => ?_
  exact Yields.bind (yields_substitute reads (hintWithin.grow largest) bindingsWithin)
    fun _ _ _ setWithin => yields_instances reads calls setWithin

omit calls

variable (interns : judgement.Interns) (fields : ∀ later owner node, env.Scopes later owner →
  judgement.Stages later (·.fieldValue owner node))

include interns fields

/-- A member is a method or a field of the class that declares it. -/
theorem yields_memberValue (name : String) {class_ : ValueId} (within : env.Scopes bound id)
    (isClass : Bool)
    (classWithin : env.Scopes bound class_) :
    judgement.Stages bound (·.memberValue name id isClass class_) := by
  refine Yields.bind (yields_lookUpMember reads classWithin name)
    fun later found larger foundWithin => ?_
  cases found with
  | none => exact yields_empty
  | some pair =>
    have pairWithin := foundWithin pair rfl
    obtain ⟨owner, member⟩ := pair
    cases member with
    | method group =>
      exact yields_methodValue interns pairWithin.2 isClass (within.grow larger)
    | field node => exact fields later owner node pairWithin.1

/-- An attribute is looked up on a class itself, else on the class of a value. -/
theorem yields_attributeOf (name : String) (within : env.Scopes bound id) :
    judgement.Stages bound (·.attributeOf name id) := by
  refine Yields.bind (yields_value within) fun later stored larger _ => ?_
  have idWithin := within.grow larger
  refine keeps_ite (fun _ => ?_) fun _ => ?_
  · exact yields_memberValue reads interns fields name idWithin stored.isClass idWithin
  · refine Yields.bind (yields_classOf idWithin) fun _ class? classLarger classWithin => ?_
    cases class? with
    | none => exact yields_empty
    | some class_ =>
      exact yields_memberValue reads interns fields name (idWithin.grow classLarger)
        stored.isClass (classWithin class_ rfl)

theorem yields_readAttribute (within : env.Scopes bound set) (name : String) :
    judgement.Stages bound (·.readAttribute set name) :=
  yields_unionOver fun id member => yields_attributeOf reads interns fields name (within id member)

end Judgement

end TypeInference
