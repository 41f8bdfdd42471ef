import TypeInference.Proofs.Replacement

/-!
# Unification binds what an annotation mentions

Unification and the search for the variables of an annotation are separate walks.  Both
descend through the same type arguments and by as many levels, and type arguments that
one of them has read are known to the other.  Hence a variable that unification binds is
one that the annotation mentions, as far as its type arguments are known by then, and a
search that is made afterwards finds it.  What the variable is bound to are classes, or
annotations that describe exactly one function or class.
-/

namespace TypeInference

open Inference

variable {state after known : State} {levels index : Nat} {variable_ : TypeVariableId}
  {generics : Generics} {id : ValueId} {arguments : TypeArguments} {set : TypeSet}
  {step : Inference Substitution} {found all : List TypeVariableId}

/-! ## Mentioned variables -/

/-- The type arguments behind generics, if they are known. -/
def State.known? (state : State) : Generics → Option TypeArguments
  | .resolved arguments => some arguments
  | .lazy node => state.subscripts.get? node

/-- The type arguments that unification and the search for variables look into. -/
def Value.subscripted? : Value → Option Generics
  | .genericClass _ generics | .special _ generics => some generics
  | _ => Option.none

/-- The variables that a set mentions within some levels of known type arguments. -/
inductive State.Mentions (state : State) : Nat → TypeSet → TypeVariableId → Prop where
  | member {levels : Nat} {set : TypeSet} {id : ValueId} {variable_ : TypeVariableId} :
    id ∈ set → state.arena.get? id = some (.typeVariable variable_) →
    state.Mentions (levels + 1) set variable_
  | nested {levels : Nat} {set slot : TypeSet} {id : ValueId} {stored : Value}
      {generics : Generics} {arguments : TypeArguments} {variable_ : TypeVariableId} :
    id ∈ set → state.arena.get? id = some stored → stored.subscripted? = some generics →
    state.known? generics = some arguments → slot ∈ arguments.slots →
    state.Mentions levels slot variable_ → state.Mentions (levels + 1) set variable_

/-- The variables that known type arguments mention within some levels. -/
def State.MentionsIn (state : State) (levels : Nat) (generics : Generics)
    (variable_ : TypeVariableId) : Prop :=
  ∃ arguments, state.known? generics = some arguments ∧
    ∃ slot ∈ arguments.slots, state.Mentions levels slot variable_

/-- What a member of a set mentions, the set mentions. -/
theorem State.Mentions.of_mem (mentions : state.Mentions levels (.singleton id) variable_)
    (member : id ∈ set) :
    state.Mentions levels set variable_ := by
  cases mentions with
  | member isMember found =>
    cases TypeSet.mem_singleton.mp isMember
    exact .member member found
  | nested isMember found subscripted known slotMember mentioned =>
    cases TypeSet.mem_singleton.mp isMember
    exact .nested member found subscripted known slotMember mentioned

section Retaining

variable {state later : State} (retains : state.Retains later)

include retains

theorem State.Retains.known? (found : state.known? generics = some arguments) :
    later.known? generics = some arguments := by
  cases generics with
  | resolved _ => exact found
  | lazy node => exact retains.subscript found

theorem State.Retains.mentions (mentions : state.Mentions levels set variable_) :
    later.Mentions levels set variable_ := by
  induction mentions with
  | member isMember found => exact .member isMember (retains.value found)
  | nested isMember found subscripted known slotMember _ ih =>
    exact .nested isMember (retains.value found) subscripted (retains.known? known) slotMember ih

theorem State.Retains.mentionsIn (mentions : state.MentionsIn levels generics variable_) :
    later.MentionsIn levels generics variable_ := by
  obtain ⟨arguments, known, slot, member, mentioned⟩ := mentions
  exact ⟨arguments, retains.known? known, slot, member, retains.mentions mentioned⟩

end Retaining

/-- What the slot of an index mentions is mentioned by one of the slots. -/
theorem exists_slot_of_mentions
    (mentions : state.Mentions levels (arguments.slot index) variable_) :
    ∃ slot ∈ arguments.slots, state.Mentions levels slot variable_ := by
  have isSlot : arguments.slot index = ∅ ∨ arguments.slot index ∈ arguments.slots := by
    unfold TypeArguments.slot
    rw [List.getD_eq_getElem?_getD]
    cases found : arguments.slots[index]? with
    | none => exact .inl rfl
    | some slot => exact .inr (List.mem_of_getElem? found)
  rcases isSlot with isEmpty | isMember
  · rw [isEmpty] at mentions
    cases mentions with
    | member isMember | nested isMember => exact absurd isMember TypeSet.not_mem_empty
  · exact ⟨_, isMember, mentions⟩

/-! ## What variables are bound to -/

/-- The values that variables are bound to. -/
inductive Arena.Represents (arena : Arena) (id : ValueId) : Prop where
  | exactly {described : ValueId} {stored : Value} :
    arena.get? id = some (.exactly described) → arena.get? described = some stored →
    (stored.isFunction || stored.isClass) = true → arena.Represents id
  | classObject {class_ : ClassId} :
    arena.get? id = some (.classObject class_) → arena.Represents id
  | genericClass {class_ : ClassId} {generics : Generics} :
    arena.get? id = some (.genericClass class_ generics) → arena.Represents id
  | callable {generics : Generics} :
    arena.get? id = some (.special .callable generics) → arena.Represents id
  | none : arena.get? id = some .none → arena.Represents id
  | any : arena.get? id = some .any → arena.Represents id

theorem State.Retains.represents (retains : state.Retains later)
    (represents : state.arena.Represents id) :
    later.arena.Represents id := by
  cases represents with
  | exactly found described isSeen =>
    exact .exactly (retains.value found) (retains.value described) isSeen
  | classObject found => exact .classObject (retains.value found)
  | genericClass found => exact .genericClass (retains.value found)
  | callable found => exact .callable (retains.value found)
  | none found => exact .none (retains.value found)
  | any found => exact .any (retains.value found)

/-- A value that is interned is found under its identifier. -/
theorem get?_of_intern (succeeds : intern stored state = .ok (id, after)) :
    after.arena.get? id = some stored := by
  cases succeeds
  exact Arena.get?_intern state.arena stored

theorem represents_classOf (succeeds : Engine.classOf id state = .ok (some class_, after)) :
    after.arena.Represents class_ := by
  obtain ⟨stored, between, looked, classified⟩ := bind_eq_ok_iff.mp succeeds
  unfold value at looked
  split at looked <;> cases looked
  rename_i found
  -- Whatever has been done before, the class object is interned last.
  have interned {described : Value}
      (represents : ∀ {arena : Arena}, arena.get? class_ = some described → arena.Represents class_)
      {start : State}
      (finishes : (return some (← intern described) : Inference (Option ValueId)) start =
        .ok (some class_, after)) :
      after.arena.Represents class_ := by
    obtain ⟨_, _, interns, ⟨⟩⟩ := bind_eq_ok_iff.mp finishes
    exact represents (get?_of_intern interns)
  cases stored with
  | instanceOf _ generics =>
    by_cases unparameterized : generics.isUnparameterized = true
    · rw [Engine.classOfValue, if_pos unparameterized] at classified
      exact interned .classObject classified
    · rw [Engine.classOfValue, if_neg unparameterized] at classified
      exact interned .genericClass classified
  | tuple _ => exact interned .genericClass classified
  | packedTuple _ =>
    obtain ⟨_, _, _, finishes⟩ := bind_eq_ok_iff.mp classified
    exact interned .genericClass finishes
  | packedDict _ =>
    obtain ⟨_, _, _, continued⟩ := bind_eq_ok_iff.mp classified
    obtain ⟨_, _, _, finishes⟩ := bind_eq_ok_iff.mp continued
    exact interned .genericClass finishes
  | callable _ => exact interned .callable classified
  | typedDict _ | literal _ | function _ | overloaded _ | boundMethod _ _ | classObject _
  | genericClass _ _ => exact interned .classObject classified
  | none =>
    cases classified
    exact .none found
  | any =>
    cases classified
    exact .any found
  | typeVariable _ | special _ _ | typeList _ | exactly _ | ellipsis => cases classified

/-! ## Steps that bind variables -/

/-- A step that keeps what is known and binds some variables, each as it is to be bound. -/
def Binds (mentions : State → TypeVariableId → Prop) (step : Inference Substitution) : Prop :=
  ∀ state bindings after, step state = .ok (bindings, after) →
    state.Retains after ∧ ∀ entry, bindings.Holds entry →
      mentions after entry.1 ∧ after.arena.Represents entry.2

namespace Binds

variable {mentions others : State → TypeVariableId → Prop} {α : Type}

theorem empty : Binds mentions (pure ∅) := by
  rintro state _ _ ⟨⟩
  exact ⟨.refl state, fun entry bound => absurd bound (Substitution.not_holds_empty entry)⟩

theorem weaken (binds : Binds mentions step)
    (weaker : ∀ {state variable_}, mentions state variable_ → others state variable_) :
    Binds others step := by
  intro state bindings after succeeds
  obtain ⟨retains, each⟩ := binds state bindings after succeeds
  exact ⟨retains, fun entry bound => ⟨weaker (each entry bound).1, (each entry bound).2⟩⟩

theorem bind (conserves : Conserves State.Retains first)
    (nextBinds : ∀ answer, Binds mentions (next answer)) :
    Binds mentions (first >>= next) := by
  intro state bindings after succeeds
  obtain ⟨answer, between, started, finished⟩ := bind_eq_ok_iff.mp succeeds
  obtain ⟨retains, each⟩ := nextBinds answer between bindings after finished
  exact ⟨(conserves _ _ _ started).trans retains, each⟩

/-- Bindings that are merged are those of one item or another. -/
theorem mergeOver {mentions : α → State → TypeVariableId → Prop}
    {bindingsOf : α → Inference Substitution}
    (each : ∀ item, Binds (mentions item) (bindingsOf item))
    (monotone : ∀ item {state later : State}, state.Retains later → ∀ {variable_},
      mentions item state variable_ → mentions item later variable_)
    (items : List α) :
    Binds (fun state variable_ => ∃ item ∈ items, mentions item state variable_)
      (mergeOver bindingsOf items) := by
  induction items with
  | nil => exact empty
  | cons item rest ih =>
    intro state bindings after succeeds
    obtain ⟨first, between, started, continued⟩ := bind_eq_ok_iff.mp succeeds
    obtain ⟨second, _, finished, ⟨⟩⟩ := bind_eq_ok_iff.mp continued
    obtain ⟨retains, firstBinds⟩ := each item state first between started
    obtain ⟨retainsAfter, secondBinds⟩ := ih between second after finished
    refine ⟨retains.trans retainsAfter, fun entry bound => ?_⟩
    rcases Substitution.holds_merge.mp bound with inFirst | inSecond
    · obtain ⟨mentioned, represented⟩ := firstBinds entry inFirst
      exact ⟨⟨item, by simp, monotone item retainsAfter mentioned⟩,
        retainsAfter.represents represented⟩
    · obtain ⟨⟨other, member, mentioned⟩, represented⟩ := secondBinds entry inSecond
      exact ⟨⟨other, by simp [member], mentioned⟩, represented⟩

end Binds

/-! ## Unification -/

section Unifying

variable {engine : Engine} (reads : engine.Reads State.Retains)

include reads

/-- A step after type arguments have been read may rely on them. -/
theorem Binds.typeArguments {next : TypeArguments → Inference Substitution}
    (nextBinds : ∀ arguments, Binds (fun state variable_ =>
      state.known? generics = some arguments → state.MentionsIn levels generics variable_)
      (next arguments)) :
    Binds (fun state => state.MentionsIn levels generics)
      (engine.typeArguments generics >>= next) := by
  intro state bindings after succeeds
  obtain ⟨arguments, between, started, finished⟩ := bind_eq_ok_iff.mp succeeds
  obtain ⟨retains, isKnown⟩ := Engine.retains_typeArguments reads.asks started
  obtain ⟨retainsAfter, each⟩ := nextBinds arguments between bindings after finished
  have known : between.known? generics = some arguments := by
    cases generics with
    | resolved _ =>
      cases started
      rfl
    | lazy node => exact isKnown node rfl
  refine ⟨retains.trans retainsAfter, fun entry bound => ?_⟩
  obtain ⟨mentioned, represented⟩ := each entry bound
  exact ⟨mentioned (retainsAfter.known? known), represented⟩

theorem Binds.fits {mentions : State → TypeVariableId → Prop}
    (fits : (conservation State.Retains.conserved reads).Fits first other)
    (nextBinds : ∀ answer, Binds mentions (next answer)) :
    Binds mentions (first >>= next) :=
  .bind (conserves_of_fits State.Retains.conserved reads fits) nextBinds

omit reads in
/-- What the slots of known type arguments mention, the type arguments mention. -/
theorem Binds.of_slot
    (binds : Binds (fun state => state.Mentions levels (arguments.slot index)) step) :
    Binds (fun state variable_ =>
      state.known? generics = some arguments → state.MentionsIn levels generics variable_)
      step :=
  binds.weaken fun mentioned known => ⟨arguments, known, exists_slot_of_mentions mentioned⟩

theorem binds_unifyVariable (variable_ : TypeVariableId) (actual : TypeSet) :
    Binds (fun _ other => other = variable_) (Engine.unifyVariable variable_ actual) := by
  have conserved := State.Retains.conserved
  have bindingOf (id : ValueId) {state after : State} {set : TypeSet}
      (succeeds : Engine.bindingOf id state = .ok (set, after)) :
      ∀ other ∈ set, after.arena.Represents other := by
    obtain ⟨seen, _, looked, continued⟩ := bind_eq_ok_iff.mp succeeds
    unfold value at looked
    split at looked <;> cases looked
    rename_i found
    split at continued
    · rename_i isSeen
      obtain ⟨described, _, interns, ⟨⟩⟩ := bind_eq_ok_iff.mp continued
      intro other member
      cases TypeSet.mem_singleton.mp member
      have still := (conserved.intern state (.exactly id)).value found
      cases interns
      exact .exactly (Arena.get?_intern state.arena _) still isSeen
    · obtain ⟨class?, between, classified, finished⟩ := bind_eq_ok_iff.mp continued
      cases class? with
      | none =>
        cases finished
        exact fun other member => absurd member TypeSet.not_mem_empty
      | some class_ =>
        cases finished
        intro other member
        cases TypeSet.mem_singleton.mp member
        exact represents_classOf classified
  have bindingsOf (ids : List ValueId) {state after : State} {set : TypeSet}
      (succeeds : unionOver Engine.bindingOf ids state = .ok (set, after)) :
      state.Retains after ∧ ∀ other ∈ set, after.arena.Represents other := by
    induction ids generalizing state after set with
    | nil =>
      cases succeeds
      exact ⟨.refl _, fun other member => absurd member TypeSet.not_mem_empty⟩
    | cons id rest ih =>
      obtain ⟨first, between, started, continued⟩ := bind_eq_ok_iff.mp succeeds
      obtain ⟨second, _, finished, ⟨⟩⟩ := bind_eq_ok_iff.mp continued
      obtain ⟨retainsAfter, secondRepresents⟩ := ih finished
      have retains := conserves_of_fits conserved reads (Pairing.fits_bindingOf id) _ _ _ started
      refine ⟨retains.trans retainsAfter, fun other member => ?_⟩
      rcases TypeSet.mem_union.mp member with inFirst | inSecond
      · exact retainsAfter.represents (bindingOf id started other inFirst)
      · exact secondRepresents other inSecond
  intro state bindings after succeeds
  obtain ⟨set, _, united, ⟨⟩⟩ := bind_eq_ok_iff.mp succeeds
  obtain ⟨retains, represented⟩ := bindingsOf actual.members united
  refine ⟨retains, fun entry bound => ?_⟩
  obtain ⟨same, member⟩ := Substitution.holds_singleton.mp bound
  exact ⟨same, represented entry.2 member⟩

section Nested

variable {levels : Nat} {nested : Engine.Unifier}
  (nestedBinds : ∀ slot actual, Binds (fun state => state.Mentions levels slot)
    (nested slot actual))

include nestedBinds

theorem binds_unifyPairwise (generics : Generics) (argumentClass : ValueId) :
    Binds (fun state => state.MentionsIn levels generics)
      (engine.unifyPairwise nested generics argumentClass) := by
  refine .fits reads (Pairing.fits_value argumentClass) fun stored => ?_
  cases stored with
  | genericClass _ found =>
    refine .bind (reads.subscripts found) fun foundArguments => ?_
    refine .typeArguments reads fun arguments => ?_
    have slots : ∀ pair, Binds (fun state => state.Mentions levels pair.1)
        (engine.unifySlot nested pair) := by
      intro pair
      exact .fits reads (Pairing.fits_instances pair.2) fun actual => nestedBinds pair.1 actual
    refine (Binds.mergeOver slots (fun _ _ _ retains _ => retains.mentions) _).weaken ?_
    rintro state variable_ ⟨pair, member, mentioned⟩ known
    exact ⟨arguments, known, pair.1, (List.of_mem_zip member).1, mentioned⟩
  | _ => exact .empty

theorem binds_unifyTuple (generics : Generics) (actual : TypeSet) :
    Binds (fun state => state.MentionsIn levels generics)
      (engine.unifyTuple nested generics actual) := by
  refine .fits reads (Pairing.fits_tuplesIn actual) fun tuples => ?_
  split
  · exact .empty
  · refine .typeArguments reads fun arguments => ?_
    split
    · refine .fits reads (Pairing.fits_elementSet tuples) fun items => ?_
      exact .of_slot (nestedBinds _ items)
    · refine (@Binds.mergeOver _ (fun _ state => state.MentionsIn levels generics) _ (fun id => ?_)
        (fun _ _ _ retains _ => retains.mentionsIn) _).weaken fun mentioned _ => ?_
      · refine .fits reads (Pairing.fits_classOf id) fun class? => ?_
        cases class? with
        | none => exact .empty
        | some argumentClass => exact binds_unifyPairwise reads nestedBinds generics argumentClass
      · obtain ⟨_, _, mentionedIn⟩ := mentioned
        exact mentionedIn

theorem binds_unifyInstance (class_ : ClassId) (generics : Generics) (id : ValueId) :
    Binds (fun state => state.MentionsIn levels generics)
      (engine.unifyInstance nested class_ generics id) := by
  refine .fits reads (Pairing.fits_value id) fun stored => ?_
  split
  · exact .empty
  · refine .fits reads (Pairing.fits_classOf id) fun class? => ?_
    cases class? with
    | none => exact .empty
    | some argumentClass =>
      refine .fits reads (Pairing.fits_ancestor? argumentClass class_) fun ancestor? => ?_
      cases ancestor? with
      | none => exact .empty
      | some ancestor => exact binds_unifyPairwise reads nestedBinds generics ancestor

theorem binds_unifyClass (class_ : ClassId) (generics : Generics) (actual : TypeSet) :
    Binds (fun state => state.MentionsIn levels generics)
      (engine.unifyClass nested class_ generics actual) := by
  refine .typeArguments reads fun arguments => ?_
  split
  · exact .empty
  · split
    · refine .fits reads (Pairing.fits_elementSet actual) fun items => ?_
      exact .of_slot (nestedBinds _ items)
    · split
      · exact (binds_unifyTuple reads nestedBinds generics actual).weaken fun mentioned _ =>
          mentioned
      · have instances := binds_unifyInstance reads nestedBinds class_ generics
        refine (Binds.mergeOver instances (fun _ _ _ retains _ => retains.mentionsIn) _).weaken ?_
        rintro state variable_ ⟨_, _, mentioned⟩ _
        exact mentioned

theorem binds_unifyForm (form : SpecialForm) (generics : Generics) (actual : TypeSet) :
    Binds (fun state => state.MentionsIn levels generics)
      (engine.unifyForm nested form generics actual) := by
  refine .typeArguments reads fun arguments => ?_
  split
  · exact .empty
  · cases form with
    | optional => exact .of_slot (nestedBinds _ _)
    | classVar => exact .of_slot (nestedBinds _ actual)
    | union =>
      have slots := fun slot => nestedBinds slot actual
      refine (Binds.mergeOver slots (fun _ _ _ retains _ => retains.mentions) _).weaken ?_
      rintro state variable_ ⟨slot, member, mentioned⟩ known
      exact ⟨arguments, known, slot, member, mentioned⟩
    | type =>
      refine .fits reads (Pairing.fits_instances actual) fun described => ?_
      exact .of_slot (nestedBinds _ described)
    | callable =>
      dsimp only
      split
      · refine .bind (reads.asks (.execute actual .empty)) fun returned => ?_
        exact .of_slot (nestedBinds _ returned)
      · exact .empty
    | tuple =>
      exact (binds_unifyTuple reads nestedBinds generics actual).weaken fun mentioned _ => mentioned

theorem binds_unifyValue (actual : TypeSet) (id : ValueId) :
    Binds (fun state => state.Mentions (levels + 1) (.singleton id))
      (engine.unifyValue nested actual id) := by
  have member : id ∈ TypeSet.singleton id := TypeSet.mem_singleton.mpr rfl
  have counts : Conserves State.Retains (count fun counters =>
      { counters with unifications := counters.unifications + 1 }) := by
    rintro state _ _ ⟨⟩
    exact .of_same rfl rfl
  refine .bind counts fun _ => ?_
  intro state bindings after succeeds
  obtain ⟨stored, _, looked, continued⟩ := bind_eq_ok_iff.mp succeeds
  unfold value at looked
  split at looked <;> cases looked
  rename_i found
  have subscripted {generics : Generics} (isSubscripted : stored.subscripted? = some generics)
      {step : Inference Substitution}
      (binds : Binds (fun state => state.MentionsIn levels generics) step)
      (finished : step state = .ok (bindings, after)) :
      state.Retains after ∧ ∀ entry, bindings.Holds entry →
        after.Mentions (levels + 1) (.singleton id) entry.1 ∧ after.arena.Represents entry.2 := by
    obtain ⟨retains, each⟩ := binds state bindings after finished
    refine ⟨retains, fun entry bound => ?_⟩
    obtain ⟨⟨arguments, known, slot, slotMember, mentioned⟩, represented⟩ := each entry bound
    exact ⟨.nested member (retains.value found) isSubscripted known slotMember mentioned,
      represented⟩
  cases stored with
  | typeVariable variable_ =>
    obtain ⟨retains, each⟩ := binds_unifyVariable reads variable_ actual _ _ _ continued
    refine ⟨retains, fun entry bound => ?_⟩
    obtain ⟨same, represented⟩ := each entry bound
    exact ⟨same ▸ .member member (retains.value found), represented⟩
  | genericClass class_ generics =>
    exact subscripted rfl (binds_unifyClass reads nestedBinds class_ generics actual) continued
  | special form generics =>
    exact subscripted rfl (binds_unifyForm reads nestedBinds form generics actual) continued
  | _ =>
    have nothing : Binds (fun state => state.Mentions (levels + 1) (.singleton id)) (pure ∅) :=
      .empty
    exact nothing _ _ _ continued

end Nested

theorem binds_unifyWithin (levels : Nat) (hint actual : TypeSet) :
    Binds (fun state => state.Mentions levels hint) (engine.unifyWithin levels hint actual) := by
  induction levels generalizing hint actual with
  | zero =>
    unfold Engine.unifyWithin
    split
    · exact .empty
    · exact .bind (State.Retains.conserved.emit _) fun _ => .empty
  | succ levels ih =>
    unfold Engine.unifyWithin
    split
    · exact .empty
    · have values := binds_unifyValue reads ih actual
      refine (Binds.mergeOver values (fun _ _ _ retains _ => retains.mentions) _).weaken ?_
      rintro state variable_ ⟨id, member, mentioned⟩
      exact mentioned.of_mem member

end Unifying

/-! ## The search for variables -/

/-- What is found in one item, whenever it is visited, is found in all of them. -/
theorem Finds.mem_foldlM {α : Type}
    {visit : List TypeVariableId → α → Inference (List TypeVariableId)} (finds : Finds visit)
    {item : α} (visited : ∀ before start all after, known.Retains start →
      visit before item start = .ok (all, after) → variable_ ∈ all)
    {items : List α} (member : item ∈ items) (retains : known.Retains state)
    (ran : items.foldlM visit found state = .ok (all, after)) :
    variable_ ∈ all := by
  induction items generalizing found state with
  | nil => cases member
  | cons first rest ih =>
    rw [List.foldlM_cons] at ran
    obtain ⟨some, between, started, finished⟩ := bind_eq_ok_iff.mp ran
    rcases List.mem_cons.mp member with rfl | inRest
    · exact (finds.foldlM finished).1.1 (visited _ _ _ _ retains started)
    · exact ih inRest (retains.trans (finds _ _ _ _ _ started).2) finished

section Searching

variable {engine : Engine} (reads : engine.Reads State.Retains)

include reads

/-- Type arguments that are known are what is read. -/
theorem eq_of_known? (retains : known.Retains state) {read : TypeArguments}
    (isKnown : known.known? generics = some arguments)
    (started : engine.typeArguments generics state = .ok (read, after)) :
    read = arguments ∧ known.Retains after := by
  refine ⟨?_, retains.trans (reads.subscripts generics _ _ _ started)⟩
  cases generics with
  | resolved _ =>
    cases isKnown
    cases started
    rfl
  | lazy node =>
    rw [Engine.typeArguments_of_known (retains.subscript isKnown)] at started
    cases started
    rfl

/-- A search finds every variable that is mentioned as far as type arguments were known. -/
theorem mem_of_mentions (mentions : known.Mentions levels set variable_)
    (retains : known.Retains state)
    (ran : engine.collectWithin levels found set state = .ok (all, after)) :
    variable_ ∈ all := by
  induction mentions generalizing found all state after with
  | @member levels set id variable_ isMember stored =>
    have finds := finds_collectValue reads.asks (finds_collectWithin reads.asks levels)
    refine finds.mem_foldlM (fun before start all after startRetains visits => ?_) isMember
      retains ran
    unfold Engine.collectValue at visits
    rw [bind_of_ok (value_of_get? (startRetains.value stored))] at visits
    cases visits
    split
    · assumption
    · simp
  | @nested levels set slot id value generics arguments variable_ isMember stored subscripted
      isKnown slotMember _ ih =>
    have nestedFinds := finds_collectWithin reads.asks levels
    have finds := finds_collectValue reads.asks nestedFinds
    refine finds.mem_foldlM (fun before start all after startRetains visits => ?_) isMember
      retains ran
    unfold Engine.collectValue at visits
    rw [bind_of_ok (value_of_get? (startRetains.value stored))] at visits
    have inSlots {end_ : State}
        (visits : (engine.typeArguments generics >>= fun arguments =>
          arguments.slots.foldlM (engine.collectWithin levels) before) start = .ok (all, end_)) :
        variable_ ∈ all := by
      obtain ⟨read, between, started, finished⟩ := bind_eq_ok_iff.mp visits
      obtain ⟨rfl, betweenRetains⟩ := eq_of_known? reads startRetains isKnown started
      exact nestedFinds.mem_foldlM (fun _ _ _ _ someRetains collects =>
        ih someRetains collects) slotMember betweenRetains finished
    cases value with
    | genericClass _ _ | special _ _ =>
      cases subscripted
      exact inSlots visits
    | _ => cases subscripted

end Searching

/--
Whatever the tree and the limits are, every variable that unification binds is mentioned
by the annotation, as far as its type arguments are known by then, so that a search which
comes afterwards finds it.  It is bound to something, and only to classes, callable forms,
`None`, `Any` and annotations that describe exactly one function or class.
-/
theorem unify_binds_mentioned_variables
    (environment : Environment)
    (fuel : Nat)
    (hint actual : TypeSet)
    {state after : State}
    {bindings : Substitution}
    (unifies : environment.answer fuel (.unify hint actual) state = .ok (bindings, after))
    {variable_ : TypeVariableId}
    (isBound : variable_ ∈ bindings.domain) :
    after.Mentions (environment.settings.unificationDepthLimit + 1) hint variable_ ∧
      (∀ more found later,
        environment.answer more (.freeVariables hint) after = .ok (found, later) →
        variable_ ∈ found) ∧
      ∃ set, bindings.get? variable_ = some set ∧ set.isEmpty = false ∧
        ∀ id ∈ set, after.arena.Represents id := by
  rw [Environment.answer, ← environment.stage_eq_engine] at unifies
  obtain ⟨⟨variable_, set⟩, member, rfl⟩ := List.mem_map.mp isBound
  have bound := Substitution.get?_eq_some_iff.mpr member
  have reads := (environment.abides_retains fuel).toReads
  obtain ⟨_, binds⟩ := binds_unifyWithin reads _ _ _ _ _ _ unifies
  have holds (id : ValueId) (member : id ∈ set) : bindings.Holds (variable_, id) := by
    simpa [Substitution.Holds, bound] using member
  obtain ⟨some, someMember⟩ := TypeSet.exists_mem_of_isEmpty_eq_false
    (Substitution.isEmpty_eq_false_of_get? bound)
  have mentioned := (binds _ (holds some someMember)).1
  have levels : (environment.stage fuel).levels = environment.settings.unificationDepthLimit + 1 := by
    rw [Engine.levels, environment.stage_toEnvironment]
  rw [levels] at mentioned
  refine ⟨mentioned, fun more found later searches => ?_, set, bound,
    Substitution.isEmpty_eq_false_of_get? bound, fun id member => (binds _ (holds id member)).2⟩
  rw [Environment.answer, ← environment.stage_eq_engine] at searches
  have levelsMore : (environment.stage more).levels =
      environment.settings.unificationDepthLimit + 1 := by
    rw [Engine.levels, environment.stage_toEnvironment]
  rw [← levelsMore] at mentioned
  exact mem_of_mentions (environment.abides_retains more).toReads mentioned (.refl after) searches

/-- The arena every analysis starts from, with an optional key and something in its place. -/
def Arena.optionalKey : Arena :=
  World.initial.arena.append
    [.special .optional (.lazy ⟨0⟩), .function ⟨0⟩, .instanceOf Builtin.int .none]

/-- The type argument of the optional key is the key of a dictionary. -/
def Tree.optionalKey : Tree :=
  { nodes := #[.fixed (.singleton ⟨16⟩)] }

/-- A key that is read from the tree is bound to a class and to exactly one function. -/
theorem unify_binds_mentioned_variables_of_optionalKey :
    let environment : Environment :=
      { declarations := World.initial.declarations, provider := Tree.optionalKey.fixedProvider }
    let bindings : Substitution := .ofList [⟨⟨6⟩, .ofList [⟨4⟩, ⟨22⟩]⟩]
    ∃ after found later,
      environment.answer 1 (.unify (.singleton ⟨19⟩) (.ofList [⟨0⟩, ⟨20⟩, ⟨21⟩]))
          (environment.start Arena.optionalKey) = .ok (bindings, after) ∧
        environment.answer 1 (.freeVariables (.singleton ⟨19⟩)) after = .ok (found, later) ∧
        after.Mentions 33 (.singleton ⟨19⟩) ⟨6⟩ ∧ ⟨6⟩ ∈ found ∧
        ∃ set, bindings.get? ⟨6⟩ = some set ∧ set.isEmpty = false ∧
          ∀ id ∈ set, after.arena.Represents id := by
  intro environment bindings
  obtain ⟨after, found, later, unifies, searches⟩ : ∃ after found later,
      environment.answer 1 (.unify (.singleton ⟨19⟩) (.ofList [⟨0⟩, ⟨20⟩, ⟨21⟩]))
          (environment.start Arena.optionalKey) = .ok (bindings, after) ∧
        environment.answer 1 (.freeVariables (.singleton ⟨19⟩)) after = .ok (found, later) :=
    ⟨_, _, _, rfl, rfl⟩
  have isBound : ⟨6⟩ ∈ bindings.domain := by decide +kernel
  obtain ⟨mentioned, finds, represented⟩ :=
    unify_binds_mentioned_variables environment 1 _ _ unifies isBound
  exact ⟨after, found, later, unifies, searches, mentioned, finds 1 found later searches,
    represented⟩

end TypeInference
