import TypeInference.Proofs.Accessor

/-!
# Items and attributes of dictionaries

The fields of a dictionary class are its keys.  An item and an attribute of a dictionary are
both described by the first class that declares the key.  An attribute sees its annotation
with the type arguments that the inheritance gives that class, and an item sees it bare, so
that they may differ where the class is given type arguments.
-/

namespace TypeInference

open Inference

variable {order : List Engine.Ancestor} {key : String}

/-! ## The class that declares a key -/

def Declarations.field? (declarations : Declarations) (class_ : ClassId) (name : String) :
    Option NodeId :=
  (declarations.class? class_).bind fun declaration => declaration.fields.get? name

/-- Of some class objects, the first one whose class declares a field, and its annotation. -/
def Declarations.firstField? (declarations : Declarations) (order : List Engine.Ancestor)
    (name : String) : Option (Engine.Ancestor × NodeId) :=
  order.findSome? fun ancestor =>
    (declarations.field? ancestor.class_ name).map fun node => (ancestor, node)

/-- No class in a list declares a method of a name. -/
def Declarations.HasNoMethod (declarations : Declarations) (order : List Engine.Ancestor)
    (name : String) : Prop :=
  ∀ ancestor ∈ order, ∀ declaration, declarations.class? ancestor.class_ = some declaration →
    declaration.methods.get? name = none

theorem Declarations.mem_of_firstField? {declarations : Declarations}
    (first : declarations.firstField? order key = some (owner, node)) :
    owner ∈ order := by
  obtain ⟨ancestor, member, declares⟩ := List.exists_of_findSome?_eq_some first
  obtain ⟨_, _, same⟩ := Option.map_eq_some_iff.mp declares
  cases same
  exact member

theorem mem_firstOccurrences (names : List String) :
    key ∈ Engine.firstOccurrences names ↔ key ∈ names := by
  have kept (start : List String) :
      key ∈ names.foldl (fun kept name => if name ∈ kept then kept else kept ++ [name]) start ↔
        key ∈ start ∨ key ∈ names := by
    induction names generalizing start with
    | nil => simp
    | cons name rest ih =>
      rw [List.foldl_cons, ih]
      split <;> grind
  simpa [Engine.firstOccurrences] using kept []

theorem Declarations.firstField?_cons {declarations : Declarations} {ancestor : Engine.Ancestor}
    (declared : declarations.class? ancestor.class_ = some declaration)
    (rest : List Engine.Ancestor) (name : String) :
    declarations.firstField? (ancestor :: rest) name =
      ((declaration.fields.get? name).map fun node => (ancestor, node)).or
        (declarations.firstField? rest name) := by
  simp only [firstField?, field?, List.findSome?_cons, declared, Option.bind_some]
  cases declaration.fields.get? name <;> rfl

section Lookup

variable {engine : Engine} {declared : List ClassDeclaration}
  (declares : List.Forall₂ (fun ancestor declaration =>
    engine.declarations.class? ancestor.class_ = some declaration) order declared)

include declares

theorem mapM_classDeclaration (state : State) :
    order.mapM (fun ancestor => engine.classDeclaration ancestor.class_) state =
      .ok (declared, state) := by
  induction declares with
  | nil => rfl
  | cons isDeclared _ ih =>
    simp only [List.mapM_cons, Engine.classDeclaration, isDeclared, pure_bind]
    exact bind_of_ok ih

theorem mem_flatMap_keys :
    key ∈ declared.flatMap (fun declaration => declaration.fields.keys) ↔
      (engine.declarations.firstField? order key).isSome := by
  induction declares with
  | nil => simp [Declarations.firstField?]
  | @cons _ declaration _ _ isDeclared _ ih =>
    rw [List.flatMap_cons, List.mem_append, ih, Table.keys, Table.mem_keys_iff,
      Declarations.firstField?_cons isDeclared]
    cases declaration.fields.get? key <;> simp

theorem firstField_eq (key : String) :
    engine.firstField key order =
      pure ((engine.declarations.firstField? order key).map Prod.snd) := by
  induction declares with
  | nil => rfl
  | @cons _ declaration _ _ isDeclared _ ih =>
    rw [Declarations.firstField?_cons isDeclared]
    simp only [Engine.firstField, Engine.classDeclaration, isDeclared, pure_bind]
    cases declaration.fields.get? key with
    | none => exact ih
    | some node => rfl

theorem firstMember_eq (noMethod : engine.declarations.HasNoMethod order key) :
    engine.firstMember key order = pure ((engine.declarations.firstField? order key).map
      fun found => (found.1.value, .field found.2)) := by
  induction declares with
  | nil => rfl
  | @cons ancestor declaration _ _ isDeclared _ ih =>
    have own := noMethod ancestor (by simp) declaration isDeclared
    have others := ih fun other member => noMethod other (by simp [member])
    rw [Declarations.firstField?_cons isDeclared]
    simp only [Engine.firstMember, Engine.classDeclaration, ClassDeclaration.member?, isDeclared,
      own, pure_bind]
    cases declaration.fields.get? key with
    | none => exact others
    | some node => rfl

end Lookup

theorem exists_forall₂_class? {declarations : Declarations} {bound : Nat}
    (within : Within declarations bound order) :
    ∃ declared, List.Forall₂ (fun ancestor declaration =>
      declarations.class? ancestor.class_ = some declaration) order declared := by
  induction order with
  | nil => exact ⟨[], .nil⟩
  | cons ancestor rest ih =>
    obtain ⟨ancestorWithin, restWithin⟩ := within_cons.mp within
    obtain ⟨declared, declares⟩ := ih restWithin
    exact ⟨_ :: declared, .cons (Array.getElem?_eq_getElem ancestorWithin.1) declares⟩

/-! ## Items and attributes -/

section Dictionary

variable {engine : Engine} {state between found read : State} {receiver id : ValueId}
  {class_ : ClassId} {declared : List ClassDeclaration}
  (declares : List.Forall₂ (fun ancestor declaration =>
    engine.declarations.class? ancestor.class_ = some declaration) order declared)
  (interned : intern (.classObject class_) state = .ok (id, between))
  (reached : engine.ancestors id between = .ok (order, found))

include declares interned reached

theorem typedDictKeys_eq :
    engine.typedDictKeys class_ state =
      .ok (Engine.firstOccurrences (declared.flatMap fun declaration => declaration.fields.keys),
        found) := by
  unfold Engine.typedDictKeys
  rw [bind_of_ok interned, bind_of_ok reached, bind_of_ok (mapM_classDeclaration declares found)]
  rfl

variable (held : state.arena.get? receiver = some (.typedDict class_))

include held

theorem readItem_eq (key : String) :
    engine.readItem (.singleton receiver) (.key key) state =
      match engine.declarations.firstField? order key with
      | some (_, node) => (engine.readHint node >>= engine.instances) found
      | none => (do
        let declaration ← engine.classDeclaration class_
        emit (.unknownKey declaration.name key)
        return ∅ : Inference TypeSet) found := by
  show unionOver (engine.itemOf (.key key)) [receiver] state = _
  rw [unionOver_singleton]
  unfold Engine.itemOf
  rw [bind_of_ok (value_of_get? held)]
  show engine.typedDictField class_ key state = _
  unfold Engine.typedDictField
  rw [bind_of_ok interned, bind_of_ok reached, firstField_eq declares, pure_bind]
  cases engine.declarations.firstField? order key <;> rfl

theorem exists_readItem_of_missing
    (classDeclared : engine.declarations.class? class_ = some declaration)
    (missing : engine.declarations.firstField? order key = none) :
    ∃ after, engine.readItem (.singleton receiver) (.key key) state = .ok (∅, after) := by
  rw [readItem_eq declares interned reached held key]
  simp only [missing, Engine.classDeclaration, classDeclared]
  exact ⟨_, rfl⟩

theorem readItem_of_declared
    (first : engine.declarations.firstField? order key = some (owner, node))
    (reads : engine.readHint node found = .ok (hint, read)) :
    engine.readItem (.singleton receiver) (.key key) state = engine.instances hint read := by
  rw [readItem_eq declares interned reached held key, first]
  exact bind_of_ok reads

omit declares reached in
theorem classOf_of_typedDict : Engine.classOf receiver state = .ok (some id, between) := by
  unfold Engine.classOf Engine.classOfWithin
  rw [bind_of_ok (value_of_get? held)]
  exact bind_of_ok interned

variable (noMethod : engine.declarations.HasNoMethod order key)

include noMethod

theorem readAttribute_eq :
    engine.readAttribute (.singleton receiver) key state =
      match engine.declarations.firstField? order key with
      | some (owner, node) => engine.fieldValue owner.value node found
      | none => .ok (∅, found) := by
  rw [readAttribute_of_classOf held rfl (classOf_of_typedDict interned held)]
  unfold Engine.memberValue Engine.lookUpMember
  rw [bind_assoc, bind_of_ok reached, firstMember_eq declares noMethod, pure_bind]
  cases engine.declarations.firstField? order key <;> rfl

theorem readAttribute_of_missing (missing : engine.declarations.firstField? order key = none) :
    engine.readAttribute (.singleton receiver) key state = .ok (∅, found) := by
  rw [readAttribute_eq declares interned reached held noMethod, missing]

theorem readAttribute_of_declared
    (first : engine.declarations.firstField? order key = some (owner, node))
    (reads : engine.readHint node found = .ok (hint, read))
    (binds : engine.classBindings owner.value read = .ok (bindings, bound))
    (replaces : engine.substitute hint bindings bound = .ok (seen, last)) :
    engine.readAttribute (.singleton receiver) key state = engine.instances seen last := by
  rw [readAttribute_eq declares interned reached held noMethod, first]
  exact (bind_of_ok reads).trans ((bind_of_ok binds).trans (bind_of_ok replaces))

end Dictionary

/--
The annotation of a field describes a set, and with the type arguments of a class object
another one.
-/
def Environment.SeesField (environment : Environment) (owner : ValueId) (node : NodeId)
    (found : State) (hint : TypeSet) (read : State) (seen : TypeSet) (last : State) : Prop :=
  ∃ bindings bound, ∀ fuel,
    environment.answer (fuel + 1) (.readHint node) found = .ok (hint, read) ∧
    environment.answer (fuel + 1) (.classBindings owner) read = .ok (bindings, bound) ∧
    environment.answer (fuel + 1) (.substitute hint bindings) bound = .ok (seen, last)

/-- The annotation of a field is seen, and as it is where the class object has no arguments. -/
theorem exists_seesField {env : Environment} {found : State}
    (provider : env.provider = tree.fixedProvider) (inScope : tree.InScope env.declarations base)
    (steady : env.Steady tree base found)
    (ownerWithin : env.Scopes found.arena.size owner) (node : NodeId) :
    ∃ hint read seen last, env.SeesField owner node found hint read seen last ∧
      ∀ class_, found.arena.get? owner = some (.classObject class_) →
        seen = hint ∧ last = read := by
  obtain ⟨hint, read, reads, hintWithin⟩ :=
    Environment.exists_takes_readHint provider inScope steady node
  obtain ⟨bindings, bound, binds, bindingsWithin⟩ :=
    Environment.exists_takes_classBindings provider inScope reads.steady
      (ownerWithin.grow (Arena.size_le_of_le reads.continues))
  obtain ⟨seen, last, replaces, _⟩ :=
    Environment.exists_takes_substitute provider inScope binds.steady
      (hintWithin.grow (Arena.size_le_of_le binds.continues)) bindingsWithin
  refine ⟨hint, read, seen, last, ⟨bindings, bound, fun fuel => ⟨?_, ?_, ?_⟩⟩, fun _ bare => ?_⟩
  · exact env.refines_reader (fun _ _ => Pairing.fits_readHint node) fuel _ _ reads.ran
  · exact env.refines_reader (fun _ _ => Pairing.fits_classBindings owner) fuel _ _ binds.ran
  · exact env.refines_reader (fun _ _ => Pairing.fits_substitute hint bindings) fuel _ _
      replaces.ran
  · have unbound : env.reader.classBindings owner read = .ok (∅, read) := by
      unfold Engine.classBindings
      rw [bind_of_ok (value_of_get? (Arena.get?_of_le reads.continues bare))]
      rfl
    cases unbound.symm.trans binds.ran
    cases replaces.ran
    exact ⟨rfl, rfl⟩

/--
The item and the attribute of a key, each read by a fresh request from a dictionary whose
class and its ancestors have no method of that name.  The keys are those that some of these
classes declare, and any other key has no item and no attribute.  Both are the instances of
what the annotation in the first such class describes.  The attribute has the type parameters
of that class bound as the inheritance binds them, and the item has not, so that they have
one outcome where the class is inherited without type arguments.
-/
theorem item_and_attribute_of_dictionary
    {environment : Environment}
    {tree : Tree}
    {arena : Arena}
    {receiver : ValueId}
    {class_ : ClassId}
    (provider : environment.provider = tree.fixedProvider)
    (world : World.WellFormed ⟨arena, environment.declarations⟩)
    (inScope : tree.InScope environment.declarations arena.size)
    (held : arena.get? receiver = some (.typedDict class_)) :
    ∃ order keys found, environment.Searches arena receiver order ∧
      (∀ fuel, environment.answer (fuel + 1) (.typedDictKeys class_) (environment.start arena) =
        .ok (keys, found)) ∧
      ∀ key, environment.declarations.HasNoMethod order key →
        (key ∈ keys ↔ (environment.declarations.firstField? order key).isSome) ∧
        (environment.declarations.firstField? order key = none → ∀ fuel,
          (∃ after, environment.answer (fuel + 1) (.readItem (.singleton receiver) (.key key))
            (environment.start arena) = .ok (∅, after)) ∧
          ∃ after, environment.answer (fuel + 1) (.readAttribute (.singleton receiver) key)
            (environment.start arena) = .ok (∅, after)) ∧
        ∀ owner node, environment.declarations.firstField? order key = some (owner, node) →
          ∃ hint read seen last,
            environment.SeesField owner.value node found hint read seen last ∧ ∀ fuel,
            environment.answer (fuel + 1) (.readItem (.singleton receiver) (.key key))
              (environment.start arena) = environment.answer (fuel + 1) (.instances hint) read ∧
            environment.answer (fuel + 1) (.readAttribute (.singleton receiver) key)
              (environment.start arena) = environment.answer (fuel + 1) (.instances seen) last ∧
            (found.arena.get? owner.value = some (.classObject owner.class_) →
              environment.answer (fuel + 1) (.readItem (.singleton receiver) (.key key))
                  (environment.start arena) =
                environment.answer (fuel + 1) (.readAttribute (.singleton receiver) key)
                  (environment.start arena)) := by
  have receiverWithin : Within environment.declarations arena.size receiver :=
    Arena.lt_size_of_get? held
  obtain ⟨_, between, classifies, classWithin⟩ :=
    Environment.exists_takes_classOf provider (Environment.Steady.start world) receiverWithin
  have interned : intern (.classObject class_) (environment.start arena) =
      .ok ((arena.intern (.classObject class_)).1, between) := by
    cases (classOf_of_typedDict rfl held).symm.trans classifies.ran
    rfl
  cases (classOf_of_typedDict interned held).symm.trans classifies.ran
  obtain ⟨order, found, reaches, orderWithin⟩ :=
    Environment.exists_takes_ancestors provider inScope classifies.steady (classWithin _ rfl)
  obtain ⟨declared, declares⟩ := exists_forall₂_class? orderWithin
  have reached (fuel : Nat) : (environment.engine (fuel + 1)).ancestors _ between =
      .ok (order, found) :=
    environment.refines_reader (fun _ _ => Pairing.fits_ancestors _) fuel _ _ reaches.ran
  have classDeclared : class_.Declared environment.declarations := world.descending _ _ held
  refine ⟨order, _, found, ⟨1, _, _, _, classifies.ran, reached 0⟩,
    fun fuel => typedDictKeys_eq declares interned (reached fuel),
    fun key noMethod => ⟨?_, fun missing fuel => ⟨?_, found, ?_⟩, fun owner node first => ?_⟩⟩
  · rw [mem_firstOccurrences]
    exact @mem_flatMap_keys _ _ (environment.engine 0) _ declares
  · exact exists_readItem_of_missing declares interned (reached fuel) held
      (Array.getElem?_eq_getElem classDeclared) missing
  · exact readAttribute_of_missing declares interned (reached fuel) held noMethod missing
  · have ownerWithin := orderWithin owner (Declarations.mem_of_firstField? first)
    obtain ⟨hint, read, seen, last, sees, bare⟩ :=
      exists_seesField provider inScope reaches.steady ownerWithin.2 node
    refine ⟨hint, read, seen, last, sees, fun fuel => ?_⟩
    obtain ⟨_, _, steps⟩ := sees
    obtain ⟨reads, binds, replaces⟩ := steps fuel
    have item := readItem_of_declared declares interned (reached fuel) held first reads
    have member :=
      readAttribute_of_declared declares interned (reached fuel) held noMethod first reads binds
        replaces
    refine ⟨item, member, fun unbound => ?_⟩
    obtain ⟨rfl, rfl⟩ := bare _ unbound
    exact item.trans member.symm

/-- A generic class with two fields, and a dictionary class that gives it type arguments. -/
def World.records : World :=
  let (variable_, declared) := World.initial.declarations.addTypeVariable "T"
  let (entry, declared) := declared.addClass { name := "Entry", typeParameters := [variable_] }
  let declared := (declared.addField entry "content" ⟨0⟩).addField entry "size" ⟨1⟩
  let (record, declared) := declared.addClass
    { name := "Record", bases := [.singleton ⟨20⟩], isTypedDict := true }
  { arena := World.initial.arena.append
      [.typeVariable variable_, .genericClass entry (.ofSlots [.singleton ⟨4⟩]),
        .typedDict record]
    declarations := declared }

/-- The content of an entry is what the type parameter stands for, and its size an integer. -/
def Tree.records : Tree :=
  { nodes := #[.fixed (.singleton ⟨19⟩), .fixed (.singleton ⟨4⟩)] }

/-- The content of a record is an integer as an attribute, and nothing is known of the item. -/
theorem item_differs_from_attribute_of_records :
    let environment : Environment :=
      { declarations := World.records.declarations, provider := Tree.records.fixedProvider }
    let start := environment.start World.records.arena
    ((environment.answer 1 (.readItem (.singleton ⟨21⟩) (.key "content")) start).toOption.map
        fun result => result.1.members.map result.2.arena.get?) = some [] ∧
      ((environment.answer 1 (.readAttribute (.singleton ⟨21⟩) "content") start).toOption.map
        fun result => result.1.members.map result.2.arena.get?) =
          some [some (.instanceOf Builtin.int .none)] := by
  decide +kernel

/-- The item and the attribute of a record are read from the annotation in its base. -/
theorem item_and_attribute_of_records :
    let environment : Environment :=
      { declarations := World.records.declarations, provider := Tree.records.fixedProvider }
    let start := environment.start World.records.arena
    World.records.WellFormed ∧ Tree.records.InScope environment.declarations 22 ∧
      ∃ owner node found hint read seen last,
        environment.SeesField owner node found hint read seen last ∧ ∀ fuel,
        environment.answer (fuel + 1) (.readItem (.singleton ⟨21⟩) (.key "content")) start =
          environment.answer (fuel + 1) (.instances hint) read ∧
        environment.answer (fuel + 1) (.readAttribute (.singleton ⟨21⟩) "content") start =
          environment.answer (fuel + 1) (.instances seen) last := by
  intro environment start
  have world : World.records.WellFormed := .ofChecks (by decide +kernel) (by decide +kernel)
  have inScope : Tree.records.InScope environment.declarations World.records.arena.size := by
    refine ⟨fun node => ?_, fun _ _ found => by cases found⟩
    match node with
    | ⟨0⟩ => decide +kernel
    | ⟨1⟩ => decide +kernel
    | ⟨_ + 2⟩ => exact within_empty
  have held : World.records.arena.get? ⟨21⟩ = some (.typedDict ⟨16⟩) := by decide +kernel
  have noMethods : ∀ declaration ∈ environment.declarations.classes,
      declaration.methods.get? "content" = none := by decide +kernel
  have known : ((environment.answer 1 (.typedDictKeys ⟨16⟩) start).toOption.map Prod.fst) =
      some ["content", "size"] := by decide +kernel
  refine ⟨world, inScope, ?_⟩
  obtain ⟨order, keys, found, _, listed, accesses⟩ :=
    item_and_attribute_of_dictionary rfl world inScope held
  rw [listed 0] at known
  obtain ⟨isKey, _, declared⟩ := accesses "content" fun _ _ _ isClass =>
    noMethods _ (Array.mem_of_getElem? isClass)
  obtain ⟨⟨owner, node⟩, first⟩ := Option.isSome_iff_exists.mp (isKey.mp (by cases known; simp))
  obtain ⟨hint, read, seen, last, sees, reads⟩ := declared owner node first
  exact ⟨owner.value, node, found, hint, read, seen, last, sees,
    fun fuel => ⟨(reads fuel).1, (reads fuel).2.1⟩⟩

end TypeInference
