import TypeInference.Proofs.Accessor.Hint

/-!
# Accessors and fields

A method that has no body and takes nothing but its receiver returns what its annotation
describes.  If a field of the same class has the same annotation, then calling the method
and reading the field give the same values.
-/

namespace TypeInference

open Inference

variable {env : Environment} {tree : Tree} {receiver class_ : ValueId}
  {order : List Engine.Ancestor} {function : FunctionId} {node : NodeId} {base : Nat}
  {owner : Engine.Ancestor} {state found : State} {stored : Value} {name : String}

/-! ## The call -/

theorem State.Stands.refl (state : State) : state.Stands state :=
  ⟨rfl, rfl, rfl, rfl, rfl, 0, Array.append_empty.symm⟩

/-- What a call of an accessor returns. -/
theorem declaredReturn_of_isAccessor {engine : Engine} {owner : ClassId}
    (declared : engine.declarations.function? function = some declaration)
    (accessor : declaration.IsAccessor owner node) (arguments : Arguments) :
    engine.declaredReturn function arguments = (do
      let annotated ← engine.annotatedReturn function arguments node
      if annotated.isEmpty then engine.bodyType function arguments else return annotated) := by
  unfold Engine.declaredReturn Engine.returnBy Engine.functionDeclaration
  simp only [declared, pure_bind, accessor.plain, accessor.returns]

section Calling

variable {env : Environment} {tree : Tree} {base : Nat} {receiver : ValueId}
  {function : FunctionId} {declaration : FunctionDeclaration} {owner : ClassId} {node : NodeId}
  {state hinted after : State} {hint set : TypeSet}
  (provider : env.provider = tree.fixedProvider)
  (declared : env.declarations.function? function = some declaration)
  (accessor : declaration.IsAccessor owner node)
  (bodiless : tree.bodies.get? function = none)
  (hints : env.Takes tree base
    (fun engine => engine.returnHint function (.bound receiver .empty) node) state hint hinted)
  (instantiates : env.Takes tree base (fun engine => engine.instances hint) hinted set after)

include provider declared accessor bodiless hints instantiates

/-- Whatever calls are known, an accessor returns the instances that its annotation describes. -/
theorem exists_declaredReturn_of_isAccessor (returns : Table Invocation Progress) (computed : Nat)
    (journal : List Mark) :
    ∃ known, (after.recalling returns computed journal).Stands known ∧ ∀ fuel,
      (env.stage (fuel + 1)).declaredReturn function (.bound receiver .empty)
        (state.recalling returns computed journal) = .ok (set, known) := by
  have nothing (arguments : Arguments) (parameters : List BoundParameter) :
      env.provider.inferBody ⟨function, arguments, parameters⟩ = .done ∅ := by
    rw [provider]
    show tree.bodyProgram _ = _
    unfold Tree.bodyProgram
    rw [bodiless]
  have annotated (fuel : Nat) :
      (env.stage (fuel + 1)).annotatedReturn function (.bound receiver .empty) node
        (state.recalling returns computed journal) =
          .ok (set, after.recalling returns computed journal) := by
    rw [Engine.annotatedReturn_eq]
    exact bind_eq_ok_iff.mpr ⟨hint, _,
      env.ignores_of_parametric provider
        (parametric_returnHint function (.bound receiver .empty) node) fuel _ _ _ _ _ _
        hints.ran,
      env.ignores_of_parametric provider (fun _ _ => Pairing.fits_instances hint)
        fuel _ _ _ _ _ _ instantiates.ran⟩
  by_cases isEmpty : set.isEmpty = true
  · obtain ⟨known, stands, runs⟩ := exists_bodyType_of_bodiless declared nothing receiver
      (after.recalling returns computed journal)
    have same : set = ∅ := TypeSet.ext_mem fun id => by
      rw [← TypeSet.mem_members, List.isEmpty_iff.mp isEmpty]
      simp
    refine ⟨known, stands, fun fuel => ?_⟩
    rw [declaredReturn_of_isAccessor declared accessor, bind_of_ok (annotated fuel), if_pos isEmpty,
      same]
    exact runs (fuel + 1)
  · refine ⟨_, .refl _, fun fuel => ?_⟩
    rw [declaredReturn_of_isAccessor declared accessor, bind_of_ok (annotated fuel), if_neg isEmpty]
    rfl

/-- Calling an accessor that is bound to its receiver. -/
theorem exists_executeSet_of_isAccessor
    (calleeStored : state.arena.get? callee = some (.function function))
    (methodStored : state.arena.get? method = some (.boundMethod callee receiver)) :
    ∃ known returns journal, after.Stands known ∧ ∀ fuel,
      (env.stage (fuel + 2)).executeSet (.singleton method) .empty
          (state.recalling ∅ 0 []) = .ok (set, known.recalling returns 0 journal) := by
  let invocation : Invocation := ⟨function, .bound receiver .empty⟩
  obtain ⟨computed, stands, computes⟩ :=
    exists_declaredReturn_of_isAccessor provider declared accessor bodiless hints instantiates
      ((∅ : Table Invocation Progress).insert invocation .running) 1
      [.returnComputed invocation, .callNoted invocation .running]
  let finished := computed.finishCall invocation set
  refine ⟨{ finished with returns := after.returns }, finished.returns, finished.journal,
    ⟨stands.arena, stands.hints, stands.subscripts, rfl, stands.nodeGuard, stands.cells⟩,
    fun fuel => ?_⟩
  have calls : (env.stage (fuel + 1)).returnType function (.bound receiver .empty)
      (state.recalling ∅ 0 []) = .ok (set, finished) := by
    rw [Engine.returnType_eq_remembered, remembered_eq]
    exact congrArg (Except.map _) (computes fuel)
  have executes : (env.stage (fuel + 1)).executeSet (.singleton callee)
      (.bound receiver .empty) (state.recalling ∅ 0 []) = .ok (set, finished) := by
    have found : (state.recalling ∅ 0 []).arena.get? callee = some (.function function) :=
      calleeStored
    show unionOver _ [callee] _ = _
    rw [unionOver_singleton]
    exact (bind_of_ok (value_of_get? found)).trans calls
  have found : (state.recalling ∅ 0 []).arena.get? method = some (.boundMethod callee receiver) :=
    methodStored
  show unionOver _ [method] _ = _
  rw [unionOver_singleton]
  refine (bind_of_ok (value_of_get? found)).trans ?_
  show (env.stage (fuel + 1 + 1)).ask _ _ = _
  exact executes

end Calling

/-! ## The method and the field -/

/-- The class objects in which the attributes of a value are looked up, in that order. -/
def Environment.Searches (environment : Environment) (arena : Arena) (receiver : ValueId)
    (order : List Engine.Ancestor) : Prop :=
  ∃ fuel class_ between after,
    Engine.classOf receiver (environment.start arena) = .ok (some class_, between) ∧
      (environment.engine fuel).ancestors class_ between = .ok (order, after)

namespace Program

/-- Look up a method, then see an annotation with the type arguments of a class object. -/
def lookUpThenSee (receiver : ValueId) (method : String) (owner : ValueId) (node : NodeId) :
    Program TypeSet := do
  let _ ← perform (.readAttribute (.singleton receiver) method)
  let hint ← perform (.readHint node)
  let bindings ← perform (.classBindings owner)
  perform (.substitute hint bindings)

/-- Call a method without arguments, then read a field. -/
def callThenRead (receiver : ValueId) (method field : String) : Program (TypeSet × TypeSet) := do
  let callee ← perform (.readAttribute (.singleton receiver) method)
  let returned ← perform (.execute callee .empty)
  let held ← perform (.readAttribute (.singleton receiver) field)
  return (returned, held)

end Program

theorem Environment.run_lookUpThenSee (env : Environment) (fuel : Nat) (receiver : ValueId)
    (method : String) (owner : ValueId) (node : NodeId) :
    env.run fuel (.lookUpThenSee receiver method owner node) =
      ((env.engine fuel).readAttribute (.singleton receiver) method >>= fun _ =>
        (env.engine fuel).fieldHint owner node) :=
  bind_congr fun _ => bind_congr fun _ => bind_congr fun _ => bind_pure _

theorem Environment.run_callThenRead (env : Environment) (fuel : Nat) (receiver : ValueId)
    (method field : String) :
    env.run fuel (.callThenRead receiver method field) = (do
      let callee ← (env.stage fuel).readAttribute (.singleton receiver) method
      let returned ← (env.stage fuel).executeSet callee .empty
      let held ← (env.stage fuel).readAttribute (.singleton receiver) field
      return (returned, held)) := by
  rw [env.stage_eq_engine]
  rfl

/-- What a value finds first, it finds in the class objects that are searched. -/
theorem Environment.Searches.exists_searched (provider : env.provider = tree.fixedProvider)
    (world : World.WellFormed ⟨arena, env.declarations⟩)
    (inScope : tree.InScope env.declarations arena.size)
    (receiverWithin : env.Scopes arena.size receiver)
    (searches : env.Searches arena receiver order) :
    ∃ class_ found, env.Searched tree arena.size receiver class_ order (env.start arena) found := by
  obtain ⟨fuel, class_, between, after, classified, reached⟩ := searches
  obtain ⟨_, _, classifies, classWithin⟩ :=
    exists_takes_classOf provider (Steady.start world) receiverWithin
  cases classified.symm.trans classifies.ran
  have classWithin := classWithin class_ rfl
  obtain ⟨_, found, reaches, orderWithin⟩ :=
    exists_takes_ancestors provider inScope classifies.steady classWithin
  have parametric : Parametric fun engine => engine.ancestors class_ :=
    fun _ _ => Pairing.fits_ancestors class_
  obtain ⟨rfl, _⟩ := eq_of_engine provider parametric reaches.ran reached
  exact ⟨class_, found, receiverWithin, ⟨_, classifies, classWithin, reaches⟩, orderWithin⟩

/-- A method that is found is bound to the value on which it was looked up. -/
theorem Environment.Searched.exists_method (provider : env.provider = tree.fixedProvider)
    (searched : env.Searched tree base receiver class_ order state found)
    (held : state.arena.get? receiver = some stored) (notClass : stored.isClass = false)
    (declared : function.Declared env.declarations)
    (finds : env.declarations.FindsFirst order name owner (.method (.single function))) :
    ∃ callee method after,
      env.reader.readAttribute (.singleton receiver) name state = .ok (.singleton method, after) ∧
      after.arena.get? callee = some (.function function) ∧
      after.arena.get? method = some (.boundMethod callee receiver) ∧
      env.Steady tree base after ∧ found.Extends after ∧ found.arena ≤ after.arena := by
  obtain ⟨receiverWithin, ⟨between, classifies, _, reaches⟩, orderWithin⟩ := searched
  let interned : State := { found with arena := (found.arena.intern (.function function)).2 }
  let callee := (found.arena.intern (.function function)).1
  let after : State :=
    { interned with arena := (interned.arena.intern (.boundMethod callee receiver)).2 }
  let method := (interned.arena.intern (.boundMethod callee receiver)).1
  have binds : Engine.methodValue (.single function) false receiver found =
      .ok (.singleton method, after) := rfl
  have parametric : Parametric fun _ => Engine.methodValue (.single function) false receiver :=
    fun _ _ => Pairing.fits_methodValue (.single function) false receiver
  have calleeStored : interned.arena.get? callee = some (.function function) :=
    Arena.get?_intern _ _
  have receiverStill : env.Scopes interned.arena.size receiver :=
    receiverWithin.grow (Arena.size_le_of_le (Arena.le_trans
      (Arena.le_trans classifies.continues reaches.continues) (Arena.le_intern _ _)))
  have functionWithin : env.Scopes found.arena.size (Value.function function) := declared
  have methodWithin : env.Scopes interned.arena.size
      (Value.boundMethod callee receiver) := ⟨Arena.lt_size_of_get? calleeStored, receiverStill⟩
  have wellFormed : after.WellFormed env.declarations :=
    (reaches.steady.admitted.wellFormed.intern functionWithin).intern methodWithin
  have continues : found.arena ≤ after.arena :=
    Arena.le_trans (Arena.le_intern _ _) (Arena.le_intern _ _)
  refine ⟨callee, method, after, ?_, Arena.get?_of_le (Arena.le_intern _ _) calleeStored,
    Arena.get?_intern _ _, ⟨⟨wellFormed, ?_⟩, (reaches.steady.informs.intern _).intern _⟩,
    ((repeats_reader provider parametric).learns binds).extends_ reaches.steady.informs.idle,
    continues⟩
  · refine (readAttribute_of_classOf held notClass classifies.ran).trans ?_
    exact bind_of_ok (lookUpMember_of_findsFirst reaches.ran orderWithin finds)
  · exact Nat.le_trans reaches.steady.admitted.invariant (Arena.size_le_of_le continues)

/-- A field is read as the instances of what its annotation is seen as. -/
theorem Environment.Searched.exists_field {start hinted after known : State} {hint set : TypeSet}
    (provider : env.provider = tree.fixedProvider) (inScope : tree.InScope env.declarations base)
    (searched : env.Searched tree base receiver class_ order start found)
    (held : known.arena.get? receiver = some stored) (notClass : stored.isClass = false)
    (finds : env.declarations.FindsFirst order name owner (.field node))
    (sees : env.Sees tree base owner.value node state hint hinted)
    (instantiates : env.Takes tree base (fun engine => engine.instances hint) hinted set after)
    (knownSteady : env.Steady tree base known) (found_hinted : found.Extends hinted)
    (continues : found.arena ≤ hinted.arena) (remembers : after.Extends known)
    (further : after.arena ≤ known.arena) :
    ∃ knownAfter, env.reader.readAttribute (.singleton receiver) name known =
      .ok (set, knownAfter) := by
  have hintedRemembered := instantiates.extends_.trans remembers
  have hintedFurther := Arena.le_trans instantiates.continues further
  obtain ⟨searchedAgain, again, againSteady, quiet⟩ :=
    searched.again provider inScope knownSteady (found_hinted.trans hintedRemembered)
      (Arena.le_trans continues hintedFurther)
  obtain ⟨_, ⟨_, classifies, _, reaches⟩, orderWithin⟩ := again
  have againFurther : hinted.arena ≤ searchedAgain.arena := by
    rw [quiet.arena]
    exact hintedFurther
  obtain ⟨seen, seesAgain, seenExtends, seenIdle⟩ :=
    sees.later (hintedRemembered.trans quiet.extends) againSteady againFurther
  obtain ⟨knownAfter, instantiatesAgain, _⟩ :=
    instantiates.again (remembers.trans (quiet.extends.trans seenExtends)) seenIdle
  refine ⟨knownAfter, (readAttribute_of_classOf held notClass classifies.ran).trans ?_⟩
  refine (bind_of_ok (lookUpMember_of_findsFirst reaches.ran orderWithin finds)).trans ?_
  show env.reader.fieldValue owner.value node searchedAgain = _
  rw [Engine.fieldValue_eq]
  exact (bind_of_ok seesAgain).trans instantiatesAgain

/--
An accessor and a field agree: if a value that is not a class finds, in one and the same
class object, a method without a body that takes its receiver only and a field with the
same annotation, and if no function is met when that annotation is executed, then calling
the method and then reading the field give the same set.
-/
theorem accessor_agrees_with_field
    {environment : Environment}
    {tree : Tree}
    {arena : Arena}
    {receiver : ValueId}
    {stored : Value}
    {order : List Engine.Ancestor}
    {owner : Engine.Ancestor}
    {method field : String}
    {function : FunctionId}
    {declaration : FunctionDeclaration}
    {node : NodeId}
    (provider : environment.provider = tree.fixedProvider)
    (world : World.WellFormed ⟨arena, environment.declarations⟩)
    (inScope : tree.InScope environment.declarations arena.size)
    (held : arena.get? receiver = some stored)
    (notClass : stored.isClass = false)
    (searches : environment.Searches arena receiver order)
    (findsMethod : environment.declarations.FindsFirst order method owner
      (.method (.single function)))
    (findsField : environment.declarations.FindsFirst order field owner (.field node))
    (declared : environment.declarations.function? function = some declaration)
    (accessor : declaration.IsAccessor owner.class_ node)
    (bodiless : tree.bodies.get? function = none)
    (meets : ∃ fuel set after,
      environment.run fuel (.lookUpThenSee receiver method owner.value node)
          (environment.start arena) = .ok (set, after) ∧
        tree.MeetsNoFunction environment.declarations after.arena
          (environment.settings.unificationDepthLimit + 1) set) :
    ∃ set after, ∀ fuel, 2 ≤ fuel →
      environment.run fuel (.callThenRead receiver method field) (environment.start arena) =
        .ok ((set, set), after) := by
  have receiverWithin : Within environment.declarations arena.size receiver :=
    Arena.lt_size_of_get? held
  obtain ⟨class_, found, searched⟩ :=
    searches.exists_searched provider world inScope receiverWithin
  have functionDeclared : function.Declared environment.declarations :=
    (Array.getElem?_eq_some_iff.mp declared).1
  obtain ⟨callee, bound, looked, binds, calleeStored, boundStored, lookedSteady, lookedExtends,
      lookedContinues⟩ :=
    searched.exists_method provider held notClass functionDeclared findsMethod
  obtain ⟨hint, hinted, hints, sees⟩ :=
    searched.exists_returnHint provider inScope findsMethod.find?_class declared accessor
      lookedSteady lookedExtends lookedContinues
  have hintMeets : tree.MeetsNoFunction environment.declarations hinted.arena
      (environment.settings.unificationDepthLimit + 1) hint := by
    obtain ⟨fuel, _, _, ran, meetsNone⟩ := meets
    rw [environment.run_lookUpThenSee] at ran
    obtain ⟨seen, sights, seenArena⟩ := sees.before
    have parametric : Parametric fun engine =>
        engine.readAttribute (.singleton receiver) method >>= fun _ =>
          engine.fieldHint owner.value node :=
      fun _ discarding => (Pairing.fits_readAttribute (.singleton receiver) method).bind fun _ =>
        parametric_fieldHint owner.value node _ discarding
    obtain ⟨rfl, same⟩ := Environment.eq_of_engine provider parametric
      (bind_eq_ok_iff.mpr ⟨_, looked, binds, sights⟩) ran
    rw [← seenArena, ← same]
    exact meetsNone
  obtain ⟨set, after, instantiates⟩ :=
    Environment.exists_takes_instances provider inScope hints.steady sees.within hintMeets
  obtain ⟨known, returns, journal, stands, executes⟩ :=
    exists_executeSet_of_isAccessor provider declared accessor bodiless hints instantiates
      calleeStored boundStored
  have hintedContinues := Arena.le_trans lookedContinues hints.continues
  have knownContinues : after.arena ≤ known.arena := stands.arena ▸ Arena.le_refl _
  have stillHeld : known.arena.get? receiver = some stored :=
    Arena.get?_of_le (Arena.le_trans searched.continues (Arena.le_trans hintedContinues
      (Arena.le_trans instantiates.continues knownContinues))) held
  obtain ⟨final, reads⟩ :=
    searched.exists_field provider inScope stillHeld notClass findsField sees instantiates
      (stands.steady instantiates.steady) (lookedExtends.trans hints.extends_) hintedContinues
      stands.extends knownContinues
  refine ⟨set, final.recalling returns 0 journal, fun fuel enough => ?_⟩
  obtain ⟨less, rfl⟩ : ∃ less, fuel = less + 2 := ⟨fuel - 2, by omega⟩
  rw [environment.run_callThenRead]
  have looks := environment.ignores_of_parametric provider
    (fun _ _ => Pairing.fits_readAttribute (.singleton receiver) method) (less + 1) ∅ 0 []
    _ _ _ binds
  have holds := environment.ignores_of_parametric provider
    (fun _ _ => Pairing.fits_readAttribute (.singleton receiver) field) (less + 1) returns 0
    journal _ _ _ reads
  exact (bind_of_ok looks).trans ((bind_of_ok (executes less)).trans (bind_of_ok holds))

/-- A generic class with an accessor for its content, and a class of boxes of integers. -/
def World.boxes : World :=
  let (variable_, declared) := World.initial.declarations.addTypeVariable "T"
  let (box, declared) := declared.addClass { name := "Box", typeParameters := [variable_] }
  let (_, declared) := declared.addMethod box
    { name := "get", parameters := [{ name := "self" }], returns := some ⟨0⟩ }
  let declared := declared.addField box "content" ⟨0⟩
  let (integers, declared) :=
    declared.addClass { name := "IntegerBox", bases := [.singleton ⟨21⟩] }
  { arena := World.initial.arena.append
      [.typeVariable variable_, .special .optional (.lazy ⟨1⟩),
        .genericClass box (.ofSlots [.singleton ⟨4⟩]), .instanceOf integers .none]
    declarations := declared }

/-- The content of a box is optional, and written as a subscript. -/
def Tree.boxes : Tree :=
  { nodes := #[.fixed (.singleton ⟨20⟩), .fixed (.singleton ⟨19⟩)] }

/-- A box of integers gives its content out as it holds it. -/
theorem accessor_agrees_with_field_of_boxes :
    let environment : Environment :=
      { declarations := World.boxes.declarations, provider := Tree.boxes.fixedProvider }
    let order : List Engine.Ancestor := [⟨⟨16⟩, ⟨23⟩⟩, ⟨⟨15⟩, ⟨21⟩⟩]
    environment.Searches World.boxes.arena ⟨22⟩ order ∧
      environment.declarations.FindsFirst order "content" ⟨⟨15⟩, ⟨21⟩⟩ (.field ⟨0⟩) ∧
      ∃ set after, ∀ fuel, 2 ≤ fuel →
        environment.run fuel (.callThenRead ⟨22⟩ "get" "content")
          (environment.start World.boxes.arena) = .ok ((set, set), after) := by
  intro environment order
  have world : World.boxes.WellFormed := .ofChecks (by decide +kernel) (by decide +kernel)
  have inScope : Tree.boxes.InScope environment.declarations World.boxes.arena.size := by
    refine ⟨fun node => ?_, fun _ _ found => by cases found⟩
    match node with
    | ⟨0⟩ => decide +kernel
    | ⟨1⟩ => decide +kernel
    | ⟨_ + 2⟩ => exact within_empty
  have held : World.boxes.arena.get? ⟨22⟩ = some (.instanceOf ⟨16⟩ .none) := by decide +kernel
  have searches : environment.Searches World.boxes.arena ⟨22⟩ order := ⟨1, _, _, _, rfl, rfl⟩
  have findsMethod : environment.declarations.FindsFirst order "get" ⟨⟨15⟩, ⟨21⟩⟩
      (.method (.single ⟨2⟩)) := ⟨by decide +kernel, by decide +kernel⟩
  have findsField : environment.declarations.FindsFirst order "content" ⟨⟨15⟩, ⟨21⟩⟩
      (.field ⟨0⟩) := ⟨by decide +kernel, by decide +kernel⟩
  have declared : environment.declarations.function? ⟨2⟩ =
      some { name := "get", parameters := [{ name := "self" }], returns := some ⟨0⟩,
             owner := some ⟨15⟩ } := by decide +kernel
  let seen : Arena := World.boxes.arena.append
    [.classObject ⟨16⟩, .function ⟨2⟩, .boundMethod ⟨24⟩ ⟨22⟩,
      .special .optional (.ofSlots [.singleton ⟨4⟩])]
  have sees : ((environment.run 1 (.lookUpThenSee ⟨22⟩ "get" ⟨21⟩ ⟨0⟩)
      (environment.start World.boxes.arena)).toOption.map fun result =>
        (result.1, result.2.arena)) = some (.singleton ⟨26⟩, seen) := by decide +kernel
  obtain ⟨⟨set, after⟩, completed, same⟩ := Option.map_eq_some_iff.mp sees
  obtain ⟨rfl, sameArena⟩ : set = .singleton ⟨26⟩ ∧ after.arena = seen := Prod.mk.inj same
  have optional : seen.get? ⟨26⟩ = some (.special .optional (.ofSlots [.singleton ⟨4⟩])) := by
    decide +kernel
  have integer : seen.get? ⟨4⟩ = some (.classObject Builtin.int) := by decide +kernel
  refine ⟨searches, findsField, ?_⟩
  refine accessor_agrees_with_field rfl world inScope held rfl searches findsMethod findsField
    declared ⟨rfl, ⟨_, rfl, rfl, rfl⟩, rfl, rfl⟩ rfl
    ⟨1, _, _, Except.eq_ok_of_toOption completed, ?_⟩
  rw [sameArena]
  refine .of_members fun id member stored found => ?_
  cases TypeSet.mem_singleton.mp member
  cases optional.symm.trans found
  refine ⟨rfl, fun sets nested part partMember => ?_⟩
  cases nested
  cases List.mem_singleton.mp partMember
  refine .of_members fun id member stored found => ?_
  cases TypeSet.mem_singleton.mp member
  cases integer.symm.trans found
  refine ⟨rfl, fun sets nested part partMember => ?_⟩
  cases nested
  cases partMember

end TypeInference
