import TypeInference.Proofs.FixedTree.Step

/-!
# Looking up and binding accessors

A member is found in the first of some class objects whose class declares it.  A method that
takes nothing but its receiver is bound without a trace but for new cells, and without a body
it returns nothing.
-/

namespace TypeInference

open Inference

variable {state after : State} {bound : Nat} {class_ : ValueId} {env : Environment}

/-! ## Members that are looked up -/

def Declarations.member? (declarations : Declarations) (class_ : ClassId) (name : String) :
    Option Member :=
  (declarations.class? class_).bind fun declaration => declaration.member? name

/-- Of some class objects, the first one whose class declares a name, and what it declares. -/
structure Declarations.FindsFirst (declarations : Declarations) (order : List Engine.Ancestor)
    (name : String) (owner : Engine.Ancestor) (member : Member) : Prop where
  first : order.find? (fun ancestor => (declarations.member? ancestor.class_ name).isSome) =
    some owner
  declares : declarations.member? owner.class_ name = some member

section Lookup

variable {order : List Engine.Ancestor} {name : String} {owner : Engine.Ancestor} {member : Member}

/-- The class object of the class that declares a name is the first one of that class. -/
theorem Declarations.FindsFirst.find?_class {declarations : Declarations}
    (finds : declarations.FindsFirst order name owner member) :
    order.find? (fun ancestor => ancestor.class_ == owner.class_) = some owner := by
  obtain ⟨declares, earlier, later, rfl, others⟩ := List.find?_eq_some_iff_append.mp finds.first
  refine List.find?_eq_some_iff_append.mpr ⟨by simp, earlier, later, rfl, fun other isEarlier => ?_⟩
  have declaresNot := others other isEarlier
  simp only [Bool.not_eq_eq_eq_not, Bool.not_true, beq_eq_false_iff_ne]
  intro same
  rw [same, declares] at declaresNot
  cases declaresNot

variable {engine : Engine}

theorem firstMember_of_findsFirst (within : Within engine.declarations bound order)
    (finds : engine.declarations.FindsFirst order name owner member) :
    engine.firstMember name order = pure (some (owner.value, member)) := by
  obtain ⟨first, declares⟩ := finds
  induction order with
  | nil => cases first
  | cons ancestor rest ih =>
    obtain ⟨ancestorWithin, restWithin⟩ := within_cons.mp within
    obtain ⟨declaration, declared⟩ :
        ∃ declaration, engine.declarations.class? ancestor.class_ = some declaration :=
      ⟨_, Array.getElem?_eq_getElem ancestorWithin.1⟩
    have same : engine.declarations.member? ancestor.class_ name = declaration.member? name := by
      simp [Declarations.member?, declared]
    unfold Engine.firstMember Engine.classDeclaration
    simp only [declared, pure_bind]
    cases found : declaration.member? name with
    | none =>
      rw [List.find?_cons_of_neg (by simp [same, found])] at first
      exact ih restWithin first
    | some member =>
      rw [List.find?_cons_of_pos (by simp [same, found])] at first
      cases first
      cases declares.symm.trans (same.trans found)
      rfl

/-- An attribute of a value that is not a class is found in the class objects searched for it. -/
theorem lookUpMember_of_findsFirst (reached : engine.ancestors class_ state = .ok (order, after))
    (within : Within engine.declarations bound order)
    (finds : engine.declarations.FindsFirst order name owner member) :
    engine.lookUpMember class_ name state = .ok (some (owner.value, member), after) := by
  unfold Engine.lookUpMember
  rw [bind_of_ok reached, firstMember_of_findsFirst within finds]
  rfl

/-- An attribute of a value that is not a class is a member of its class. -/
theorem readAttribute_of_classOf (held : state.arena.get? receiver = some stored)
    (notClass : stored.isClass = false)
    (classified : Engine.classOf receiver state = .ok (some class_, between)) :
    engine.readAttribute (.singleton receiver) name state =
      engine.memberValue name receiver false class_ between := by
  show unionOver (engine.attributeOf name) [receiver] state = _
  rw [unionOver_singleton]
  unfold Engine.attributeOf
  rw [bind_of_ok (value_of_get? held)]
  simp only [notClass]
  exact bind_of_ok classified

end Lookup

/-! ## Methods that take their receiver only -/

/-- A method without a body whose one parameter is its receiver, and its return annotation. -/
structure FunctionDeclaration.IsAccessor (declaration : FunctionDeclaration) (owner : ClassId)
    (node : NodeId) : Prop where
  owned : declaration.owner = some owner
  receives : ∃ parameter, declaration.parameters = [parameter] ∧
    parameter.kind = .positional ∧ parameter.hint = none
  returns : declaration.returns = some node
  plain : declaration.builtin = none

/-- A state in which no more is different than the budget, counters, events and empty cells. -/
structure State.Stands (state after : State) : Prop where
  arena : after.arena = state.arena
  hints : after.hints = state.hints
  subscripts : after.subscripts = state.subscripts
  returns : after.returns = state.returns
  nodeGuard : after.nodeGuard = state.nodeGuard
  cells : ∃ count, after.cells = state.cells ++ Array.replicate count none

theorem State.Stands.extends (stands : state.Stands after) : state.Extends after := by
  constructor
  all_goals intros
  all_goals simp_all [stands.arena, stands.hints, stands.subscripts, stands.returns]

theorem State.Stands.steady (stands : state.Stands after) (steady : env.Steady tree base state) :
    env.Steady tree base after := by
  obtain ⟨arena, hints, subscripts, returns, nodeGuard, count, cells⟩ := stands
  obtain ⟨⟨wellFormed, spans⟩, informs⟩ := steady
  refine ⟨⟨?_, ?_⟩, informs.of_same arena hints subscripts nodeGuard⟩
  · have appended := wellFormed.appendCells count
    cases after
    simp only at arena hints subscripts returns cells
    subst arena hints subscripts returns cells
    exact ⟨appended.world, appended.hints, appended.subscripts, appended.returns, appended.cells⟩
  · rw [arena, returns]
    exact spans

section Binding

variable {function : FunctionId} {declaration : FunctionDeclaration}

/-- Binding a receiver makes new cells and nothing else. -/
theorem exists_bindQuietly_receiver (function : FunctionId) (declaration : FunctionDeclaration)
    (receiver : ValueId) (state : State) :
    ∃ parameters count, ∀ engine : Engine,
      engine.declarations.function? function = some declaration →
      engine.bindQuietly function (.bound receiver .empty) state =
        .ok (parameters, { state with cells := state.cells ++ Array.replicate count none }) := by
  let stream := [Engine.Supplied.ofPositional
    (.known ⟨state.cells.size⟩ (.singleton receiver))]
  let binder := Binder.bindStream function declaration none stream (state.cells.size + 1)
  refine ⟨binder.result, binder.nextCell - (state.cells.size + 1) + 1, fun engine declared => ?_⟩
  have supplies : engine.bind function (.bound receiver .empty) .discarding state =
      engine.bindSupplied function declaration none stream .discarding
        { state with cells := state.cells.push none } := by
    rw [engine.bind_eq]
    unfold Engine.functionDeclaration
    rw [declared]
    rfl
  have cells (count : Nat) :
      state.cells.push none ++ Array.replicate count none =
        state.cells ++ Array.replicate (count + 1) none := by
    rw [← Array.toList_inj]
    simp [List.replicate_succ]
  have binds := supplies.trans (engine.bindSupplied_of_discards rfl _ _ _ _ _)
  refine (bind_of_ok binds).trans ?_
  simp only [Array.size_push, cells]
  rfl

theorem mergeOver_parameterBindings_of_isAccessor (accessor : declaration.IsAccessor owner node)
    (engine : Engine) (parameters : List BoundParameter) :
    mergeOver (engine.parameterBindings declaration) parameters = pure ∅ := by
  obtain ⟨parameter, only, _, unannotated⟩ := accessor.receives
  induction parameters with
  | nil => rfl
  | cons bound rest ih =>
    have nothing : engine.parameterBindings declaration bound = pure ∅ := by
      have hint? : (declaration.parameters[bound.index]?).bind Parameter.hint = none := by
        rw [only]
        cases found : [parameter][bound.index]? with
        | none => rfl
        | some _ =>
          cases List.mem_singleton.mp (List.mem_of_getElem? found)
          exact unannotated
      unfold Engine.parameterBindings
      rw [hint?]
    unfold mergeOver
    rw [nothing, ih]
    rfl

/-- A function without a body returns nothing, and what is remembered stays as it is. -/
theorem exists_bodyType_of_bodiless
    (declared : env.declarations.function? function = some declaration)
    (bodiless : ∀ arguments parameters,
      env.provider.inferBody ⟨function, arguments, parameters⟩ = .done ∅)
    (receiver : ValueId) (state : State) :
    ∃ after, state.Stands after ∧ ∀ fuel,
      (env.stage fuel).bodyType function (.bound receiver .empty) state = .ok (∅, after) := by
  have isBudgeted (fuel : Nat) :
      (env.stage fuel).bodyType function (.bound receiver .empty) =
        budgeted env.settings function declaration.builtin.isSome
          ((env.stage fuel).inferBody function (.bound receiver .empty)) := by
    rw [Engine.bodyType_eq_budgeted]
    unfold Engine.functionDeclaration
    simp only [env.stage_toEnvironment, declared, pure_bind]
  cases refusal : (state.budget.enter function declaration.builtin.isSome).2 with
  | some reason =>
    let refused := state.refuseBody env.settings function declaration.builtin.isSome reason
    have same : refused.cells = state.cells ++ Array.replicate 0 none := Array.append_empty.symm
    refine ⟨refused, ⟨rfl, rfl, rfl, rfl, rfl, 0, same⟩, fun fuel => ?_⟩
    rw [isBudgeted, budgeted_of_refusal refusal]
  | none =>
    let entered := state.enterBody function declaration.builtin.isSome
    let event := Event.bodyEntered declaration.name entered.budget.depth
    let noted : State := { entered with events := entered.events.push event }
    obtain ⟨parameters, count, binds⟩ :=
      exists_bindQuietly_receiver function declaration receiver noted
    let left : State :=
      { noted with
        cells := noted.cells ++ Array.replicate count none
        events := noted.events.push (.bodyLeft declaration.name entered.budget.depth) }
    refine ⟨left.leaveBody function, ⟨rfl, rfl, rfl, rfl, rfl, count, rfl⟩, fun fuel => ?_⟩
    have enters : (env.stage fuel).inferBody function (.bound receiver .empty) entered =
        .ok (∅, left) := by
      unfold Engine.inferBody Engine.functionDeclaration Engine.runProgram
      simp only [env.stage_toEnvironment, declared, pure_bind, bodiless]
      refine bind_eq_ok_iff.mpr ⟨entered.budget.depth, entered, rfl, ?_⟩
      refine bind_eq_ok_iff.mpr ⟨(), noted, rfl, ?_⟩
      exact bind_eq_ok_iff.mpr ⟨parameters, _, binds (env.stage fuel) declared, rfl⟩
    rw [isBudgeted, budgeted_of_no_refusal refusal]
    exact congrArg (Except.map _) enters

end Binding

end TypeInference
