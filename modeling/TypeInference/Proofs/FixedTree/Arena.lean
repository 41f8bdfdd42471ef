import TypeInference.Proofs.FixedTree

/-!
# Steps that the arena determines

In an informed state, the arena says all that there is to know about annotations.  Finding
type variables leaves the arena as it is, and replacing them answers the same, and interns
the same values, wherever the arena is the same.
-/

namespace TypeInference

open Inference

/-! ## Steps that only look at the arena -/

/-- A step leaves the arena as it is, and a state informed. -/
def Tree.Peruses (tree : Tree) {α : Type} (step : Inference α) : Prop :=
  ∀ (state after : State) (answer : α), tree.Informs state → step state = .ok (answer, after) →
    after.arena = state.arena ∧ tree.Informs after

namespace Tree.Peruses

variable {tree : Tree} {α β : Type}

theorem pure (answer : α) : tree.Peruses (pure answer : Inference α) := by
  rintro _ _ _ informs ⟨⟩
  exact ⟨rfl, informs⟩

theorem bind (firstPeruses : tree.Peruses first)
    (nextPeruses : ∀ answer, tree.Peruses (next answer)) :
    tree.Peruses (first >>= next) := by
  intro _ _ _ informs succeeds
  obtain ⟨_, _, started, finished⟩ := bind_eq_ok_iff.mp succeeds
  obtain ⟨same, between⟩ := firstPeruses _ _ _ informs started
  obtain ⟨sameAfter, afterInforms⟩ := nextPeruses _ _ _ _ between finished
  exact ⟨sameAfter.trans same, afterInforms⟩

theorem value (id : ValueId) : tree.Peruses (value id) := by
  intro _ _ _ informs succeeds
  unfold Inference.value at succeeds
  split at succeeds <;> cases succeeds
  exact ⟨rfl, informs⟩

theorem classDeclaration (engine : Engine) (class_ : ClassId) :
    tree.Peruses (engine.classDeclaration class_) := by
  unfold Engine.classDeclaration
  split
  · exact pure _
  · intro _ _ _ _ fails
    cases fails

theorem foldlM (each : ∀ found item, tree.Peruses (step found item)) (items : List α) (found : β) :
    tree.Peruses (items.foldlM step found) := by
  induction items generalizing found with
  | nil => exact pure found
  | cons item rest ih =>
    simp only [List.foldlM_cons]
    exact (each found item).bind ih

end Tree.Peruses

section Perusing

variable {tree : Tree} {engine : Engine}
  (provider : engine.provider = tree.fixedProvider)
  (consults : engine.Consults tree)

include provider consults

/-- Type arguments are read off the arena and the tree. -/
theorem peruses_typeArguments (generics : Generics) :
    tree.Peruses (engine.typeArguments generics) :=
  fun _ _ _ informs succeeds => (informs_typeArguments provider consults informs succeeds).2

theorem peruses_classBindings (id : ValueId) : tree.Peruses (engine.classBindings id) := by
  refine (Tree.Peruses.value id).bind fun stored => ?_
  cases stored with
  | genericClass class_ generics =>
    refine (peruses_typeArguments provider consults generics).bind fun arguments => ?_
    exact (Tree.Peruses.classDeclaration engine class_).bind fun _ => .pure _
  | _ => exact .pure ∅

/-- So are the variables that an annotation mentions. -/
theorem peruses_freeVariables (set : TypeSet) : tree.Peruses (engine.freeVariables set) := by
  have collects (levels : Nat) (found : List TypeVariableId) (set : TypeSet) :
      tree.Peruses (engine.collectWithin levels found set) := by
    induction levels generalizing found set with
    | zero => exact .pure found
    | succ levels ih =>
      refine Tree.Peruses.foldlM (fun found id => ?_) set.members found
      refine (Tree.Peruses.value id).bind fun stored => ?_
      cases stored with
      | genericClass _ generics | special _ generics =>
        refine (peruses_typeArguments provider consults generics).bind fun arguments => ?_
        exact Tree.Peruses.foldlM ih arguments.slots found
      | typeList items => exact Tree.Peruses.foldlM ih items found
      | _ => exact .pure _
  exact collects _ [] set

end Perusing

/-! ## Steps that depend on the arena only -/

/-- What is answered, and what becomes of the arena, depends on the arena before. -/
def Tree.Determines (tree : Tree) {α : Type} (step : Inference α) : Prop :=
  ∀ (state other after otherAfter : State) (answer otherAnswer : α),
    tree.Informs state → tree.Informs other → other.arena = state.arena →
    step state = .ok (answer, after) → step other = .ok (otherAnswer, otherAfter) →
    otherAnswer = answer ∧ otherAfter.arena = after.arena ∧
      tree.Informs after ∧ tree.Informs otherAfter

namespace Tree.Determines

variable {tree : Tree} {α β : Type}

theorem pure (answer : α) : tree.Determines (pure answer : Inference α) := by
  rintro _ _ _ _ _ _ informs otherInforms same ⟨⟩ ⟨⟩
  exact ⟨rfl, same, informs, otherInforms⟩

theorem bind (firstDetermines : tree.Determines first)
    (nextDetermines : ∀ answer, tree.Determines (next answer)) :
    tree.Determines (first >>= next) := by
  intro _ _ _ _ _ _ informs otherInforms same succeeds otherSucceeds
  obtain ⟨middle, _, started, finished⟩ := bind_eq_ok_iff.mp succeeds
  obtain ⟨_, _, otherStarted, otherFinished⟩ := bind_eq_ok_iff.mp otherSucceeds
  obtain ⟨rfl, sameBetween, between, otherBetween⟩ :=
    firstDetermines _ _ _ _ _ _ informs otherInforms same started otherStarted
  exact nextDetermines _ _ _ _ _ _ _ between otherBetween sameBetween finished otherFinished

theorem value (id : ValueId) : tree.Determines (value id) := by
  intro state other _ _ _ _ informs otherInforms same succeeds otherSucceeds
  unfold Inference.value at succeeds otherSucceeds
  rw [same] at otherSucceeds
  split at succeeds <;> cases succeeds
  rename_i found
  rw [found] at otherSucceeds
  cases otherSucceeds
  exact ⟨rfl, same, informs, otherInforms⟩

theorem internSet (stored : Value) : tree.Determines (internSet stored) := by
  rintro state other _ _ _ _ informs otherInforms same ⟨⟩ ⟨⟩
  rw [same]
  have otherInterns := otherInforms.intern stored
  rw [same] at otherInterns
  exact ⟨rfl, rfl, informs.intern stored, otherInterns⟩

theorem mapM (each : ∀ item, tree.Determines (step item)) (items : List α) :
    tree.Determines (items.mapM step) := by
  induction items with
  | nil => exact pure []
  | cons item rest ih =>
    simp only [List.mapM_cons]
    exact (each item).bind fun _ => ih.bind fun _ => pure _

theorem unionOver {setOf : α → Inference TypeSet} (each : ∀ item, tree.Determines (setOf item))
    (items : List α) :
    tree.Determines (unionOver setOf items) := by
  induction items with
  | nil => exact pure ∅
  | cons item rest ih =>
    exact (each item).bind fun _ => ih.bind fun _ => pure _

end Tree.Determines

section Replacing

variable {tree : Tree} {engine : Engine}
  (provider : engine.provider = tree.fixedProvider)
  (consults : engine.Consults tree)

include provider consults

/-- Type arguments do not depend on what is known already. -/
theorem determines_typeArguments (generics : Generics) :
    tree.Determines (engine.typeArguments generics) := by
  intro state other after otherAfter _ _ informs otherInforms same succeeds otherSucceeds
  obtain ⟨known, sameArena, afterInforms⟩ :=
    informs_typeArguments provider consults informs succeeds
  obtain ⟨otherKnown, otherSameArena, otherAfterInforms⟩ :=
    informs_typeArguments provider consults otherInforms otherSucceeds
  rw [same, known] at otherKnown
  cases otherKnown
  exact ⟨rfl, otherSameArena.trans (same.trans sameArena.symm), afterInforms, otherAfterInforms⟩

theorem determines_classBindings (id : ValueId) : tree.Determines (engine.classBindings id) := by
  refine (Tree.Determines.value id).bind fun stored => ?_
  cases stored with
  | genericClass class_ generics =>
    refine (determines_typeArguments provider consults generics).bind fun arguments => ?_
    refine .bind ?_ fun declaration => .pure _
    unfold Engine.classDeclaration
    split
    · exact .pure _
    · intro _ _ _ _ _ _ _ _ _ fails
      cases fails
  | _ => exact .pure ∅

/-- Nor does replacing variables, down to any level. -/
theorem determines_substituteWithin (substitution : Substitution) (levels : Nat) (set : TypeSet) :
    tree.Determines (engine.substituteWithin substitution levels set) := by
  induction levels generalizing set with
  | zero => exact .pure set
  | succ levels ih =>
    have slots (slots : List TypeSet) : tree.Determines
        (Engine.substituteSlots (engine.substituteWithin substitution levels) slots) :=
      (Tree.Determines.mapM ih slots).bind fun _ => .pure _
    have generics (generics : Generics) : tree.Determines
        (engine.substituteGenerics (engine.substituteWithin substitution levels) generics) := by
      refine (determines_typeArguments provider consults generics).bind fun arguments => ?_
      refine (slots arguments.slots).bind fun replaced? => ?_
      cases replaced? <;> exact .pure _
    refine Tree.Determines.unionOver (fun id => .bind ?_ fun _ => .pure _) set.members
    refine (Tree.Determines.value id).bind fun stored => ?_
    cases stored with
    | genericClass _ parameters | special _ parameters =>
      refine (generics parameters).bind fun replaced? => ?_
      cases replaced? with
      | none => exact .pure none
      | some _ => exact (Tree.Determines.internSet _).bind fun _ => .pure _
    | typeList items =>
      refine (slots items).bind fun replaced? => ?_
      cases replaced? with
      | none => exact .pure none
      | some _ => exact (Tree.Determines.internSet _).bind fun _ => .pure _
    | _ => exact .pure _

theorem determines_substitute (set : TypeSet) (substitution : Substitution) :
    tree.Determines (engine.substitute set substitution) := by
  unfold Engine.substitute
  split
  · exact .pure set
  · exact determines_substituteWithin provider consults substitution _ set

end Replacing

end TypeInference
