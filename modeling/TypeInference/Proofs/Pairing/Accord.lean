import TypeInference.Proofs.Deferred
import TypeInference.Proofs.GuardedPlace
import TypeInference.Proofs.Hint
import TypeInference.Proofs.Pairing.Call

/-!
# Accords

Where two runs make the same cells, a pairing of them has no cells to keep track of.  Such
a pairing is given by what it says of the steps that look at a request or change it.
Deferred values, reports and annotations follow from that, and with them all operations.
-/

namespace TypeInference

open Inference

/-- Which steps of two engines go together when both make the same cells. -/
structure Accord (engine : Engine) where
  otherAsk : {α : Type} → Operation α → Inference α
  otherReports : Bool := engine.settings.reportsDiagnostics
  Sinks : Diagnostics → Diagnostics → Prop
  /-- Steps that go together, with related answers. -/
  Pairs : {α : Type} → (α → α → Prop) → Inference α → Inference α → Prop
  pairs_pure : ∀ {α : Type} {related : α → α → Prop} {answer other : α},
    related answer other → Pairs related (pure answer) (pure other)
  pairs_bind : ∀ {α β : Type} {middle : α → α → Prop} {related : β → β → Prop}
    {first firstOther : Inference α} {next nextOther : α → Inference β},
    Pairs middle first firstOther →
    (∀ answer other, middle answer other → Pairs related (next answer) (nextOther other)) →
    Pairs related (first >>= next) (firstOther >>= nextOther)
  pairs_throw : ∀ {α : Type} {related : α → α → Prop} (fault : Fault),
    Pairs related (throw fault) (throw fault)
  pairs_value : ∀ id, Pairs Eq (Inference.value id) (Inference.value id)
  pairs_intern : ∀ stored, Pairs Eq (Inference.intern stored) (Inference.intern stored)
  pairs_emit : ∀ event, Pairs Eq (Inference.emit event) (Inference.emit event)
  pairs_describe : ∀ id, Pairs Eq (engine.describe id) (engine.describe id)
  pairs_unified : Pairs Eq
    (count fun counters => { counters with unifications := counters.unifications + 1 })
    (count fun counters => { counters with unifications := counters.unifications + 1 })
  pairs_cells : Pairs Eq (look State.cells) (look State.cells)
  /-- Cells that are filled or made. -/
  pairs_changeCells : ∀ change : Array (Option TypeSet) → Array (Option TypeSet),
    (∀ cells, cells.size ≤ (change cells).size) →
    Pairs Eq (modify fun state => { state with cells := change state.cells } : Inference Unit)
      (modify fun state => { state with cells := change state.cells } : Inference Unit)
  pairs_inferNode : ∀ node,
    Pairs Eq (engine.inferNode node) ((engine.variant otherReports otherAsk).inferNode node)
  pairs_execute : ∀ set arguments, Pairs Eq (engine.execute set arguments)
    ((engine.variant otherReports otherAsk).execute set arguments)
  pairs_report : ∀ {sink other : Diagnostics} (diagnostic : Diagnostic), Sinks sink other →
    Pairs Sinks (engine.report sink diagnostic)
      ((engine.variant otherReports otherAsk).report other diagnostic)

/-- Operations that take a sink. -/
def Operation.reports {α : Type} : Operation α → Bool
  | .unpack _ _ _ | .bind _ _ _ => true
  | _ => false

theorem Supplied.eq_of_alike
    (related : List.Forall₂ (Supplied.Alike fun deferred other => deferred = other) stream others) :
    stream = others := by
  refine List.forall₂_eq_eq_eq ▸ related.imp fun supplied other alike => ?_
  obtain ⟨value, rfl, rfl⟩ := alike
  rfl

theorem BoundParameter.eq_of_alike
    (related : List.Forall₂ (BoundParameter.Alike fun deferred other => deferred = other)
      parameters others) :
    parameters = others := by
  refine List.forall₂_eq_eq_eq ▸ related.imp fun parameter other alike => ?_
  obtain ⟨value, rfl, rfl⟩ := alike
  rfl

namespace Accord

variable {engine : Engine} (accord : Accord engine) {α β : Type}

abbrev other : Engine :=
  engine.variant accord.otherReports accord.otherAsk

/-! ## Sequences -/

/-- After steps with the same answer. -/
theorem andThen (firstPairs : accord.Pairs Eq first firstOther)
    (nextPairs : ∀ answer, accord.Pairs related (next answer) (nextOther answer)) :
    accord.Pairs related (first >>= next) (firstOther >>= nextOther) := by
  refine accord.pairs_bind firstPairs fun answer other same => ?_
  cases same
  exact nextPairs answer

theorem imp {step other : Inference α} (pairs : accord.Pairs related step other)
    (implies : ∀ answer otherAnswer, related answer otherAnswer → weaker answer otherAnswer) :
    accord.Pairs weaker step other := by
  rw [← bind_pure step, ← bind_pure other]
  exact accord.pairs_bind pairs fun answer otherAnswer holds =>
    accord.pairs_pure (implies answer otherAnswer holds)

theorem pairs_mapM {step other : α → Inference β} {items : List α}
    (each : ∀ item ∈ items, accord.Pairs Eq (step item) (other item)) :
    accord.Pairs Eq (items.mapM step) (items.mapM other) := by
  induction items with
  | nil => exact accord.pairs_pure rfl
  | cons item rest ih =>
    rw [List.forall_mem_cons] at each
    rw [List.mapM_cons, List.mapM_cons]
    exact accord.andThen each.1 fun _ => accord.andThen (ih each.2) fun _ => accord.pairs_pure rfl

theorem pairs_internSet (stored : Value) : accord.Pairs Eq (internSet stored) (internSet stored) :=
  accord.andThen (accord.pairs_intern stored) fun _ => accord.pairs_pure rfl

theorem pairs_functionDeclaration (function : FunctionId) :
    accord.Pairs Eq (engine.functionDeclaration function)
      (accord.other.functionDeclaration function) := by
  unfold Engine.functionDeclaration
  dsimp only
  split
  · exact accord.pairs_pure rfl
  · exact accord.pairs_throw _

/-! ## Deferred values -/

theorem pairs_freshCell : accord.Pairs Eq freshCell freshCell := by
  have made : freshCell = (do
      let cells ← look State.cells
      modify fun state => { state with cells := state.cells.push none }
      return ⟨cells.size⟩ : Inference CellId) := rfl
  rw [made]
  exact accord.andThen accord.pairs_cells fun _ =>
    accord.andThen (accord.pairs_changeCells (fun cells => cells.push none) (by simp)) fun _ =>
      accord.pairs_pure rfl

theorem pairs_remember {compute other : Inference TypeSet}
    (computes : accord.Pairs Eq compute other) (cell : CellId) :
    accord.Pairs Eq (Engine.remember cell compute) (Engine.remember cell other) := by
  have looks : accord.Pairs Eq (cellAnswer? cell) (cellAnswer? cell) := by
    have looked : cellAnswer? cell = (do
        let cells ← look State.cells
        return (cells[cell.index]?).join) := rfl
    rw [looked]
    exact accord.andThen accord.pairs_cells fun _ => accord.pairs_pure rfl
  refine accord.andThen looks fun answer? => ?_
  cases answer? with
  | some answer => exact accord.pairs_pure rfl
  | none =>
    refine accord.andThen computes fun answer => accord.andThen ?_ fun _ => accord.pairs_pure rfl
    exact accord.pairs_changeCells
      (fun cells => cells.modify cell.index fun present => present.or (some answer)) (by simp)

theorem pairs_resolve (deferred : Deferred) :
    accord.Pairs Eq (engine.resolve deferred) (accord.other.resolve deferred) := by
  induction deferred using Deferred.induction_on_parts with
  | each deferred ih =>
    have parts := accord.pairs_mapM ih
    rw [Engine.resolve_eq, Engine.resolve_eq]
    refine accord.pairs_remember ?_ deferred.cell
    cases deferred.recipe with
    | infer node => exact accord.pairs_inferNode node
    | take set => exact accord.pairs_pure rfl
    | unite => exact accord.andThen parts fun _ => accord.pairs_pure rfl
    | pack packed => exact accord.andThen parts fun _ => accord.pairs_internSet _

/-! ## Problems of calls -/

section Problems

variable {sink other : Diagnostics} (sinks : accord.Sinks sink other)

include sinks

theorem pairs_reportAll (diagnostics : List Diagnostic) :
    accord.Pairs accord.Sinks (engine.reportAll diagnostics sink)
      (accord.other.reportAll diagnostics other) := by
  unfold Engine.reportAll
  induction diagnostics generalizing sink other with
  | nil => exact accord.pairs_pure sinks
  | cons diagnostic rest ih =>
    rw [List.foldlM_cons, List.foldlM_cons]
    exact accord.pairs_bind (accord.pairs_report diagnostic sinks) fun _ _ later => ih later

theorem pairs_reportUnpackable (function : Option FunctionId) (kind : DiagnosticKind)
    (node : NodeId) (message : FunctionDeclaration → String → String) (id : ValueId) :
    accord.Pairs accord.Sinks (engine.reportUnpackable function kind node message id sink)
      (accord.other.reportUnpackable function kind node message id other) := by
  cases function with
  | none => exact accord.pairs_pure sinks
  | some function =>
    refine accord.andThen (accord.pairs_functionDeclaration function) fun declaration => ?_
    exact accord.andThen (accord.pairs_describe id) fun text => accord.pairs_report _ sinks

theorem pairs_bindSupplied (function : FunctionId) (declaration : FunctionDeclaration)
    (callSite : Option NodeId) (stream : List Supplied) :
    accord.Pairs (fun answer otherAnswer => answer.1 = otherAnswer.1 ∧
        accord.Sinks answer.2 otherAnswer.2)
      (engine.bindSupplied function declaration callSite stream sink)
      (accord.other.bindSupplied function declaration callSite stream other) := by
  have bound (reporting : Engine) (sink : Diagnostics) :
      reporting.bindSupplied function declaration callSite stream sink = (do
        let cells ← look State.cells
        let binder := Binder.bindStream function declaration callSite stream cells.size
        Engine.claimCells (binder.nextCell - cells.size)
        let sink ← reporting.reportAll binder.issues sink
        return (binder.result, sink)) := rfl
  rw [bound, bound]
  refine accord.andThen accord.pairs_cells fun cells => accord.andThen ?_ fun _ => ?_
  · exact accord.pairs_changeCells (fun cells => cells ++ Array.replicate _ none) (by simp)
  · exact accord.pairs_bind (accord.pairs_reportAll sinks _) fun _ _ later =>
      accord.pairs_pure ⟨rfl, later⟩

end Problems

/-! ## Annotations -/

section Annotations

variable (names : ∀ name, accord.Pairs Eq
  (engine.runProgram (engine.provider.resolveName name))
  (accord.other.runProgram (engine.provider.resolveName name)))

include names

theorem pairs_evaluateHint (node : NodeId) :
    accord.Pairs Eq (engine.evaluateHint node) (accord.other.evaluateHint node) := by
  have literal (values : TypeSet) :
      accord.Pairs Eq (Engine.literal? values) (Engine.literal? values) := by
    unfold Engine.literal?
    split
    · exact accord.pairs_pure rfl
    · refine accord.andThen (accord.pairs_value _) fun stored => ?_
      cases stored <;> exact accord.pairs_pure rfl
  refine accord.andThen (accord.pairs_inferNode node) fun values => ?_
  refine accord.andThen (literal values) fun literal? => ?_
  cases literal? with
  | none => exact accord.pairs_pure rfl
  | some source =>
    show accord.Pairs Eq (engine.followReference node source)
      (accord.other.followReference node source)
    unfold Engine.followReference
    dsimp only
    split
    · exact accord.pairs_inferNode _
    · refine accord.andThen (names _) fun resolved => ?_
      split
      · exact accord.andThen (accord.pairs_emit _) fun _ => accord.pairs_pure rfl
      · exact accord.pairs_pure rfl

/-- An annotation goes together if it is looked up and noted alike. -/
theorem pairs_readHint (looks : accord.Pairs Eq (look fun state => state.hints.get? node)
      (look fun state => state.hints.get? node))
    (notes : ∀ result, accord.Pairs Eq (Engine.noteHint node result)
      (Engine.noteHint node result)) :
    accord.Pairs Eq (engine.readHint node) (accord.other.readHint node) := by
  rw [Engine.readHint_eq, Engine.readHint_eq]
  refine accord.andThen looks fun known? => ?_
  cases known? with
  | some known => exact accord.pairs_pure rfl
  | none => exact accord.andThen (accord.pairs_evaluateHint names node) notes

end Annotations

/-- So do the type arguments of a subscript. -/
theorem pairs_typeArguments {node : NodeId}
    (hints : ∀ node, accord.Pairs Eq (engine.readHint node) (accord.other.readHint node))
    (looks : accord.Pairs Eq (look fun state => state.subscripts.get? node)
      (look fun state => state.subscripts.get? node))
    (notes : ∀ slots, accord.Pairs Eq (Engine.noteSubscript node slots)
      (Engine.noteSubscript node slots)) :
    accord.Pairs Eq (engine.typeArguments (.lazy node))
      (accord.other.typeArguments (.lazy node)) := by
  rw [Engine.typeArguments_lazy_eq, Engine.typeArguments_lazy_eq]
  refine accord.andThen looks fun known? => ?_
  cases known? with
  | some known => exact accord.pairs_pure rfl
  | none => exact accord.andThen (accord.pairs_mapM fun node _ => hints node) notes

/-- Annotations go together. -/
structure Reads : Prop where
  hints : ∀ node, accord.Pairs Eq (engine.readHint node) (accord.other.readHint node)
  subscripts : ∀ generics,
    accord.Pairs Eq (engine.typeArguments generics) (accord.other.typeArguments generics)

variable {accord}

/-! ## Operations -/

def pairing (accord : Accord engine) (reads : accord.Reads) : Pairing engine where
  otherAsk := accord.otherAsk
  otherReports := accord.otherReports
  World := Unit
  order := PUnit.instLinearOrder.toPartialOrder.toPreorder
  Alike _ deferred other := deferred = other
  alike_monotone := fun _ _ _ _ _ same => same
  Sinks := accord.Sinks
  Pairs _ related step other := accord.Pairs (related ()) step other
  pairs_pure := accord.pairs_pure
  pairs_bind first next :=
    accord.pairs_bind first fun answer other holds => next () answer other le_rfl holds
  pairs_throw _ fault := accord.pairs_throw fault
  pairs_value _ id := accord.pairs_value id
  pairs_intern _ stored := accord.pairs_intern stored
  pairs_emit _ event := accord.pairs_emit event
  pairs_remark _ id _ := accord.andThen (accord.pairs_describe id) fun _ => accord.pairs_emit _
  pairs_unified _ := accord.pairs_unified
  pairs_inferNode _ node := accord.pairs_inferNode node
  pairs_readHint _ node := reads.hints node
  pairs_typeArguments _ generics := reads.subscripts generics
  pairs_execute _ set arguments := accord.pairs_execute set arguments
  pairs_deferNode _ _ := accord.andThen accord.pairs_freshCell fun _ => accord.pairs_pure rfl
  pairs_deferKnown _ _ := accord.andThen accord.pairs_freshCell fun _ => accord.pairs_pure rfl
  pairs_deferMerged related := by
    cases List.forall₂_eq_eq_eq ▸ related
    unfold Engine.deferMerged
    split
    · exact accord.pairs_pure rfl
    · exact accord.andThen accord.pairs_freshCell fun _ => accord.pairs_pure rfl
  pairs_resolvePacked related := by
    cases List.forall₂_eq_eq_eq ▸ related
    exact accord.andThen accord.pairs_freshCell fun _ => accord.pairs_resolve _
  pairs_resolve related := by
    cases related
    exact accord.pairs_resolve _
  pairs_reportUnpackable _ function kind node message id sinks :=
    accord.pairs_reportUnpackable sinks function kind node message id
  pairs_bindSupplied function declaration callSite related sinks := by
    cases Supplied.eq_of_alike related
    refine accord.imp (accord.pairs_bindSupplied sinks function declaration callSite _)
      fun answer otherAnswer holds => ⟨?_, holds.2⟩
    rw [← holds.1]
    exact List.forall₂_same.mpr fun parameter _ => ⟨parameter.value, rfl, rfl⟩

/-- What is told to a call that is being computed is told alike. -/
theorem pairs_recursiveReturn (function : FunctionId) :
    accord.Pairs Eq
      (do
        let declaration ← engine.functionDeclaration function
        emit (.recursiveReturn declaration.name)
        return ∅ : Inference TypeSet)
      (do
        let declaration ← accord.other.functionDeclaration function
        emit (.recursiveReturn declaration.name)
        return ∅ : Inference TypeSet) :=
  accord.andThen (accord.pairs_functionDeclaration function) fun _ =>
    accord.andThen (accord.pairs_emit _) fun _ => accord.pairs_pure rfl

section Operations

variable (reads : accord.Reads)

include reads

theorem pairs_of_fits {step other : Inference α} (fits : (accord.pairing reads).Fits step other) :
    accord.Pairs Eq step other :=
  fits ()

/-- Arguments are unpacked alike, but for the sinks. -/
theorem pairs_unpack (arguments : Arguments) (function : Option FunctionId)
    {sink other : Diagnostics} (sinks : accord.Sinks sink other) :
    accord.Pairs (fun answer otherAnswer => answer.1 = otherAnswer.1 ∧
        accord.Sinks answer.2 otherAnswer.2)
      (engine.unpack arguments function sink) (accord.other.unpack arguments function other) :=
  accord.imp (@Pairing.pairs_unpack engine (accord.pairing reads) () _ _ sinks arguments function)
    fun _ _ related => ⟨Supplied.eq_of_alike related.1, related.2⟩

/-- Calls are bound alike, but for the sinks. -/
theorem pairs_bindCall (function : FunctionId) (arguments : Arguments) {sink other : Diagnostics}
    (sinks : accord.Sinks sink other) :
    accord.Pairs (fun answer otherAnswer => answer.1 = otherAnswer.1 ∧
        accord.Sinks answer.2 otherAnswer.2)
      (engine.bind function arguments sink) (accord.other.bind function arguments other) :=
  accord.imp (@Pairing.pairs_bindCall engine (accord.pairing reads) () _ _ sinks function arguments)
    fun _ _ related => ⟨BoundParameter.eq_of_alike related.1, related.2⟩

variable (discarding : accord.Sinks .discarding .discarding)

include discarding

theorem pairs_bindQuietly (function : FunctionId) (arguments : Arguments) :
    accord.Pairs Eq (engine.bindQuietly function arguments)
      (accord.other.bindQuietly function arguments) :=
  accord.pairs_bind (pairs_bindCall reads function arguments discarding)
    fun _ _ related => accord.pairs_pure related.1

/-- Bodies are inferred alike if the tree infers them alike. -/
theorem pairs_inferBody (depth : accord.Pairs Eq (look fun state => state.budget.depth)
      (look fun state => state.budget.depth))
    (bodies : ∀ execution, accord.Pairs Eq
      (engine.runProgram (engine.provider.inferBody execution))
      (accord.other.runProgram (engine.provider.inferBody execution)))
    (function : FunctionId) (arguments : Arguments) :
    accord.Pairs Eq (engine.inferBody function arguments)
      (accord.other.inferBody function arguments) := by
  refine accord.andThen (accord.pairs_functionDeclaration function) fun declaration => ?_
  refine accord.andThen depth fun depth => accord.andThen (accord.pairs_emit _) fun _ => ?_
  refine accord.andThen (pairs_bindQuietly reads discarding function arguments) fun parameters => ?_
  refine accord.andThen (bodies _) fun result => ?_
  exact accord.andThen (accord.pairs_emit _) fun _ => accord.pairs_pure rfl

/-- What calls return is computed alike if bodies without builtin behavior are executed alike. -/
theorem pairs_declaredReturn
    (body : ∀ declaration, engine.declarations.function? function = some declaration →
      declaration.builtin = none →
      accord.Pairs Eq (engine.bodyType function arguments)
        (accord.other.bodyType function arguments)) :
    accord.Pairs Eq (engine.declaredReturn function arguments)
      (accord.other.declaredReturn function arguments) := by
  unfold Engine.declaredReturn Engine.returnBy Engine.functionDeclaration
  cases declared : engine.declarations.function? function with
  | none => exact accord.pairs_throw _
  | some declaration =>
    simp only [pure_bind]
    cases plain : declaration.builtin with
    | some behavior =>
      exact pairs_of_fits reads (Pairing.fits_executeBuiltin discarding behavior arguments)
    | none =>
      have executes := body declaration declared plain
      cases declaration.returns with
      | none => exact executes
      | some node =>
        refine accord.andThen (pairs_of_fits reads
          (Pairing.fits_annotatedReturn discarding function arguments node)) fun annotated => ?_
        split
        · exact executes
        · exact accord.pairs_pure rfl

variable
  (nodes : ∀ node, accord.Pairs Eq (engine.inferNodeOnce node) (accord.other.inferNodeOnce node))
  (returns : ∀ function arguments, accord.Pairs Eq (engine.returnType function arguments)
    (accord.other.returnType function arguments))

include nodes returns

/-- Operations that take no sink are performed alike. -/
theorem pairs_perform_of_not_reports (operation : Operation α) (quiet : operation.reports = false) :
    accord.Pairs Eq (engine.perform operation) (accord.other.perform operation) := by
  cases operation with
  | elements id =>
    refine accord.imp (@Pairing.pairs_elements engine (accord.pairing reads) () id)
      fun _ _ related => ?_
    cases related with
    | none => rfl
    | some related => exact congrArg some (List.forall₂_eq_eq_eq ▸ related)
  | iterate set =>
    refine accord.imp (@Pairing.pairs_iterate engine (accord.pairing reads) () set)
      fun _ _ related => ?_
    exact List.forall₂_eq_eq_eq ▸ related
  | accepts parameter =>
    exact @Pairing.pairs_accepts engine (accord.pairing reads) () parameter parameter
      ⟨parameter.value, rfl, rfl⟩
  | resolve deferred => exact accord.pairs_resolve deferred
  | unpack | bind => cases quiet
  | _ =>
    exact pairs_of_fits reads (Pairing.fits_perform discarding
      (fun function arguments _ => returns function arguments) (fun node _ => nodes node) _ rfl)

/-- Where sinks are the same, all operations are performed alike. -/
theorem pairs_perform (same : accord.Sinks = Eq) (operation : Operation α) :
    accord.Pairs Eq (engine.perform operation) (accord.other.perform operation) := by
  have agree {sink other : Diagnostics} (sinks : accord.Sinks sink other) : sink = other :=
    same ▸ sinks
  have refl (sink : Diagnostics) : accord.Sinks sink sink := same ▸ rfl
  cases operation with
  | unpack arguments function sink =>
    exact accord.imp (pairs_unpack reads arguments function (refl sink))
      fun _ _ holds => Prod.ext holds.1 (agree holds.2)
  | bind function arguments sink =>
    exact accord.imp (pairs_bindCall reads function arguments (refl sink))
      fun _ _ holds => Prod.ext holds.1 (agree holds.2)
  | _ => exact pairs_perform_of_not_reports reads discarding nodes returns _ rfl

end Operations

end Accord

end TypeInference
