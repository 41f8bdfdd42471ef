import Mathlib.Data.List.Forall2
import Mathlib.Order.Monotone.Defs
import TypeInference.Engine.Run

/-!
# Paired steps

What two runs of the same operation have in common is shown by walking through both
of them side by side.  A pairing says which steps of two engines go together, and what
their answers have in common; it respects the ways in which steps are put together, and
pairs the few steps on which all others rest.  Deferred values name cells, which differ
from run to run, so that answers are compared in a world that knows the cells of both
runs and grows with them.

The rules of this module and of those below it carry a pairing from the basic steps to
every operation.  A property of single runs is a pairing that looks at one side only.
-/

namespace TypeInference

open Inference

/-- Answers that are equal in every world. -/
def Same {World α : Type} : World → α → α → Prop :=
  fun _ answer other => answer = other

/-- Values of one keyword that stand for the same. -/
def Supplied.Alike (alike : Deferred → Deferred → Prop) (supplied other : Supplied) : Prop :=
  ∃ value, alike supplied.value value ∧ other = { supplied with value := value }

/-- One parameter bound to values that stand for the same. -/
def BoundParameter.Alike (alike : Deferred → Deferred → Prop)
    (parameter other : BoundParameter) : Prop :=
  ∃ value, alike parameter.value value ∧ other = { parameter with value := value }

/-- Related answers beside related sinks. -/
def Beside {World α : Type} (related : World → α → α → Prop)
    (sinks : Diagnostics → Diagnostics → Prop) (world : World)
    (answer other : α × Diagnostics) : Prop :=
  related world answer.1 other.1 ∧ sinks answer.2 other.2

/-- Bind a stream of values to the parameters of a declared function. -/
def Engine.bindSupplied (engine : Engine) (function : FunctionId)
    (declaration : FunctionDeclaration) (callSite : Option NodeId) (stream : List Supplied)
    (sink : Diagnostics) :
    Inference (List BoundParameter × Diagnostics) := do
  let firstCell := (← get).cells.size
  let binder := Binder.bindStream function declaration callSite stream firstCell
  claimCells (binder.nextCell - firstCell)
  let sink ← engine.reportAll binder.issues sink
  return (binder.result, sink)

/-- Binding a call binds the stream that its arguments supply. -/
theorem Engine.bind_eq (engine : Engine) (function : FunctionId) (arguments : Arguments)
    (sink : Diagnostics) :
    engine.bind function arguments sink = (do
      let declaration ← engine.functionDeclaration function
      let supplied ← engine.unpack arguments (some function) sink
      engine.bindSupplied function declaration arguments.callSite? supplied.1 supplied.2) :=
  rfl

/-- An engine in the same environment that answers operations in another way. -/
abbrev Engine.asking (engine : Engine) (ask : {α : Type} → Operation α → Inference α) : Engine :=
  { engine with ask := ask }

/-- An engine that may also differ in whether it records problems of calls. -/
abbrev Engine.variant (engine : Engine) (reports : Bool)
    (ask : {α : Type} → Operation α → Inference α) : Engine :=
  { engine with
    settings := { engine.settings with reportsDiagnostics := reports }
    ask := ask }

/-- Which steps of two engines go together, and which deferred values and sinks. -/
structure Pairing (engine : Engine) where
  /-- How the other engine answers operations. -/
  otherAsk : {α : Type} → Operation α → Inference α
  /-- Whether the other engine records problems of calls. -/
  otherReports : Bool := engine.settings.reportsDiagnostics
  /-- What is known of the cells of both runs. -/
  World : Type
  [order : Preorder World]
  /-- Deferred values that stand for the same. -/
  Alike : World → Deferred → Deferred → Prop
  alike_monotone : Monotone Alike
  /-- Sinks that go together. -/
  Sinks : Diagnostics → Diagnostics → Prop
  /-- Steps that go together, from one world on, with answers that are related later. -/
  Pairs : {α : Type} → World → (World → α → α → Prop) → Inference α → Inference α → Prop
  pairs_pure : ∀ {α : Type} {related : World → α → α → Prop} {world : World} {answer other : α},
    related world answer other → Pairs world related (pure answer) (pure other)
  pairs_bind : ∀ {α β : Type} {world : World} {middle : World → α → α → Prop}
    {related : World → β → β → Prop} {first firstOther : Inference α}
    {next nextOther : α → Inference β},
    Pairs world middle first firstOther →
    (∀ later answer other, world ≤ later → middle later answer other →
      Pairs later related (next answer) (nextOther other)) →
    Pairs world related (first >>= next) (firstOther >>= nextOther)
  pairs_throw : ∀ {α : Type} {related : World → α → α → Prop} (world : World) (fault : Fault),
    Pairs world related (throw fault) (throw fault)
  pairs_value : ∀ world id, Pairs world Same (Inference.value id) (Inference.value id)
  pairs_intern : ∀ world stored,
    Pairs world Same (Inference.intern stored) (Inference.intern stored)
  pairs_emit : ∀ world event, Pairs world Same (Inference.emit event) (Inference.emit event)
  pairs_remark : ∀ world (id : ValueId) (event : String → Event),
    Pairs world Same (engine.describe id >>= fun text => Inference.emit (event text))
      (engine.describe id >>= fun text => Inference.emit (event text))
  pairs_unified : ∀ world, Pairs world Same
    (count fun counters => { counters with unifications := counters.unifications + 1 })
    (count fun counters => { counters with unifications := counters.unifications + 1 })
  pairs_inferNode : ∀ world node,
    Pairs world Same (engine.inferNode node) ((engine.variant otherReports otherAsk).inferNode node)
  pairs_readHint : ∀ world node,
    Pairs world Same (engine.readHint node) ((engine.variant otherReports otherAsk).readHint node)
  pairs_typeArguments : ∀ world generics,
    Pairs world Same (engine.typeArguments generics)
      ((engine.variant otherReports otherAsk).typeArguments generics)
  pairs_execute : ∀ world set arguments,
    Pairs world Same (engine.execute set arguments)
      ((engine.variant otherReports otherAsk).execute set arguments)
  pairs_deferNode : ∀ world node, Pairs world Alike (Engine.deferNode node) (Engine.deferNode node)
  pairs_deferKnown : ∀ world set, Pairs world Alike (Engine.deferKnown set) (Engine.deferKnown set)
  pairs_deferMerged : ∀ {world : World} {parts others : List Deferred},
    List.Forall₂ (Alike world) parts others →
    Pairs world Alike (Engine.deferMerged parts) (Engine.deferMerged others)
  pairs_resolvePacked : ∀ {world : World} {items others : List Deferred},
    List.Forall₂ (Alike world) items others →
    Pairs world Same
      (freshCell >>= fun cell => engine.resolve (.packedTuple cell items))
      (freshCell >>= fun cell =>
        (engine.variant otherReports otherAsk).resolve (.packedTuple cell others))
  pairs_resolve : ∀ {world : World} {deferred other : Deferred},
    Alike world deferred other →
    Pairs world Same (engine.resolve deferred)
      ((engine.variant otherReports otherAsk).resolve other)
  pairs_reportUnpackable : ∀ {sink other : Diagnostics} (world : World)
    (function : Option FunctionId) (kind : DiagnosticKind) (node : NodeId)
    (message : FunctionDeclaration → String → String) (id : ValueId),
    Sinks sink other →
    Pairs world (fun _ => Sinks)
      (engine.reportUnpackable function kind node message id sink)
      ((engine.variant otherReports otherAsk).reportUnpackable function kind node message id other)
  pairs_bindSupplied : ∀ {world : World} {stream others : List Supplied}
    {sink other : Diagnostics} (function : FunctionId) (declaration : FunctionDeclaration)
    (callSite : Option NodeId),
    List.Forall₂ (Supplied.Alike (Alike world)) stream others →
    Sinks sink other →
    Pairs world (Beside (fun later => List.Forall₂ (BoundParameter.Alike (Alike later))) Sinks)
      (engine.bindSupplied function declaration callSite stream sink)
      ((engine.variant otherReports otherAsk).bindSupplied
        function declaration callSite others other)

namespace Pairing

attribute [instance] Pairing.order

variable {engine : Engine} (pairing : Pairing engine)

abbrev other : Engine :=
  engine.variant pairing.otherReports pairing.otherAsk

/-- Steps go together in every world, with the same answer. -/
def Fits {α : Type} (step otherStep : Inference α) : Prop :=
  ∀ world, pairing.Pairs world Same step otherStep

/-- Both engines take a step alike. -/
abbrev Both {α : Type} (step : Engine → Inference α) : Prop :=
  pairing.Fits (step engine) (step pairing.other)

/-- Rows of deferred values that stand for the same. -/
def Rows (world : pairing.World) : List Deferred → List Deferred → Prop :=
  List.Forall₂ (pairing.Alike world)

/-- Streams of the same keywords whose values stand for the same. -/
def Streams (world : pairing.World) : List Supplied → List Supplied → Prop :=
  List.Forall₂ (Supplied.Alike (pairing.Alike world))

variable {pairing}

/-! ## Sequences -/

section Sequences

variable {α β : Type} {world : pairing.World}

theorem fits_pure (answer : α) : pairing.Fits (Pure.pure answer) (Pure.pure answer) :=
  fun _ => pairing.pairs_pure rfl

theorem fits_throw (fault : Fault) :
    pairing.Fits (throw fault : Inference α) (throw fault : Inference α) :=
  fun world => pairing.pairs_throw world fault

variable {first firstOther rest restOther : Inference α} {next nextOther : α → Inference β}

/-- After steps with the same answer, both sides go on with it. -/
theorem pairs_andThen (firstPairs : pairing.Pairs world Same first firstOther)
    (nextPairs : ∀ later answer, world ≤ later →
      pairing.Pairs later related (next answer) (nextOther answer)) :
    pairing.Pairs world related (first >>= next) (firstOther >>= nextOther) := by
  refine pairing.pairs_bind firstPairs fun later answer other larger same => ?_
  cases same
  exact nextPairs later answer larger

theorem Fits.andThen (firstFits : pairing.Fits first firstOther)
    (nextPairs : ∀ later answer, world ≤ later →
      pairing.Pairs later related (next answer) (nextOther answer)) :
    pairing.Pairs world related (first >>= next) (firstOther >>= nextOther) :=
  pairs_andThen (firstFits world) nextPairs

theorem Fits.bind (firstFits : pairing.Fits first firstOther)
    (nextFits : ∀ answer, pairing.Fits (next answer) (nextOther answer)) :
    pairing.Fits (first >>= next) (firstOther >>= nextOther) :=
  fun _ => firstFits.andThen fun later answer _ => nextFits answer later

theorem pairs_map {middle : pairing.World → α → α → Prop} {related : pairing.World → β → β → Prop}
    {wrap wrapOther : α → β} (pairs : pairing.Pairs world middle first firstOther)
    (holds : ∀ {later answer other}, middle later answer other →
      related later (wrap answer) (wrapOther other)) :
    pairing.Pairs world related (first >>= fun answer => Pure.pure (wrap answer))
      (firstOther >>= fun answer => Pure.pure (wrapOther answer)) :=
  pairing.pairs_bind pairs fun _ _ _ _ answers => pairing.pairs_pure (holds answers)

theorem Fits.map {wrap : α → β} (fits : pairing.Fits first firstOther) :
    pairing.Fits (first >>= fun answer => Pure.pure (wrap answer))
      (firstOther >>= fun answer => Pure.pure (wrap answer)) :=
  fits.bind fun _ => fits_pure _

theorem fits_value (id : ValueId) : pairing.Fits (value id) (value id) :=
  fun world => pairing.pairs_value world id

theorem fits_intern (stored : Value) : pairing.Fits (intern stored) (intern stored) :=
  fun world => pairing.pairs_intern world stored

theorem fits_internSet (stored : Value) : pairing.Fits (internSet stored) (internSet stored) :=
  (fits_intern stored).map

theorem fits_emit (event : Event) (restFits : pairing.Fits rest restOther) :
    pairing.Fits (emit event >>= fun _ => rest) (emit event >>= fun _ => restOther) :=
  Fits.bind (fun world => pairing.pairs_emit world event) fun _ => restFits

/-- An event with the text of a value before steps that fit. -/
theorem fits_remark (id : ValueId) (event : String → Event)
    (restFits : pairing.Fits rest restOther) :
    pairing.Fits (engine.describe id >>= fun text => emit (event text) >>= fun _ => rest)
      (pairing.other.describe id >>= fun text => emit (event text) >>= fun _ => restOther) := by
  rw [← bind_assoc, ← bind_assoc]
  exact Fits.bind (fun world => pairing.pairs_remark world id event) fun _ => restFits

theorem fits_readHint (node : NodeId) : pairing.Both (·.readHint node) :=
  fun world => pairing.pairs_readHint world node

theorem fits_typeArguments (generics : Generics) : pairing.Both (·.typeArguments generics) :=
  fun world => pairing.pairs_typeArguments world generics

theorem fits_execute (set : TypeSet) (arguments : Arguments) :
    pairing.Both (·.execute set arguments) :=
  fun world => pairing.pairs_execute world set arguments

theorem fits_ite [Decidable condition] (trueFits : pairing.Fits whenTrue trueOther)
    (falseFits : pairing.Fits whenFalse falseOther) :
    pairing.Fits (if condition then whenTrue else whenFalse)
      (if condition then trueOther else falseOther) := by
  split
  · exact trueFits
  · exact falseFits

end Sequences

/-! ## Declarations -/

theorem fits_classDeclaration (class_ : ClassId) :
    pairing.Fits (engine.classDeclaration class_) (pairing.other.classDeclaration class_) := by
  unfold Engine.classDeclaration
  cases engine.declarations.class? class_ with
  | none => exact fits_throw _
  | some declaration => exact fits_pure declaration

theorem fits_functionDeclaration (function : FunctionId) :
    pairing.Fits (engine.functionDeclaration function)
      (pairing.other.functionDeclaration function) := by
  unfold Engine.functionDeclaration
  cases engine.declarations.function? function with
  | none => exact fits_throw _
  | some declaration => exact fits_pure declaration

/-! ## Loops over related items -/

section Loops

variable {α β γ δ : Type} {world : pairing.World} {items : List α} {others : List β}
  {item : pairing.World → α → β → Prop}

/-- Related items have related answers. -/
theorem pairs_mapM (monotone : Monotone item) (answeredMonotone : Monotone answered)
    (related : List.Forall₂ (item world) items others)
    (each : ∀ later first second, world ≤ later → item later first second →
      pairing.Pairs later answered (answerOf first) (otherOf second)) :
    pairing.Pairs world (fun later => List.Forall₂ (answered later))
      (items.mapM answerOf) (others.mapM otherOf) := by
  induction items generalizing world others with
  | nil =>
    cases related
    exact pairing.pairs_pure .nil
  | cons first rest ih =>
    obtain ⟨second, restOthers, headRelated, tailRelated, rfl⟩ :=
      List.forall₂_cons_left_iff.mp related
    rw [List.mapM_cons, List.mapM_cons]
    refine pairing.pairs_bind (each world first second le_rfl headRelated)
      fun later answer other larger answerRelated => ?_
    refine pairing.pairs_bind
      (ih (tailRelated.imp fun _ _ => monotone larger _ _)
        fun final _ _ largest => each final _ _ (larger.trans largest))
      fun final answers otherAnswers largest answersRelated => ?_
    exact pairing.pairs_pure (.cons (answeredMonotone largest _ _ answerRelated) answersRelated)

section Combined

variable (monotone : Monotone item) (related : List.Forall₂ (item world) items others)

include monotone related

/-- The answers of related items, put together. -/
theorem pairs_combine (each : ∀ later first second, world ≤ later → item later first second →
      pairing.Pairs later Same (answerOf first) (otherOf second))
    (combine : List γ → δ) :
    pairing.Pairs world Same (do return combine (← items.mapM answerOf))
      (do return combine (← others.mapM otherOf)) := by
  refine pairing.pairs_bind (pairs_mapM monotone (fun _ _ _ _ _ same => same) related each)
    fun later answers otherAnswers _ same => ?_
  cases List.forall₂_eq_eq_eq ▸ same
  exact fits_pure _ later

theorem pairs_unionOver {setOf : α → Inference TypeSet}
    (each : ∀ later first second, world ≤ later → item later first second →
      pairing.Pairs later Same (setOf first) (otherOf second)) :
    pairing.Pairs world Same (unionOver setOf items) (unionOver otherOf others) := by
  rw [unionOver_eq, unionOver_eq]
  exact pairs_combine monotone related each _

theorem pairs_mergeOver (each : ∀ later first second, world ≤ later → item later first second →
      pairing.Pairs later Same (bindingsOf first) (otherOf second)) :
    pairing.Pairs world Same (mergeOver bindingsOf items) (mergeOver otherOf others) := by
  rw [mergeOver_eq, mergeOver_eq]
  exact pairs_combine monotone related each _

end Combined

/-- Related items pass tests alike. -/
theorem pairs_allOf (monotone : Monotone item) (related : List.Forall₂ (item world) items others)
    (each : ∀ later first second, world ≤ later → item later first second →
      pairing.Pairs later Same (test first) (otherTest second)) :
    pairing.Pairs world Same (allOf test items) (allOf otherTest others) := by
  induction items generalizing world others with
  | nil =>
    cases related
    exact fits_pure _ world
  | cons first rest ih =>
    obtain ⟨second, restOthers, headRelated, tailRelated, rfl⟩ :=
      List.forall₂_cons_left_iff.mp related
    refine pairs_andThen (each world first second le_rfl headRelated) fun later answer larger => ?_
    cases answer with
    | false => exact fits_pure _ later
    | true =>
      exact ih (tailRelated.imp fun _ _ => monotone larger _ _)
        fun final _ _ largest => each final _ _ (larger.trans largest)

end Loops

/-! ## Loops over the same items -/

section SameItems

variable {α β : Type} {world : pairing.World}

theorem monotone_same : Monotone (Same : pairing.World → α → α → Prop) := fun _ _ _ _ _ same => same

theorem forall₂_same (items : List α) : List.Forall₂ (Same world) items items :=
  List.forall₂_same.mpr fun _ _ => rfl

theorem fits_unionOver {setOf otherOf : α → Inference TypeSet}
    (each : ∀ item, pairing.Fits (setOf item) (otherOf item)) (items : List α) :
    pairing.Fits (unionOver setOf items) (unionOver otherOf items) :=
  fun _ => pairs_unionOver monotone_same (forall₂_same items) fun later first _ _ same => by
    cases same
    exact each first later

theorem fits_mergeOver (each : ∀ item, pairing.Fits (bindingsOf item) (otherOf item))
    (items : List α) :
    pairing.Fits (mergeOver bindingsOf items) (mergeOver otherOf items) :=
  fun _ => pairs_mergeOver monotone_same (forall₂_same items) fun later first _ _ same => by
    cases same
    exact each first later

variable {answered : pairing.World → β → β → Prop} {answerOf otherOf : α → Inference β}

/-- The answers of the same items. -/
theorem pairs_mapM_same (answeredMonotone : Monotone answered)
    (each : ∀ later item, pairing.Pairs later answered (answerOf item) (otherOf item))
    (items : List α) :
    pairing.Pairs world (fun later => List.Forall₂ (answered later))
      (items.mapM answerOf) (items.mapM otherOf) :=
  pairs_mapM monotone_same answeredMonotone (forall₂_same items) fun later first _ _ same => by
    cases same
    exact each later first

theorem fits_mapM (each : ∀ item, pairing.Fits (answerOf item) (otherOf item)) (items : List α) :
    pairing.Fits (items.mapM answerOf) (items.mapM otherOf) := by
  induction items with
  | nil => exact fits_pure []
  | cons item rest ih =>
    rw [List.mapM_cons, List.mapM_cons]
    exact (each item).bind fun _ => ih.map

theorem fits_foldlM
    (each : ∀ reached item, pairing.Fits (step reached item) (otherStep reached item))
    (items : List α) (reached : β) :
    pairing.Fits (items.foldlM step reached) (items.foldlM otherStep reached) := by
  induction items generalizing reached with
  | nil => exact fits_pure reached
  | cons item rest ih =>
    rw [List.foldlM_cons, List.foldlM_cons]
    exact (each reached item).bind ih

theorem fits_anyOf (each : ∀ item, pairing.Fits (test item) (otherTest item)) (items : List α) :
    pairing.Fits (anyOf test items) (anyOf otherTest items) := by
  induction items with
  | nil => exact fits_pure false
  | cons item rest ih =>
    refine (each item).bind fun passed => ?_
    exact fits_ite (fits_pure true) ih

/-- The answers of the same items, as far as they have one. -/
theorem pairs_filterMapOver (answeredMonotone : Monotone answered)
    (each : ∀ later item, pairing.Pairs later (fun final => Option.Rel (answered final))
      (answer? item) (otherAnswer? item))
    (items : List α) :
    pairing.Pairs world (fun later => List.Forall₂ (answered later))
      (filterMapOver answer? items) (filterMapOver otherAnswer? items) := by
  induction items generalizing world with
  | nil => exact pairing.pairs_pure .nil
  | cons item rest ih =>
    refine pairing.pairs_bind (each world item) fun later answer other _ answerRelated => ?_
    refine pairing.pairs_bind ih fun final answers otherAnswers largest answersRelated => ?_
    cases answerRelated with
    | none => exact pairing.pairs_pure answersRelated
    | some answerRelated =>
      exact pairing.pairs_pure (.cons (answeredMonotone largest _ _ answerRelated) answersRelated)

/-- The answers of the same items beside a sink. -/
theorem pairs_throughSink {visit otherVisit : α → Diagnostics → Inference (β × Diagnostics)}
    (answeredMonotone : Monotone answered)
    (each : ∀ later item sink other, pairing.Sinks sink other →
      pairing.Pairs later (Beside answered pairing.Sinks) (visit item sink) (otherVisit item other))
    (items : List α) {sink other : Diagnostics} (sinks : pairing.Sinks sink other) :
    pairing.Pairs world (Beside (fun later => List.Forall₂ (answered later)) pairing.Sinks)
      (throughSink visit items sink) (throughSink otherVisit items other) := by
  induction items generalizing world sink other with
  | nil => exact pairing.pairs_pure ⟨.nil, sinks⟩
  | cons item rest ih =>
    refine pairing.pairs_bind (each world item sink other sinks)
      fun later answer otherAnswer _ answerRelated => ?_
    refine pairing.pairs_bind (ih answerRelated.2)
      fun final answers otherAnswers largest answersRelated => ?_
    exact pairing.pairs_pure
      ⟨.cons (answeredMonotone largest _ _ answerRelated.1) answersRelated.1, answersRelated.2⟩

end SameItems

end Pairing

end TypeInference
