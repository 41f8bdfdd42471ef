import TypeInference.Proofs.GuardedPlace
import TypeInference.Proofs.Replay.Body
import TypeInference.Proofs.Replay.Bond

/-!
# Engines side by side

If the answers that two engines are given keep a bond, then so does all that they do with
them: they evaluate annotations, make and resolve deferred values, bind calls and run the
programs of bodies alike.  Such engines go together, and so do all operations without
deferred values that they perform.
-/

namespace TypeInference

open Inference

/-! ## Calls whose problems do not matter -/

/-- Sinks that discard everything. -/
def DiscardingSinks (sink other : Diagnostics) : Prop :=
  other = sink ∧ sink.discards = true

namespace Engine

variable (engine : Engine) {sink : Diagnostics} (discards : sink.discards = true)

include discards

theorem report_of_discards (diagnostic : Diagnostic) :
    engine.report sink diagnostic = pure sink := by
  simp [report, discards]

theorem reportAll_of_discards (diagnostics : List Diagnostic) :
    engine.reportAll diagnostics sink = pure sink := by
  unfold reportAll
  induction diagnostics with
  | nil => rfl
  | cons diagnostic rest ih =>
    rw [List.foldlM_cons, engine.report_of_discards discards, pure_bind, ih]

/-- Binding a stream makes new cells and nothing else. -/
theorem bindSupplied_of_discards (function : FunctionId) (declaration : FunctionDeclaration)
    (callSite : Option NodeId) (stream : List Supplied) (state : State) :
    engine.bindSupplied function declaration callSite stream sink state =
      .ok (((Binder.bindStream function declaration callSite stream state.cells.size).result, sink),
        { state with
          cells := state.cells ++ Array.replicate
            ((Binder.bindStream function declaration callSite stream state.cells.size).nextCell -
              state.cells.size) none }) := by
  unfold bindSupplied
  simp only [engine.reportAll_of_discards discards]
  rfl

theorem bindSupplied_eq_claim (function : FunctionId) (declaration : FunctionDeclaration)
    (callSite : Option NodeId) (stream : List Supplied) :
    engine.bindSupplied function declaration callSite stream sink =
      claim
        (fun cell => ((Binder.bindStream function declaration callSite stream cell).result, sink))
        fun cell => (Binder.bindStream function declaration callSite stream cell).nextCell :=
  funext (engine.bindSupplied_of_discards discards function declaration callSite stream)

end Engine

/-! ## Deferred values -/

namespace Bond.Tracks

variable {bond : Bond} {world : Partners}

/-- Steps that put a deferred value into a new cell. -/
theorem defer {deferredIn otherIn : CellId → Deferred}
    (cells : ∀ cell, (deferredIn cell).cell = cell ∧ (otherIn cell).cell = cell)
    (defers : world.Defers (deferredIn ⟨world.count⟩) (otherIn ⟨world.otherCount⟩)) :
    bond.Tracks world Partners.Alike (freshCell >>= fun cell => Pure.pure (deferredIn cell))
      (freshCell >>= fun cell => Pure.pure (otherIn cell)) := by
  rw [freshCell_bind_pure, freshCell_bind_pure]
  obtain ⟨later, larger, alike, awaits⟩ := defers
  rw [(cells _).1, (cells _).2] at awaits
  exact .claim ⟨later, larger, alike, awaits⟩

theorem deferNode (node : NodeId) :
    bond.Tracks world Partners.Alike (Engine.deferNode node) (Engine.deferNode node) :=
  .defer (fun _ => ⟨rfl, rfl⟩) (Partners.Awaits.defers ⟨rfl, rfl⟩ rfl .nil)

theorem deferKnown (set : TypeSet) :
    bond.Tracks world Partners.Alike (Engine.deferKnown set) (Engine.deferKnown set) :=
  .defer (fun _ => ⟨rfl, rfl⟩) (Partners.Awaits.defers ⟨rfl, rfl⟩ rfl .nil)

section Parts

variable {parts others : List Deferred} (related : List.Forall₂ world.Alike parts others)

include related

/-- A single part is not merged, in either run. -/
theorem deferMerged :
    bond.Tracks world Partners.Alike (Engine.deferMerged parts) (Engine.deferMerged others) := by
  have merges : bond.Tracks world Partners.Alike
      (freshCell >>= fun cell => Pure.pure (.merged cell parts))
      (freshCell >>= fun cell => Pure.pure (.merged cell others)) :=
    .defer (fun _ => ⟨rfl, rfl⟩) (Partners.Awaits.merged ⟨rfl, rfl⟩ related)
  cases related with
  | nil => exact merges
  | cons alike rest =>
    cases rest with
    | nil => exact .pure alike
    | cons _ _ => exact merges

/-- Partners that are packed and resolved at once. -/
theorem resolvePacked {engine other : Engine}
    (resolves : ∀ {world deferred partner}, world.Alike deferred partner →
      bond.Tracks world Same (engine.resolve deferred) (other.resolve partner)) :
    bond.Tracks world Same (freshCell >>= fun cell => engine.resolve (.packedTuple cell parts))
      (freshCell >>= fun cell => other.resolve (.packedTuple cell others)) := by
  have packs : bond.Tracks world Partners.Alike
      (freshCell >>= fun cell => Pure.pure (.packedTuple cell parts))
      (freshCell >>= fun cell => Pure.pure (.packedTuple cell others)) :=
    .defer (fun _ => ⟨rfl, rfl⟩) (Partners.Awaits.packedTuple ⟨rfl, rfl⟩ related)
  have resolved := packs.bind fun _ _ _ _ alike => resolves alike
  simpa only [bind_assoc, pure_bind] using resolved

end Parts

variable {engine : Engine} {otherAsk : {α : Type} → Operation α → Inference α}
  {sink other : Diagnostics} (sinks : DiscardingSinks sink other)

include sinks

/-- Reports that are discarded leave both runs as they are. -/
theorem reportUnpackable (function : Option FunctionId) (kind : DiagnosticKind)
    (node : NodeId) (message : FunctionDeclaration → String → String) (id : ValueId) :
    bond.Tracks world (fun _ => DiscardingSinks)
      (engine.reportUnpackable function kind node message id sink)
      ((engine.asking otherAsk).reportUnpackable function kind node message id other) := by
  obtain ⟨rfl, discards⟩ := sinks
  cases function with
  | none => exact .pure ⟨rfl, discards⟩
  | some function =>
    unfold Engine.reportUnpackable
    simp only [Engine.report_of_discards _ discards]
    unfold Engine.functionDeclaration
    cases engine.declarations.function? function with
    | none => exact .throw _
    | some declaration => exact .pure ⟨rfl, discards⟩

/-- Streams of partners are bound to partners. -/
theorem bindSupplied {stream others : List Supplied}
    (related : List.Forall₂ (Supplied.Alike world.Alike) stream others)
    (function : FunctionId) (declaration : FunctionDeclaration) (callSite : Option NodeId) :
    bond.Tracks world
      (Beside (fun later => List.Forall₂ (BoundParameter.Alike later.Alike)) DiscardingSinks)
      (engine.bindSupplied function declaration callSite stream sink)
      ((engine.asking otherAsk).bindSupplied function declaration callSite others other) := by
  obtain ⟨rfl, discards⟩ := sinks
  rw [Engine.bindSupplied_eq_claim _ discards, Engine.bindSupplied_eq_claim _ discards]
  obtain ⟨later, larger, matched⟩ :=
    Binder.follow_bindStream related ⟨rfl, rfl⟩ function declaration callSite
  exact .claim ⟨later, larger, ⟨matched.result, rfl, discards⟩, matched.awaits⟩

end Bond.Tracks

/-! ## What calls return -/

namespace Pairing

variable {engine : Engine} {pairing : Pairing engine}

theorem fits_recursiveReturn (function : FunctionId) :
    pairing.Both fun engine => do
      let declaration ← engine.functionDeclaration function
      emit (.recursiveReturn declaration.name)
      return (∅ : TypeSet) :=
  (fits_functionDeclaration function).bind fun _ => fits_emit _ (fits_pure ∅)

/-- What a call returns is found alike if bodies are executed alike. -/
theorem fits_returnBy
    (discarding : pairing.Sinks .discarding .discarding) (bodies : pairing.Fits body otherBody)
    (function : FunctionId) (arguments : Arguments) :
    pairing.Fits (engine.returnBy body function arguments)
      (pairing.other.returnBy otherBody function arguments) := by
  refine (fits_functionDeclaration function).bind fun declaration => ?_
  cases declaration.builtin with
  | some behavior => exact fits_executeBuiltin discarding behavior arguments
  | none =>
    cases declaration.returns with
    | none => exact bodies
    | some node =>
      exact (fits_annotatedReturn discarding function arguments node).bind fun annotated =>
        fits_ite bodies (fits_pure annotated)

end Pairing

/-! ## Engines -/

namespace Bond

/-- Engines whose answers keep a bond. -/
structure Asks (bond : Bond) (tree : Tree) (engine : Engine)
    (otherAsk : {α : Type} → Operation α → Inference α) : Prop where
  /-- Names and bodies are those of a tree, whatever its nodes. -/
  provider : { engine.provider with inferNode := tree.nodeProgram } = tree.provider
  values : ∀ world id, bond.Tracks world Same (value id) (value id)
  interns : ∀ world stored, bond.Tracks world Same (intern stored) (intern stored)
  asks : ∀ {α : Type} {operation : Operation α} world, operation.isRepeatable = true →
    bond.Tracks world Same (engine.ask operation) (otherAsk operation)
  resolves : ∀ {world : Partners} {deferred partner : Deferred}, world.Alike deferred partner →
    bond.Tracks world Same (engine.ask (.resolve deferred)) (otherAsk (.resolve partner))

namespace Asks

variable {bond : Bond} {tree : Tree} {engine : Engine}
  {otherAsk : {α : Type} → Operation α → Inference α} (asks : bond.Asks tree engine otherAsk)

include asks

/-- Both engines follow the same reference, if any. -/
theorem evaluateHint (world : Partners) (node : NodeId) :
    bond.Tracks world Same (engine.evaluateHint node)
      ((engine.asking otherAsk).evaluateHint node) := by
  refine .andThen (asks.asks world rfl) fun world values _ => .andThen ?_ fun world source? _ => ?_
  · unfold Engine.literal?
    cases values.single? with
    | none => exact .pure rfl
    | some id =>
      refine .andThen (asks.values world id) fun _ stored _ => ?_
      cases stored <;> exact .pure rfl
  · cases source? with
    | none => exact .pure rfl
    | some source =>
      have named := congrArg Provider.resolveName asks.provider
      dsimp only at named
      simp only [Engine.followReference, named]
      cases engine.provider.forwardReference? source with
      | some target => exact asks.asks world rfl
      | none =>
        refine .andThen (.pure rfl) fun world resolved _ => ?_
        split
        · exact .andThen (.emit _ _) fun _ _ _ => .pure rfl
        · exact .pure rfl

/-- Programs that ask for the same, but for partners. -/
theorem run {program other : Program α} (together : program.Matches world.Alike other)
    (larger : world ≤ later) :
    bond.Tracks later Same (engine.runProgram program)
      ((engine.asking otherAsk).runProgram other) := by
  induction together generalizing later with
  | done result => exact .pure rfl
  | ask matches_ _ ih =>
    refine .andThen ?_ fun final reply largest => ih reply (larger.trans largest)
    cases matches_ with
    | same repeatable => exact asks.asks later repeatable
    | resolve alike => exact asks.resolves (Partners.monotone_alike larger _ _ alike)

end Asks

/-- Engines whose annotations keep a bond as well. -/
structure Suits (bond : Bond) (tree : Tree) (engine : Engine)
    (otherAsk : {α : Type} → Operation α → Inference α) : Prop
    extends bond.Asks tree engine otherAsk where
  hints : ∀ world node,
    bond.Tracks world Same (engine.readHint node) ((engine.asking otherAsk).readHint node)
  subscripts : ∀ world generics, bond.Tracks world Same (engine.typeArguments generics)
    ((engine.asking otherAsk).typeArguments generics)

namespace Suits

variable {bond : Bond} {tree : Tree} {engine : Engine}
  {otherAsk : {α : Type} → Operation α → Inference α} (suits : bond.Suits tree engine otherAsk)

/-- Engines that keep a bond go together. -/
def pairing : Pairing engine where
  otherAsk := otherAsk
  World := Partners
  Alike := Partners.Alike
  alike_monotone := Partners.monotone_alike
  Sinks := DiscardingSinks
  Pairs := bond.Tracks
  pairs_pure := .pure
  pairs_bind := .bind
  pairs_throw _ fault := .throw fault
  pairs_value := suits.values
  pairs_intern := suits.interns
  pairs_emit _ event := .emit event event
  pairs_remark _ _ _ := .aside (fun state => ⟨_, rfl, .emit state _, rfl⟩)
    (fun state => ⟨_, rfl, .emit state _, rfl, rfl, rfl, rfl, rfl, rfl, rfl⟩) fun _ _ => rfl
  pairs_unified _ := .aside (fun state => ⟨_, rfl, .count state (Nat.le_refl _), rfl⟩)
    (fun state => ⟨_, rfl, .count state (Nat.le_refl _), rfl, rfl, rfl, rfl, rfl, rfl, rfl⟩)
    fun _ _ => rfl
  pairs_inferNode world _ := suits.asks world rfl
  pairs_readHint := suits.hints
  pairs_typeArguments := suits.subscripts
  pairs_execute world _ _ := suits.asks world rfl
  pairs_deferNode _ node := Tracks.deferNode node
  pairs_deferKnown _ set := Tracks.deferKnown set
  pairs_deferMerged := Tracks.deferMerged
  pairs_resolvePacked related := Tracks.resolvePacked related
    (.resolve suits.interns fun world _ => suits.asks world rfl)
  pairs_resolve := .resolve suits.interns fun world _ => suits.asks world rfl
  pairs_reportUnpackable _ function kind node message id sinks :=
    Tracks.reportUnpackable sinks function kind node message id
  pairs_bindSupplied function declaration callSite related sinks :=
    Tracks.bindSupplied sinks related function declaration callSite

include suits

theorem discarding : suits.pairing.Sinks .discarding .discarding := ⟨rfl, rfl⟩

/-- Both engines run the body of a function with partners for its parameters. -/
theorem fits_inferBody (function : FunctionId) (arguments : Arguments) :
    suits.pairing.Fits (engine.inferBody function arguments)
      ((engine.asking otherAsk).inferBody function arguments) := by
  refine (Pairing.fits_functionDeclaration function).bind fun declaration => fun world => ?_
  have depths : bond.Tracks world (fun _ _ _ => True) (look fun state => state.budget.depth)
      (look fun state => state.budget.depth) :=
    .aside (fun state => ⟨state, rfl, .refl state, rfl⟩)
      (fun state => ⟨state, rfl, .refl state, rfl, .refl state⟩) fun _ _ => trivial
  refine depths.bind fun later depth other _ _ => ?_
  refine .andThen (.emit _ _) fun later _ _ => ?_
  refine .bind (Pairing.pairs_bindQuietly suits.discarding function arguments)
    fun later parameters others _ related => ?_
  have together := tree.together_bodyProgram
    (⟨others, related, rfl⟩ : Execution.Alike later.Alike
      ⟨function, arguments, parameters⟩ ⟨function, arguments, others⟩)
  have bodies : engine.provider.inferBody = tree.bodyProgram :=
    congrArg Provider.inferBody suits.provider
  simp only [bodies]
  refine .andThen (suits.run together le_rfl) fun _ _ _ => ?_
  exact .andThen (.emit _ _) fun _ _ _ => .pure rfl

/-- What calls return is found alike if the budget makes no difference to bodies. -/
theorem fits_declaredReturn
    (budgets : ∀ {world content other} settings function builtin,
      bond.Tracks world Same content other →
      bond.Tracks world Same (budgeted settings function builtin content)
        (budgeted settings function builtin other))
    (function : FunctionId) (arguments : Arguments) :
    suits.pairing.Fits (engine.declaredReturn function arguments)
      ((engine.asking otherAsk).declaredReturn function arguments) := by
  refine Pairing.fits_returnBy suits.discarding ?_ function arguments
  rw [Engine.bodyType_eq_budgeted, Engine.bodyType_eq_budgeted]
  exact (Pairing.fits_functionDeclaration function).bind fun declaration world =>
    budgets _ _ _ (suits.fits_inferBody function arguments world)

end Suits

end Bond

end TypeInference
