import TypeInference.Proofs.Binding.Problem
import TypeInference.Proofs.Binding.Unpacking

/-!
# Binding follows the rule

Whenever the arguments of a call unpack to positions and then keywords, binding them to
parameters in the usual order returns one bound parameter for each parameter, with the
value that the rule of binding gives it, and reports exactly the problems of the call.
-/

namespace TypeInference

/-! ## Bound parameters -/

namespace Binder

/-- Every parameter that is bound follows the rule of binding. -/
theorem Agrees.follows {binder initial : Binder} {count index : Nat} {parameter : Parameter}
    (agrees : binder.Agrees initial call count)
    (found : initial.declaration.Lists index parameter) (before : index < count) :
    ∃ bound, binder.result[index]? = some bound ∧
      bound.IsFor initial.function parameter index ∧
      bound.Follows initial.declaration call (call.collected initial.declaration) parameter
        index := by
  by_cases nothing : call.values parameter index = []
  · exact agrees.filled found before nothing
  · obtain ⟨bound, used, isFor, supplied⟩ := agrees.present found nothing
    refine ⟨bound, (agrees.kept found before nothing).trans used, isFor, ?_⟩
    have single := OrderedCall.single_of_values nothing
    cases kind : parameter.kind with
    | positional | keywordOnly => simpa [BoundParameter.Follows, kind, nothing] using supplied
    | starred | doubleStarred => exact absurd kind (ParameterKind.ne_of_collects single rfl)

end Binder

/-! ## Reports -/

namespace Engine

variable {engine : Engine}

/-- A sink after some problems, which are dropped unless they are asked for. -/
def recorded (engine : Engine) (sink : Diagnostics) (diagnostics : List Diagnostic) :
    Diagnostics :=
  if engine.settings.reportsDiagnostics && !sink.discards then
    { sink with items := sink.items ++ diagnostics }
  else sink

theorem report_eq_ok (sink : Diagnostics) (diagnostic : Diagnostic) (state : State) :
    ∃ after,
      engine.report sink diagnostic state = .ok (engine.recorded sink [diagnostic], after) ∧
      after.cells = state.cells := by
  unfold Engine.report recorded
  by_cases reported : (engine.settings.reportsDiagnostics && !sink.discards) = true
  · have records : ¬sink.discards = true := by simpa using (Bool.and_eq_true_iff.mp reported).2
    rw [if_pos reported, if_pos reported, Diagnostics.push, if_neg records]
    exact ⟨_, rfl, rfl⟩
  · rw [if_neg reported, if_neg reported]
    exact ⟨_, rfl, rfl⟩

theorem recorded_recorded (sink : Diagnostics) (first rest : List Diagnostic) :
    engine.recorded (engine.recorded sink first) rest = engine.recorded sink (first ++ rest) := by
  unfold recorded
  split <;> simp_all

theorem reportAll_eq_ok (diagnostics : List Diagnostic) (sink : Diagnostics) (state : State) :
    ∃ after,
      engine.reportAll diagnostics sink state = .ok (engine.recorded sink diagnostics, after) ∧
      after.cells = state.cells := by
  induction diagnostics generalizing sink state with
  | nil =>
    have same : engine.recorded sink [] = sink := by simp [recorded]
    rw [same]
    exact ⟨state, rfl, rfl⟩
  | cons diagnostic rest ih =>
    obtain ⟨between, first, firstCells⟩ := engine.report_eq_ok sink diagnostic state
    obtain ⟨after, others, cells⟩ := ih (engine.recorded sink [diagnostic]) between
    rw [recorded_recorded] at others
    refine ⟨after, ?_, cells.trans firstCells⟩
    unfold reportAll
    exact Inference.bind_eq_ok_iff.mpr ⟨_, between, first, others⟩

section Whole

variable
    {function : FunctionId}
    {declaration : FunctionDeclaration}
    (declared : engine.declarations.function? function = some declaration)
    {arguments : Arguments}
    {sink noted : Diagnostics}
    {state unpacked : State}
    {stream : List Supplied}
    (unpacks : engine.unpack arguments (some function) sink state = .ok ((stream, noted), unpacked))
include declared unpacks

/-- Binding returns whenever unpacking does, and answers no cell that it begins. -/
theorem bind_eq_ok_unanswered :
    ∃ binder after,
      binder =
        Binder.bindStream function declaration arguments.callSite? stream unpacked.cells.size ∧
      engine.bind function arguments sink state =
        .ok ((binder.result, engine.recorded noted binder.issues), after) ∧
      ∀ cell : CellId, unpacked.cells.size ≤ cell.index →
        (after.cells[cell.index]?).join = none := by
  have looked : engine.functionDeclaration function state = .ok (declaration, state) := by
    unfold Engine.functionDeclaration
    rw [declared]
    rfl
  let binder :=
    Binder.bindStream function declaration arguments.callSite? stream unpacked.cells.size
  obtain ⟨after, reported, cells⟩ := engine.reportAll_eq_ok binder.issues noted
    { unpacked with
      cells := unpacked.cells ++ Array.replicate (binder.nextCell - unpacked.cells.size) none }
  refine ⟨binder, after, rfl, ?_, fun cell begun => ?_⟩
  · unfold Engine.bind
    refine Inference.bind_eq_ok_iff.mpr ⟨_, _, looked, ?_⟩
    refine Inference.bind_eq_ok_iff.mpr ⟨_, _, unpacks, ?_⟩
    refine Inference.bind_eq_ok_iff.mpr ⟨_, _, rfl, ?_⟩
    refine Inference.bind_eq_ok_iff.mpr ⟨_, _, rfl, ?_⟩
    exact Inference.bind_eq_ok_iff.mpr ⟨_, _, reported, rfl⟩
  · rw [cells, Array.getElem?_append_right begun, Array.getElem?_replicate]
    split <;> rfl

/-- Binding returns whenever unpacking does. -/
theorem bind_eq_ok :
    ∃ binder after,
      binder =
        Binder.bindStream function declaration arguments.callSite? stream unpacked.cells.size ∧
      engine.bind function arguments sink state =
        .ok ((binder.result, engine.recorded noted binder.issues), after) := by
  obtain ⟨binder, after, isBinder, binds, -⟩ := bind_eq_ok_unanswered declared unpacks
  exact ⟨binder, after, isBinder, binds⟩

end Whole

end Engine

/-! ## Whole calls -/

/--
Let the arguments of a call unpack to positions and then keywords, none of which names a
parameter that collects, and those that name no parameter all different.  Then binding
returns one bound parameter for each parameter, in order, and its value follows the rule
of binding.  Arguments in which nothing positional is written behind a double-starred
argument unpack in that way, and unpacking returns if no stars are written.
-/
theorem bind_follows_rule
    {engine : Engine}
    {function : FunctionId}
    {declaration : FunctionDeclaration}
    (declared : engine.declarations.function? function = some declaration)
    (ordered : declaration.IsOrdered)
    (arguments : Arguments)
    (sink : Diagnostics)
    (state : State) :
    (arguments.HasNoStars → ∃ stream noted unpacked,
      engine.unpack arguments (some function) sink state = .ok ((stream, noted), unpacked)) ∧
    ∀ stream noted unpacked,
      engine.unpack arguments (some function) sink state = .ok ((stream, noted), unpacked) →
      (arguments.IsOrdered → ∃ call : OrderedCall, stream = call.stream) ∧
      ∀ call : OrderedCall, stream = call.stream → call.NamesNoCollector declaration →
        ((call.unmatched declaration).map Prod.fst).Nodup →
        ∃ bound reported after,
          engine.bind function arguments sink state = .ok ((bound, reported), after) ∧
          bound.length = declaration.parameters.length ∧
          ∀ (index : Nat) (parameter : Parameter),
            declaration.parameters[index]? = some parameter →
            ∃ result, bound[index]? = some result ∧ result.IsFor function parameter index ∧
              result.Follows declaration call (call.unmatched declaration) parameter index := by
  constructor
  · intro plain
    obtain ⟨answer, unpacked, unpacks⟩ :=
      engine.returns_unpack (some function) plain sink state
    exact ⟨answer.1, answer.2, unpacked, unpacks⟩
  intro stream noted unpacked unpacks
  constructor
  · exact (engine.ensures_unpack (some function) arguments sink state _ unpacked unpacks).1
  intro call supplies single distinct
  subst supplies
  obtain ⟨binder, after, rfl, binds⟩ := engine.bind_eq_ok declared unpacks
  have read := Binder.read_bindStream ordered single function arguments.callSite?
    unpacked.cells.size
  have collected : call.collected declaration = call.unmatched declaration :=
    Table.entries_ofEntries distinct
  refine ⟨_, _, after, binds, ?_, ?_⟩
  · rw [Binder.bindStream, Binder.result_finish]
    exact read.agrees.length
  · intro index parameter found
    rw [Binder.bindStream, Binder.result_finish, ← collected]
    exact read.agrees.follows found (List.getElem?_eq_some_iff.mp found).1

/-- An engine that knows a function with parameters of every kind and one without collectors. -/
def Engine.ofEveryKind : Engine where
  declarations.functions := #[
    { name := "mixed"
      parameters := [{ name := "self" }, { name := "item" }, { name := "rest", kind := .starred },
        { name := "flag", kind := .keywordOnly, default := some ⟨8⟩ },
        { name := "options", kind := .doubleStarred }] },
    { name := "strict"
      parameters := [{ name := "item" }, { name := "flag", kind := .keywordOnly }] }]
  provider := { inferNode := fun _ => .done ∅ }
  ask := fun _ => throw .outOfFuel

/-- A method call in which the receiver is given a second time, with a surplus of each kind. -/
theorem bind_follows_rule_of_mixed :
    let arguments : Arguments :=
      .bound ⟨3⟩ (.written [.positional ⟨0⟩, .keyword "self" ⟨1⟩, .positional ⟨2⟩,
        .keyword "color" ⟨4⟩] (some ⟨5⟩))
    let call : OrderedCall :=
      { positionals := [.known ⟨0⟩ (.singleton ⟨3⟩), .node ⟨1⟩ ⟨0⟩, .node ⟨2⟩ ⟨2⟩]
        keywords := [("self", .node ⟨3⟩ ⟨1⟩), ("color", .node ⟨4⟩ ⟨4⟩)] }
    ∃ declaration bound reported after,
      Engine.ofEveryKind.declarations.function? ⟨0⟩ = some declaration ∧
      declaration.IsOrdered ∧ arguments.IsOrdered ∧ call.NamesNoCollector declaration ∧
      Engine.ofEveryKind.bind ⟨0⟩ arguments {} { arena := .empty } =
        .ok ((bound, reported), after) ∧
      bound.length = 5 ∧
      ∀ (index : Nat) (parameter : Parameter),
        declaration.parameters[index]? = some parameter →
        ∃ result, bound[index]? = some result ∧ result.IsFor ⟨0⟩ parameter index ∧
          result.Follows declaration call [("color", .node ⟨4⟩ ⟨4⟩)] parameter index := by
  intro arguments call
  have declared : Engine.ofEveryKind.declarations.function? ⟨0⟩ = some _ := rfl
  have ordered : arguments.IsOrdered := by
    simp [arguments, Arguments.IsOrdered, Argument.isPositional]
  have rule := bind_follows_rule declared (by decide) arguments {} { arena := .empty }
  obtain ⟨bound, reported, after, binds⟩ :=
    (rule.2 _ _ _ rfl).2 call rfl (by decide) (by decide)
  exact ⟨_, bound, reported, after, declared, by decide, ordered, by decide, binds⟩

/--
With diagnostics on and a sink that records, binding such a call adds exactly the
problems of the call to what unpacking has reported: nothing if and only if the call
fits the parameters.
-/
theorem bind_reports_problems
    {engine : Engine}
    (reporting : engine.settings.reportsDiagnostics = true)
    {function : FunctionId}
    {declaration : FunctionDeclaration}
    (declared : engine.declarations.function? function = some declaration)
    (ordered : declaration.IsOrdered)
    {arguments : Arguments}
    {sink noted : Diagnostics}
    (recording : sink.discards = false)
    {state unpacked : State}
    {call : OrderedCall}
    (unpacks : engine.unpack arguments (some function) sink state =
      .ok ((call.stream, noted), unpacked))
    (single : call.NamesNoCollector declaration) :
    ∃ bound after repeated,
      call.Repeats declaration repeated ∧
      engine.bind function arguments sink state =
        .ok ((bound,
          { noted with
            items := noted.items ++ call.problems declaration arguments.callSite? repeated }),
          after) ∧
      (call.problems declaration arguments.callSite? repeated = [] ↔ call.Fits declaration) := by
  obtain ⟨binder, after, rfl, binds⟩ := engine.bind_eq_ok declared unpacks
  have read := Binder.read_bindStream ordered single function arguments.callSite?
    unpacked.cells.size
  have given : call.stream.length = call.size := by
    simp [OrderedCall.stream, OrderedCall.size, Supplied.ofPositionals, Supplied.ofKeywords]
  obtain ⟨repeated, repeats, issues⟩ := Binder.Read.issues read given
  have records : noted.discards = false :=
    ((engine.ensures_unpack (some function) arguments sink state _ unpacked unpacks).2).trans
      recording
  rw [Engine.recorded, if_pos (by simp [reporting, records]), Binder.bindStream, issues] at binds
  exact ⟨_, after, repeated, repeats, binds, OrderedCall.problems_eq_nil_iff repeats _⟩

/-- A call with a repetition, an unexpected keyword and a position too many. -/
theorem bind_reports_problems_of_strict :
    let arguments : Arguments :=
      .written [.positional ⟨0⟩, .positional ⟨1⟩, .keyword "item" ⟨2⟩, .keyword "color" ⟨3⟩]
        (some ⟨4⟩)
    let call : OrderedCall :=
      { positionals := [.node ⟨0⟩ ⟨0⟩, .node ⟨1⟩ ⟨1⟩]
        keywords := [("item", .node ⟨2⟩ ⟨2⟩), ("color", .node ⟨3⟩ ⟨3⟩)] }
    ∃ declaration bound after repeated,
      Engine.ofEveryKind.declarations.function? ⟨1⟩ = some declaration ∧
      declaration.IsOrdered ∧ call.NamesNoCollector declaration ∧
      call.Repeats declaration repeated ∧
      Engine.ofEveryKind.bind ⟨1⟩ arguments {} { arena := .empty } =
        .ok ((bound, { items := call.problems declaration (some ⟨4⟩) repeated }), after) ∧
      (call.problems declaration (some ⟨4⟩) repeated = [] ↔ call.Fits declaration) := by
  intro arguments call
  have declared : Engine.ofEveryKind.declarations.function? ⟨1⟩ = some _ := rfl
  have unpacks : Engine.ofEveryKind.unpack arguments (some ⟨1⟩) {} { arena := .empty } =
      .ok ((call.stream, {}), _) := rfl
  obtain ⟨bound, after, repeated, repeats, binds, problems⟩ :=
    bind_reports_problems rfl declared (by decide) rfl unpacks (by decide)
  exact ⟨_, bound, after, repeated, declared, by decide, by decide, repeats, binds, problems⟩

end TypeInference
