import Mathlib.Data.List.Forall2
import TypeInference.Engine.Binding
import TypeInference.Proofs.Binding.Rule

/-!
# Unpacking arguments

Arguments in which nothing positional stands behind a double-starred one supply
positions first and then keywords.  Unpacking always succeeds where no star is written,
and it never turns a sink that records into one that discards.
-/

namespace TypeInference

variable {row : List Supplied}

/-! ## Arguments -/

def Argument.isPositional : Argument → Bool
  | positional _ | starred _ => true
  | keyword _ _ | doubleStarred _ => false

/-- Whether an argument has to be unpacked. -/
def Argument.hasStar : Argument → Bool
  | starred _ | doubleStarred _ => true
  | positional _ | keyword _ _ => false

namespace Arguments

/-- Arguments in which nothing positional is written behind a double-starred argument. -/
def IsOrdered : Arguments → Prop
  | written arguments _ => arguments.Pairwise fun earlier later =>
      (∃ node, earlier = .doubleStarred node) → later.isPositional = false
  | values _ => True
  | bound _ arguments => arguments.IsOrdered

/-- Arguments that are written without stars, or are values. -/
def HasNoStars : Arguments → Prop
  | written arguments _ => ∀ argument ∈ arguments, argument.hasStar = false
  | values _ => True
  | bound _ arguments => arguments.HasNoStars

end Arguments

/-! ## Postconditions -/

namespace Inference

variable {α β : Type}

/-- Whatever a step answers satisfies a condition. -/
def Ensures (step : Inference α) (post : α → Prop) : Prop :=
  ∀ state answer after, step state = .ok (answer, after) → post answer

/-- A step that always answers. -/
def Returns (step : Inference α) : Prop :=
  ∀ state, ∃ answer after, step state = .ok (answer, after)

theorem ensures_pure (holds : post answer) : Ensures (pure answer) post := by
  intro state found after finished
  cases finished
  exact holds

theorem ensures_true (step : Inference α) : Ensures step fun _ => True := fun _ _ _ _ => trivial

variable {first : Inference α} {next visit : α → Inference β} {post : β → Prop}

theorem Ensures.bind (firstEnsures : Ensures first middle)
    (nextEnsures : ∀ answer, middle answer → Ensures (next answer) post) :
    Ensures (first >>= next) post := by
  intro state answer after finished
  obtain ⟨found, between, started, rest⟩ := bind_eq_ok_iff.mp finished
  exact nextEnsures found (firstEnsures state found between started) between answer after rest

theorem ensures_mapM (each : ∀ item, Ensures (visit item) post) (items : List α) :
    Ensures (items.mapM visit) fun answers => ∀ answer ∈ answers, post answer := by
  induction items with
  | nil =>
    simp only [List.mapM_nil]
    exact ensures_pure (by simp)
  | cons item rest ih =>
    simp only [List.mapM_cons]
    refine (each item).bind fun first firstHolds => ?_
    refine ih.bind fun others othersHold => ?_
    exact ensures_pure (List.forall_mem_cons.mpr ⟨firstHolds, othersHold⟩)

/-- Visiting items relates each of them to its answer and keeps the kind of the sink. -/
theorem ensures_throughSink {visit : α → Diagnostics → Inference (β × Diagnostics)}
    (each : ∀ item sink, Ensures (visit item sink) fun answer =>
      related item answer.1 ∧ answer.2.discards = sink.discards)
    (items : List α) (sink : Diagnostics) :
    Ensures (throughSink visit items sink) fun answer =>
      List.Forall₂ related items answer.1 ∧ answer.2.discards = sink.discards := by
  induction items generalizing sink with
  | nil => exact ensures_pure ⟨.nil, rfl⟩
  | cons item rest ih =>
    refine (each item sink).bind fun first firstHolds => ?_
    refine (ih first.2).bind fun others othersHold => ?_
    exact ensures_pure ⟨.cons firstHolds.1 othersHold.1, othersHold.2.trans firstHolds.2⟩

theorem Returns.bind (firstReturns : Returns first)
    (nextReturns : ∀ answer, Returns (next answer)) :
    Returns (first >>= next) := by
  intro state
  obtain ⟨found, between, started⟩ := firstReturns state
  obtain ⟨answer, after, finished⟩ := nextReturns found between
  exact ⟨answer, after, bind_eq_ok_iff.mpr ⟨found, between, started, finished⟩⟩

theorem returns_pure (answer : α) : Returns (pure answer) := fun state => ⟨answer, state, rfl⟩

theorem returns_mapM (each : ∀ item, Returns (visit item)) (items : List α) :
    Returns (items.mapM visit) := by
  induction items with
  | nil =>
    simp only [List.mapM_nil]
    exact returns_pure []
  | cons item rest ih =>
    simp only [List.mapM_cons]
    exact (each item).bind fun _ => ih.bind fun _ => returns_pure _

theorem returns_throughSink {visit : α → Diagnostics → Inference (β × Diagnostics)}
    (each : ∀ item ∈ items, ∀ sink, Returns (visit item sink)) (sink : Diagnostics) :
    Returns (throughSink visit items sink) := by
  induction items generalizing sink with
  | nil => exact returns_pure ([], sink)
  | cons item rest ih =>
    rw [List.forall_mem_cons] at each
    refine (each.1 sink).bind fun first => ?_
    exact (ih each.2 first.2).bind fun _ => returns_pure _

end Inference

/-! ## Rows of supplied values -/

/-- A row holds positions exactly if its argument supplies positions. -/
def Argument.Supplies (argument : Argument) (row : List Supplied) : Prop :=
  ∀ supplied ∈ row, supplied.keyword.isNone = argument.isPositional

namespace Supplied

theorem exists_ofPositionals (positional : ∀ supplied ∈ row, supplied.keyword.isNone = true) :
    ∃ values, row = ofPositionals values := by
  induction row with
  | nil => exact ⟨[], rfl⟩
  | cons supplied rest ih =>
    rw [List.forall_mem_cons] at positional
    obtain ⟨values, rfl⟩ := ih positional.2
    obtain ⟨keyword, value⟩ := supplied
    obtain rfl := Option.isNone_iff_eq_none.mp positional.1
    exact ⟨value :: values, rfl⟩

theorem exists_ofKeywords (named : ∀ supplied ∈ row, supplied.keyword.isNone = false) :
    ∃ entries, row = ofKeywords entries := by
  induction row with
  | nil => exact ⟨[], rfl⟩
  | cons supplied rest ih =>
    rw [List.forall_mem_cons] at named
    obtain ⟨entries, rfl⟩ := ih named.2
    obtain ⟨keyword, value⟩ := supplied
    obtain ⟨name, rfl⟩ := Option.isSome_iff_exists.mp (Option.isNone_eq_false_iff.mp named.1)
    exact ⟨(name, value) :: entries, rfl⟩

/-- Rows of arguments in order hold positions and then keywords. -/
theorem exists_stream_of_rows (aligned : List.Forall₂ Argument.Supplies arguments rows)
    (ordered : arguments.Pairwise fun earlier later =>
      earlier.isPositional = false → later.isPositional = false) :
    ∃ values entries, rows.flatten = ofPositionals values ++ ofKeywords entries ∧
      ((∀ argument ∈ arguments, argument.isPositional = false) → values = []) := by
  induction aligned with
  | nil => exact ⟨[], [], rfl, fun _ => rfl⟩
  | @cons argument row arguments rows supplies restAligned ih =>
    obtain ⟨firstOrdered, restOrdered⟩ := List.pairwise_cons.mp ordered
    obtain ⟨values, entries, restFlatten, nonePositional⟩ := ih restOrdered
    rw [List.flatten_cons, restFlatten]
    cases positional : argument.isPositional with
    | true =>
      obtain ⟨first, rfl⟩ := exists_ofPositionals fun supplied member =>
        (supplies supplied member).trans positional
      refine ⟨first ++ values, entries, by simp [ofPositionals], fun none => ?_⟩
      have contradiction := none argument (by simp)
      rw [positional] at contradiction
      cases contradiction
    | false =>
      obtain ⟨first, rfl⟩ := exists_ofKeywords fun supplied member =>
        (supplies supplied member).trans positional
      -- Everything behind holds keywords as well.
      obtain rfl := nonePositional fun later member => firstOrdered later member positional
      exact ⟨[], first ++ entries, by simp [ofPositionals, ofKeywords], fun _ => rfl⟩

end Supplied

/-! ## Unpacking -/

namespace Engine

open Inference

variable (engine : Engine)

theorem ensures_report (sink : Diagnostics) (diagnostic : Diagnostic) :
    Ensures (engine.report sink diagnostic) fun answer => answer.discards = sink.discards := by
  unfold Engine.report
  split
  · refine (ensures_true _).bind fun _ _ => ensures_pure ?_
    unfold Diagnostics.push
    split <;> rfl
  · exact ensures_pure rfl

section

variable (function : Option FunctionId)

include function

theorem ensures_reportUnpackable (kind : DiagnosticKind) (node : NodeId)
    (message : FunctionDeclaration → String → String) (id : ValueId) (sink : Diagnostics) :
    Ensures (engine.reportUnpackable function kind node message id sink) fun answer =>
      answer.discards = sink.discards := by
  cases function with
  | none => exact ensures_pure rfl
  | some function =>
    refine (ensures_true _).bind fun declaration _ => ?_
    exact (ensures_true _).bind fun text _ => engine.ensures_report sink _

theorem ensures_starredRow (node : NodeId) (id : ValueId) (sink : Diagnostics) :
    Ensures (engine.starredRow function node id sink) fun answer =>
      True ∧ answer.2.discards = sink.discards := by
  refine (ensures_true _).bind fun found _ => ?_
  cases found with
  | some items => exact ensures_pure ⟨trivial, rfl⟩
  | none =>
    exact (engine.ensures_reportUnpackable function _ node _ id sink).bind fun _ same =>
      ensures_pure ⟨trivial, same⟩

theorem ensures_doubleStarredRow (node : NodeId) (id : ValueId) (sink : Diagnostics) :
    Ensures (engine.doubleStarredRow function node id sink) fun answer =>
      (∀ supplied ∈ answer.1, supplied.keyword.isNone = false) ∧
        answer.2.discards = sink.discards := by
  have refuses : Ensures (do
      return ([], ← engine.opaqueEntries function node id sink) :
        Inference (List Supplied × Diagnostics)) fun answer =>
      (∀ supplied ∈ answer.1, supplied.keyword.isNone = false) ∧
        answer.2.discards = sink.discards :=
    (engine.ensures_reportUnpackable function _ node _ id sink).bind fun _ same =>
      ensures_pure ⟨by simp, same⟩
  refine (ensures_true _).bind fun stored _ => ?_
  cases stored with
  | packedDict entries =>
    refine (ensures_mapM (fun entry => ?_) entries).bind fun supplied named =>
      ensures_pure ⟨named, rfl⟩
    exact (ensures_true _).bind fun _ _ => ensures_pure rfl
  | typedDict class_ =>
    refine (ensures_true _).bind fun keys _ => ?_
    refine (ensures_mapM (fun key => ?_) keys).bind fun supplied named => ensures_pure ⟨named, rfl⟩
    exact (ensures_true _).bind fun _ _ => (ensures_true _).bind fun _ _ => ensures_pure rfl
  | instanceOf class_ generics =>
    refine (ensures_true _).bind fun isMapping _ => ?_
    cases isMapping with
    | true =>
      exact (ensures_true _).bind fun _ _ => (ensures_true _).bind fun _ _ =>
        ensures_pure ⟨by simp, rfl⟩
    | false => exact refuses
  | any => exact ensures_pure ⟨by simp, rfl⟩
  | _ => exact refuses

theorem ensures_expandArgument (argument : Argument) (sink : Diagnostics) :
    Ensures (engine.expandArgument function argument sink) fun answer =>
      argument.Supplies answer.1 ∧ answer.2.discards = sink.discards := by
  cases argument with
  | positional node =>
    refine (ensures_true _).bind fun value _ => ensures_pure ⟨?_, rfl⟩
    exact List.forall_mem_singleton.mpr rfl
  | keyword name node => exact ensures_pure ⟨List.forall_mem_nil _, rfl⟩
  | starred node =>
    refine (ensures_true _).bind fun values _ => ?_
    have rowsEnsure : Ensures
        (throughSink (engine.starredRow function node) values.members sink) fun answer =>
          List.Forall₂ (fun _ _ => True) values.members answer.1 ∧
            answer.2.discards = sink.discards :=
      ensures_throughSink (engine.ensures_starredRow function node) values.members sink
    refine rowsEnsure.bind fun rows rowsHold => ?_
    refine (ensures_true _).bind fun merged _ => ensures_pure ⟨?_, rowsHold.2⟩
    intro supplied member
    obtain ⟨value, -, rfl⟩ := List.mem_map.mp member
    rfl
  | doubleStarred node =>
    refine (ensures_true _).bind fun values _ => ?_
    have rowsEnsure : Ensures
        (throughSink (engine.doubleStarredRow function node) values.members sink) fun answer =>
          List.Forall₂ (fun _ row => ∀ supplied ∈ row, supplied.keyword.isNone = false)
            values.members answer.1 ∧ answer.2.discards = sink.discards :=
      ensures_throughSink (engine.ensures_doubleStarredRow function node) values.members sink
    refine rowsEnsure.bind fun rows rowsHold => ensures_pure ⟨?_, rowsHold.2⟩
    have flipped : List.Forall₂
        (fun row (_ : ValueId) => (∀ supplied ∈ row, supplied.keyword.isNone = false) ∧ True)
        rows.1 values.members :=
      rowsHold.1.flip.imp fun _ _ named => ⟨named, trivial⟩
    have named := ((List.forall₂_and_left _ _).mp flipped).1
    intro supplied member
    obtain ⟨row, rowMember, inRow⟩ := List.mem_flatten.mp member
    exact named row rowMember supplied inRow

end

theorem ensures_named (entries : List (String × NodeId)) :
    Ensures
      (entries.mapM fun entry => (do
        return (⟨some entry.1, ← deferNode entry.2⟩ : Supplied) : Inference Supplied))
      fun answers => ∀ supplied ∈ answers, supplied.keyword.isNone = false := by
  refine ensures_mapM (fun entry => ?_) entries
  exact (ensures_true _).bind fun _ _ => ensures_pure rfl

/-- Unpacking arguments in order supplies positions and then keywords. -/
theorem ensures_unpack (function : Option FunctionId) (arguments : Arguments) (sink : Diagnostics) :
    Ensures (engine.unpack arguments function sink) fun answer =>
      (arguments.IsOrdered → ∃ call : OrderedCall, answer.1 = call.stream) ∧
        answer.2.discards = sink.discards := by
  induction arguments generalizing sink with
  | values sets =>
    have suppliedEnsures : Ensures
        (sets.mapM fun set => (do
          return Supplied.ofPositional (← deferKnown set) : Inference Supplied))
        fun answers => ∀ supplied ∈ answers, supplied.keyword.isNone = true := by
      refine ensures_mapM (fun set => ?_) sets
      exact (ensures_true _).bind fun _ _ => ensures_pure rfl
    refine suppliedEnsures.bind fun row positional => ensures_pure ⟨fun _ => ?_, rfl⟩
    obtain ⟨values, rfl⟩ := TypeInference.Supplied.exists_ofPositionals positional
    exact ⟨⟨values, []⟩, (List.append_nil _).symm⟩
  | bound receiver arguments ih =>
    refine (ensures_true _).bind fun first _ => ?_
    refine (ih sink).bind fun others holds => ensures_pure ⟨?_, holds.2⟩
    intro ordered
    obtain ⟨call, same⟩ := holds.1 ordered
    refine ⟨⟨first :: call.positionals, call.keywords⟩, ?_⟩
    rw [same]
    rfl
  | written arguments callSite =>
    have expandedEnsures := ensures_throughSink (engine.ensures_expandArgument function)
      (arguments.filter fun argument => argument.keyword?.isNone) sink
    refine expandedEnsures.bind fun expanded holds => ?_
    refine (ensures_named _).bind fun named namedHolds => ensures_pure ⟨?_, holds.2⟩
    intro ordered
    have othersOrdered : (arguments.filter fun argument => argument.keyword?.isNone).Pairwise
        fun earlier later => earlier.isPositional = false → later.isPositional = false := by
      rw [List.pairwise_filter]
      refine ordered.imp fun {earlier later} precedes unnamed _ notPositional => ?_
      cases earlier with
      | doubleStarred node => exact precedes ⟨node, rfl⟩
      | keyword name node => cases unnamed
      | positional node => cases notPositional
      | starred node => cases notPositional
    obtain ⟨values, entries, flatten, -⟩ :=
      TypeInference.Supplied.exists_stream_of_rows holds.1 othersOrdered
    obtain ⟨namedEntries, rfl⟩ := TypeInference.Supplied.exists_ofKeywords namedHolds
    refine ⟨⟨values, entries ++ namedEntries⟩, ?_⟩
    rw [flatten]
    simp [OrderedCall.stream, TypeInference.Supplied.ofKeywords]

/-! ## Arguments without stars -/

theorem returns_expandArgument (function : Option FunctionId) (plain : argument.hasStar = false)
    (sink : Diagnostics) :
    Returns (engine.expandArgument function argument sink) := by
  have deferReturns : ∀ node, Returns (deferNode node) := fun _ state => ⟨_, _, rfl⟩
  cases argument with
  | positional node => exact (deferReturns node).bind fun _ => returns_pure _
  | keyword name node => exact returns_pure _
  | starred node => cases plain
  | doubleStarred node => cases plain

theorem returns_unpack (function : Option FunctionId) {arguments : Arguments}
    (plain : arguments.HasNoStars) (sink : Diagnostics) :
    Returns (engine.unpack arguments function sink) := by
  have deferKnownReturns : ∀ set, Returns (deferKnown set) := fun _ state => ⟨_, _, rfl⟩
  have deferNodeReturns : ∀ node, Returns (deferNode node) := fun _ state => ⟨_, _, rfl⟩
  induction arguments generalizing sink with
  | values sets =>
    have suppliedReturns := returns_mapM
      (fun set => (deferKnownReturns set).bind fun value =>
        returns_pure (Supplied.ofPositional value)) sets
    exact suppliedReturns.bind fun _ => returns_pure _
  | bound receiver arguments ih =>
    refine (deferKnownReturns (.singleton receiver)).bind fun first => ?_
    exact (ih plain sink).bind fun _ => returns_pure _
  | written arguments callSite =>
    refine (returns_throughSink (fun argument member => ?_) sink).bind fun expanded => ?_
    · exact engine.returns_expandArgument function (plain argument (List.mem_of_mem_filter member))
    · refine (returns_mapM (fun entry => ?_) _).bind fun named => returns_pure _
      exact (deferNodeReturns entry.2).bind fun _ => returns_pure _

end Engine

end TypeInference
