import TypeInference.Proofs.Binding.Accounting
import TypeInference.Proofs.Judgement.Request

/-!
# What collecting parameters hold

A starred parameter packs positional values in their order, and a double-starred one packs
keywords that name no parameter.  Keywords are matched against the names of all parameters,
however, and a keyword that names a collecting parameter supplies it like any other: then the
parameter holds what the keyword supplies.
-/

namespace TypeInference

open Inference

variable {declaration : FunctionDeclaration} {state : State}

/-! ## Packs -/

namespace Deferred

/--
A deferred value that packs what a stream supplies for a kind of collecting parameters:
positional values in their order, or keywords that differ and that name no parameter.
-/
inductive Packs (declaration : FunctionDeclaration) (stream : List Supplied) :
    ParameterKind → Deferred → Prop
  | tuple {cell : CellId} {items : List Deferred}
      (ordered : items.Sublist
        ((stream.filter fun supplied => supplied.keyword.isNone).map Supplied.value)) :
      Packs declaration stream .starred (.packedTuple cell items)
  | dict {cell : CellId} {entries : List (String × Deferred)}
      (distinct : (entries.map Prod.fst).Nodup)
      (unmatched : ∀ entry ∈ entries, declaration.parameter? entry.1 = none ∧
        ⟨some entry.1, entry.2⟩ ∈ stream) :
      Packs declaration stream .doubleStarred (.packedDict cell entries)

/-- The value that a keyword of a stream supplies, or a merge of it with others. -/
inductive IsNamed (name : String) (stream : List Supplied) : Deferred → Prop
  | value {supplied : Supplied} (member : supplied ∈ stream)
      (named : supplied.keyword = some name) : IsNamed name stream supplied.value
  | merged {supplied : Supplied} {cell : CellId} {parts : List Deferred}
      (member : supplied ∈ stream) (named : supplied.keyword = some name)
      (isPart : supplied.value ∈ parts) : IsNamed name stream (.merged cell parts)

end Deferred

/-- A step does what its parts do, and then answers with one value, the pack of their answers. -/
def Inference.YieldsPack {α : Type} (step : Inference TypeSet) (parts : Inference α)
    (pack : α → Value) (state : State) : Prop :=
  (∀ fault, parts state = .error fault → step state = .error fault) ∧
  ∀ answers between, parts state = .ok (answers, between) →
    ∃ id after, step state = .ok (.singleton id, after) ∧
      after.arena.get? id = some (pack answers)

namespace Engine

/-- A deferred value stands for one value, the pack of what its parts stand for. -/
def ResolvesToPack (engine : Engine) (state : State) : Deferred → Prop
  | .packedTuple cell items =>
    YieldsPack (engine.resolve (.packedTuple cell items)) (engine.resolveAll items)
      Value.packedTuple state
  | .packedDict cell entries =>
    YieldsPack (engine.resolve (.packedDict cell entries)) (engine.resolveEntries entries)
      Value.packedDict state
  | .node _ _ | .known _ _ | .unknown _ | .merged _ _ => False

/-- A cell without an answer takes the pack that is interned for it. -/
theorem yieldsPack_remember (unanswered : (state.cells[cell.index]?).join = none)
    (parts : Inference α) (pack : α → Value) :
    YieldsPack (remember cell (parts >>= fun answers => internSet (pack answers))) parts pack
      state := by
  have computes : remember cell (parts >>= fun answers => internSet (pack answers)) state =
      (parts >>= fun answers => internSet (pack answers) >>= fun answer =>
        fillCell cell answer >>= fun _ => pure answer) state := by
    have looked : cellAnswer? cell state = .ok (none, state) := by rw [cellAnswer?, unanswered]
    exact (bind_of_ok looked).trans (congrFun (bind_assoc parts _ _) state)
  constructor
  · intro fault failed
    rw [computes]
    change (parts state).bind _ = _
    rw [failed]
    rfl
  · intro answers between finished
    rw [computes, bind_of_ok finished]
    exact ⟨_, _, rfl, Arena.get?_intern between.arena (pack answers)⟩

theorem resolvesToPack (engine : Engine) {stream : List Supplied} {kind : ParameterKind}
    {value : Deferred} (packs : value.Packs declaration stream kind)
    (unanswered : (state.cells[value.cell.index]?).join = none) :
    engine.ResolvesToPack state value := by
  cases packs with
  | tuple =>
    rw [ResolvesToPack, resolve]
    exact yieldsPack_remember unanswered _ Value.packedTuple
  | dict =>
    rw [ResolvesToPack, resolve]
    exact yieldsPack_remember unanswered _ Value.packedDict

end Engine

/-! ## Moves -/

namespace Binder

variable {binder after : Binder} {stream : List Supplied} {parameter : Parameter} {index : Nat}

/-- A move only takes values out of the stream. -/
theorem Moves.sublist (moves : binder.Moves after) : after.stream.Sublist binder.stream := by
  cases moves with
  | leave ahead | supply ahead | widen ahead =>
    rw [ahead]
    exact (List.sublist_cons_self _ _).append_left _
  | reuse | doubleStarred | missing => exact .refl _
  | position _ _ ahead =>
    rw [ahead]
    exact List.sublist_cons_self _ _
  | starred => exact List.dropWhile_sublist _

theorem mem_of_ahead (sublist : binder.stream.Sublist stream)
    (ahead : binder.stream = before ++ supplied :: rest) :
    supplied ∈ stream := by
  refine sublist.subset ?_
  rw [ahead]
  exact List.mem_append_right _ List.mem_cons_self

/-- The keywords that wait differ, name no parameter and are supplied. -/
structure Waits (stream : List Supplied) (binder : Binder) : Prop where
  distinct : (binder.unmatched.entries.map Prod.fst).Nodup
  unmatched : ∀ entry ∈ binder.unmatched.entries,
    binder.declaration.parameter? entry.1 = none ∧ ⟨some entry.1, entry.2⟩ ∈ stream

theorem Waits.of_moves (waits : binder.Waits stream) (moves : binder.Moves after)
    (sublist : binder.stream.Sublist stream) :
    after.Waits stream := by
  cases moves with
  | @leave before rest supplied keyword ahead _ named unknown =>
    refine ⟨Table.nodup_map_fst_insert waits.distinct keyword supplied.value, ?_⟩
    intro entry member
    rcases Table.eq_or_mem_of_mem_insert member with rfl | before
    · exact ⟨unknown, named ▸ mem_of_ahead sublist ahead⟩
    · exact waits.unmatched entry before
  | doubleStarred => exact ⟨List.nodup_nil, List.forall_mem_nil _⟩
  | _ => exact ⟨waits.distinct, waits.unmatched⟩

/-- A collecting parameter that no keyword of the stream names is given a value by collecting. -/
theorem Moves.packs (moves : binder.Moves after) (sublist : binder.stream.Sublist stream)
    (distinct : (binder.declaration.parameters.map Parameter.name).Nodup)
    (waits : binder.Waits stream) (declared : binder.declaration.Lists index parameter)
    (collects : parameter.kind.collects = true)
    (unnamed : ∀ supplied ∈ stream, supplied.keyword ≠ some parameter.name)
    (found : after.used.get? parameter.name = some bound) :
    binder.used.get? parameter.name = some bound ∨
      bound.value.Packs binder.declaration stream parameter.kind ∧
        bound.value.cell = ⟨binder.nextCell⟩ := by
  have same {other : Parameter} {place : Nat}
      (isAt : binder.declaration.Lists place other)
      (sameName : parameter.name = other.name) : parameter = other := by
    cases FunctionDeclaration.index_eq_of_name distinct declared isAt sameName
    exact Option.some.inj (declared.symm.trans isAt)
  cases moves with
  | leave | reuse | missing => exact .inl found
  | supply ahead _ named looked =>
    refine (Table.eq_or_get?_of_get?_insert found).elim (fun inserted => ?_) .inl
    rw [(FunctionDeclaration.getElem?_of_parameter? looked).2] at inserted
    exact absurd (inserted.1 ▸ named) (unnamed _ (mem_of_ahead sublist ahead))
  | widen ahead _ named =>
    refine (Table.eq_or_get?_of_get?_insert found).elim (fun inserted => ?_) .inl
    exact absurd (inserted.1 ▸ named) (unnamed _ (mem_of_ahead sublist ahead))
  | position isAt _ _ _ single =>
    refine (Table.eq_or_get?_of_get?_insert found).elim (fun inserted => ?_) .inl
    rw [← same isAt inserted.1, collects] at single
    cases single
  | starred isAt _ kind =>
    rcases Table.eq_or_get?_of_get?_insert found with ⟨sameName, rfl⟩ | before
    · rw [same isAt sameName, kind]
      refine .inr ⟨.tuple (List.Sublist.map _ ?_), rfl⟩
      have positional : (binder.stream.takeWhile fun supplied => supplied.keyword.isNone).filter
          (fun supplied => supplied.keyword.isNone) =
            binder.stream.takeWhile fun supplied => supplied.keyword.isNone :=
        List.filter_eq_self.mpr (List.all_eq_true.mp List.all_takeWhile)
      rw [← positional]
      exact ((List.takeWhile_sublist _).trans sublist).filter _
    · exact .inl before
  | doubleStarred isAt kind =>
    rcases Table.eq_or_get?_of_get?_insert found with ⟨sameName, rfl⟩ | before
    · rw [same isAt sameName, kind]
      exact .inr ⟨.dict waits.distinct waits.unmatched, rfl⟩
    · exact .inl before

/-- A keyword is ahead, or its parameter holds what it supplies. -/
def Awaits (stream : List Supplied) (name : String) (binder : Binder) : Prop :=
  (∃ supplied ∈ binder.stream, supplied.keyword = some name) ∨
    ∃ bound, binder.used.get? name = some bound ∧ bound.value.IsNamed name stream

/-- A keyword that is taken out of the stream is given to the parameter that it names. -/
theorem Awaits.of_moves (awaits : binder.Awaits stream name) (moves : binder.Moves after)
    (sublist : binder.stream.Sublist stream) (known : binder.declaration.parameter? name ≠ none) :
    after.Awaits stream name := by
  have kept {before rest : List Supplied} {supplied : Supplied} {keyword : String}
      (ahead : binder.stream = before ++ supplied :: rest)
      (named : supplied.keyword = some keyword)
      (different : name ≠ keyword) :
      Awaits stream name { binder with stream := before ++ rest } := by
    refine awaits.imp_left fun ⟨other, member, isNamed⟩ => ⟨other, ?_, isNamed⟩
    rw [ahead, List.mem_append, List.mem_cons] at member
    rcases member with inBefore | rfl | inRest
    · exact List.mem_append_left _ inBefore
    · exact absurd (Option.some.inj (isNamed.symm.trans named)) different
    · exact List.mem_append_right _ inRest
  have insert {key : String} (bound : BoundParameter) (different : name ≠ key) :
      (binder.used.insert key bound).get? name = binder.used.get? name :=
    Table.get?_insert_of_ne _ different _
  have appended {key : String} (unused : binder.used.get? key = none) (bound : BoundParameter)
      (ahead : ∀ supplied ∈ binder.stream, supplied.keyword = some name → supplied ∈ after.stream)
      (used : after.used = binder.used.insert key bound) : after.Awaits stream name := by
    refine Or.imp (fun ⟨other, member, isNamed⟩ => ⟨other, ahead other member isNamed, isNamed⟩)
      (fun ⟨held, found, isNamed⟩ => ⟨held, ?_, isNamed⟩) awaits
    rw [used, insert bound, found]
    rintro rfl
    cases unused.symm.trans found
  cases moves with
  | leave ahead _ named unknown => exact kept ahead named fun same => known (same ▸ unknown)
  | @supply before rest supplied keyword parameter index ahead _ named looked =>
    have isName := (FunctionDeclaration.getElem?_of_parameter? looked).2
    by_cases same : name = keyword
    · subst same isName
      refine .inr ⟨_, Table.get?_insert_self _ _ _, ?_⟩
      exact .value (mem_of_ahead sublist ahead) named
    · rw [Awaits, Binder.supply, insert _ (isName ▸ same)]
      exact kept ahead named same
  | @widen before rest supplied keyword parameter index existing ahead _ named =>
    by_cases same : name = keyword
    · subst same
      refine .inr ⟨_, Table.get?_insert_self _ _ _, ?_⟩
      exact .merged (mem_of_ahead sublist ahead) named (by simp)
    · rw [Awaits, Binder.widen, insert _ same]
      exact kept ahead named same
  | reuse | missing => exact awaits
  | @position parameter supplied rest _ unused ahead positional =>
    refine appended unused _ (fun other member isNamed => ?_) rfl
    rw [ahead] at member
    rcases List.mem_cons.mp member with rfl | inRest
    · cases positional.symm.trans isNamed
    · exact inRest
  | starred _ unused =>
    refine appended unused _ (fun other member isNamed => ?_) rfl
    have isKept : other ∈ (binder.stream.dropWhile fun supplied =>
        supplied.keyword.isNone).filter Supplied.isNamed := by
      rw [filter_isNamed_dropWhile]
      exact List.mem_filter.mpr ⟨member, by simp [Supplied.isNamed, isNamed]⟩
    exact (List.mem_filter.mp isKept).1
  | doubleStarred _ _ unused => exact appended unused _ (fun _ member _ => member) rfl

/-! ## Whole streams -/

/-- What a binder that began with a stream has made of collecting parameters so far. -/
structure Gathers (start : Nat) (stream : List Supplied) (binder : Binder) : Prop where
  places : binder.Places start
  sublist : binder.stream.Sublist stream
  waits : binder.Waits stream
  packs : ∀ (index : Nat) (parameter : Parameter) (bound : BoundParameter),
    binder.declaration.parameters[index]? = some parameter → parameter.kind.collects = true →
    (∀ supplied ∈ stream, supplied.keyword ≠ some parameter.name) →
    binder.used.get? parameter.name = some bound →
    bound.value.Packs binder.declaration stream parameter.kind ∧ start ≤ bound.value.cell.index
  awaits : ∀ name, binder.declaration.parameter? name ≠ none →
    (∃ supplied ∈ stream, supplied.keyword = some name) → binder.Awaits stream name

theorem Gathers.of_moves {start : Nat} (gathers : binder.Gathers start stream)
    (distinct : (binder.declaration.parameters.map Parameter.name).Nodup)
    (moves : binder.Moves after) :
    after.Gathers start stream where
  places := gathers.places.of_moves distinct moves
  sublist := moves.sublist.trans gathers.sublist
  waits := gathers.waits.of_moves moves gathers.sublist
  packs := by
    intro index parameter bound declared collects unnamed found
    rw [moves.declaration] at declared ⊢
    rcases moves.packs gathers.sublist distinct gathers.waits declared collects unnamed found with
      before | ⟨packs, begun⟩
    · exact gathers.packs index parameter bound declared collects unnamed before
    · exact ⟨packs, begun ▸ gathers.places.starts⟩
  awaits := by
    intro name known named
    rw [moves.declaration] at known
    exact (gathers.awaits name known named).of_moves moves gathers.sublist known

theorem gathers_of_moves {function : FunctionId}
    (distinct : (declaration.parameters.map Parameter.name).Nodup) {callSite : Option NodeId}
    {nextCell : Nat}
    (moves : Relation.ReflTransGen Moves (start function declaration callSite stream nextCell)
      binder) :
    binder.Gathers nextCell stream := by
  induction moves with
  | refl =>
    exact
      { places := places_start _ _ _ _ _
        sublist := .refl _
        waits := ⟨List.nodup_nil, List.forall_mem_nil _⟩
        packs := fun _ _ _ _ _ _ found => by cases found
        awaits := fun _ _ named => .inl named }
  | tail moves move ih =>
    obtain rfl := declaration_of_moves moves
    exact ih.of_moves distinct move

/-- What a collecting parameter holds when a stream is bound. -/
theorem collecting_bindStream (distinct : (declaration.parameters.map Parameter.name).Nodup)
    (declared : declaration.Lists index parameter)
    (collects : parameter.kind.collects = true) (function : FunctionId) (callSite : Option NodeId)
    (stream : List Supplied) (nextCell : Nat) :
    ∃ held, (bindStream function declaration callSite stream nextCell).result[index]? = some held ∧
      held.index = index ∧
      ((∀ supplied ∈ stream, supplied.keyword ≠ some parameter.name) →
        held.value.Packs declaration stream parameter.kind ∧ nextCell ≤ held.value.cell.index) ∧
      ((∃ supplied ∈ stream, supplied.keyword = some parameter.name) →
        held.value.IsNamed parameter.name stream) := by
  obtain ⟨binder, moves, complete, finishes⟩ :=
    moves_bindStream function declaration callSite stream nextCell
  have gathers := gathers_of_moves distinct moves
  have same : binder.drainKeywords.declaration = declaration := declaration_of_moves moves
  have isBound : index < binder.drainKeywords.result.length := by
    rw [complete]
    exact (List.getElem?_eq_some_iff.mp declared).1
  rw [finishes, result_finish]
  rw [← same] at declared ⊢
  have found := List.getElem?_eq_getElem isBound
  have used : binder.drainKeywords.used.get? parameter.name =
      some binder.drainKeywords.result[index] := by
    refine (gathers.places.filled index parameter _ declared found).resolve_right ?_
    rintro ⟨-, -, -, single⟩
    rw [collects] at single
    cases single
  refine ⟨_, found, gathers.places.indexed index _ found, fun unnamed =>
    gathers.packs index parameter _ declared collects unnamed used, fun named => ?_⟩
  have known : binder.drainKeywords.declaration.parameter? parameter.name ≠ none := fun unknown =>
    (FunctionDeclaration.parameter?_eq_none_iff _ _).mp unknown index parameter declared rfl
  rcases gathers.awaits parameter.name known named with
    ⟨supplied, member, isNamed⟩ | ⟨bound, isUsed, isNamed⟩
  · have positional : supplied.keyword.isNone = true := (List.mem_filter.mp member).2
    rw [isNamed] at positional
    cases positional
  · cases used.symm.trans isUsed
    exact isNamed

end Binder

/-! ## Whole calls -/

/--
Let the parameters of a function have names of their own.  If the arguments of a call unpack,
then binding returns.  A collecting parameter that no keyword of the unpacked stream names
holds a pack of its kind, which resolves to a single value, the pack of what its parts resolve
to.  One that is named by keywords holds the value of such a keyword, or a merge of it.
-/
theorem collecting_parameter_packs_unless_named
    {environment : Environment}
    {function : FunctionId}
    {declaration : FunctionDeclaration}
    (declared : environment.declarations.function? function = some declaration)
    (distinct : (declaration.parameters.map Parameter.name).Nodup)
    {arguments : Arguments}
    {sink noted : Diagnostics}
    {fuel : Nat}
    {state unpacked : State}
    {stream : List Supplied}
    (unpacks : environment.answer fuel (.unpack arguments (some function) sink) state =
      .ok ((stream, noted), unpacked)) :
    ∃ bound reported after,
      environment.answer fuel (.bind function arguments sink) state =
        .ok ((bound, reported), after) ∧
      ∀ (index : Nat) (parameter : Parameter), declaration.parameters[index]? = some parameter →
        parameter.kind.collects = true →
        ∃ held, bound[index]? = some held ∧ held.index = index ∧
          ((∀ supplied ∈ stream, supplied.keyword ≠ some parameter.name) →
            held.value.Packs declaration stream parameter.kind ∧
            ∀ more, (environment.engine more).ResolvesToPack after held.value) ∧
          ((∃ supplied ∈ stream, supplied.keyword = some parameter.name) →
            held.value.IsNamed parameter.name stream) := by
  rw [Environment.answer, ← environment.stage_eq_engine] at unpacks
  rw [Environment.answer, ← environment.stage_eq_engine]
  rw [← environment.stage_toEnvironment fuel] at declared
  obtain ⟨binder, after, rfl, binds, unanswered⟩ :=
    Engine.bind_eq_ok_unanswered declared unpacks
  refine ⟨_, _, after, binds, fun index parameter isDeclared collects => ?_⟩
  obtain ⟨held, found, isAt, packs, named⟩ := Binder.collecting_bindStream distinct isDeclared
    collects function arguments.callSite? stream unpacked.cells.size
  refine ⟨held, found, isAt, fun unnamed => ?_, named⟩
  obtain ⟨isPack, begun⟩ := packs unnamed
  exact ⟨isPack, fun more => (environment.engine more).resolvesToPack isPack (unanswered _ begun)⟩

/-- A call with a surplus of positions, one of whose keywords names a collecting parameter. -/
theorem collecting_parameter_packs_unless_named_of_mixed :
    let environment := Engine.ofEveryKind.toEnvironment
    let arguments : Arguments :=
      .written [.positional ⟨0⟩, .positional ⟨1⟩, .positional ⟨2⟩, .keyword "options" ⟨3⟩] none
    let stream : List Supplied :=
      [⟨none, .node ⟨0⟩ ⟨0⟩⟩, ⟨none, .node ⟨1⟩ ⟨1⟩⟩, ⟨none, .node ⟨2⟩ ⟨2⟩⟩,
        ⟨some "options", .node ⟨3⟩ ⟨3⟩⟩]
    ∃ declaration unpacked bound reported after rest options,
      environment.declarations.function? ⟨0⟩ = some declaration ∧
      (declaration.parameters.map Parameter.name).Nodup ∧
      environment.answer 0 (.unpack arguments (some ⟨0⟩) {}) { arena := .empty } =
        .ok ((stream, {}), unpacked) ∧
      environment.answer 0 (.bind ⟨0⟩ arguments {}) { arena := .empty } =
        .ok ((bound, reported), after) ∧
      bound[2]? = some rest ∧ rest.value.Packs declaration stream .starred ∧
      (∀ more, (environment.engine more).ResolvesToPack after rest.value) ∧
      bound[4]? = some options ∧ options.value.IsNamed "options" stream := by
  intro environment arguments stream
  have declared : environment.declarations.function? ⟨0⟩ = some _ := rfl
  have unpacks : environment.answer 0 (.unpack arguments (some ⟨0⟩) {}) { arena := .empty } =
      .ok ((stream, {}), _) := rfl
  obtain ⟨bound, reported, after, binds, holds⟩ :=
    collecting_parameter_packs_unless_named declared (by decide) unpacks
  obtain ⟨rest, restFound, -, packs, -⟩ := holds 2 _ rfl rfl
  obtain ⟨options, optionsFound, -, -, named⟩ := holds 4 _ rfl rfl
  obtain ⟨isPack, resolves⟩ := packs (by decide)
  exact ⟨_, _, bound, reported, after, rest, options, declared, by decide, unpacks, binds,
    restFound, isPack, resolves, optionsFound, named (by decide)⟩

/-- An environment with one function, which collects positions and keywords. -/
def Environment.ofCollectors : Environment where
  declarations.functions := #[
    { name := "f"
      parameters := [{ name := "args", kind := .starred }, { name := "kw", kind := .doubleStarred }] }]
  provider := { inferNode := fun _ => .done ∅ }

/-- A keyword that names a starred parameter is its value, and is packed nowhere. -/
theorem starred_parameter_holds_named_value :
    let arguments : Arguments := .written [.keyword "args" ⟨0⟩] none
    let args : BoundParameter := ⟨⟨0⟩, 0, "args", .starred, .node ⟨0⟩ ⟨0⟩, false⟩
    let kw : BoundParameter := ⟨⟨0⟩, 1, "kw", .doubleStarred, .packedDict ⟨1⟩ [], false⟩
    ∃ after,
      Environment.ofCollectors.answer 0 (.bind ⟨0⟩ arguments {}) { arena := .empty } =
        .ok (([args, kw], {}), after) := by
  intro arguments args kw
  let environment := Environment.ofCollectors
  have declared : environment.declarations.function? ⟨0⟩ = some _ := rfl
  have unpacks : environment.answer 0 (.unpack arguments (some ⟨0⟩) {}) { arena := .empty } =
      .ok (([⟨some "args", .node ⟨0⟩ ⟨0⟩⟩], {}), _) := rfl
  obtain ⟨binder, after, bound, binds, -⟩ := Engine.bind_eq_ok_unanswered declared unpacks
  have result : binder.result = [args, kw] := by
    rw [bound]
    rfl
  have issues : binder.issues = [] := by
    rw [bound]
    rfl
  rw [result, issues] at binds
  exact ⟨after, binds⟩

end TypeInference
