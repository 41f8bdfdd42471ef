import TypeInference.Proofs.Conservation
import TypeInference.Proofs.Replay.Return

/-!
# Annotations of a tree of fixed nodes

If the nodes of a tree are fixed, then what an annotation evaluates to depends on nothing
but the tree and the literals in the arena.  Whatever a request has been asked for, all
that it remembers of annotations is what they evaluate to.
-/

namespace TypeInference

open Inference

variable {node : NodeId} {set : TypeSet} {nodes : List NodeId} {sets : List TypeSet}
  {generics : Generics} {arguments : TypeArguments} {state : State}

theorem mapM_of_forall {β : Type} {items : List α} {first second : α → Option β} {answers : List β}
    (found : items.mapM first = some answers)
    (each : ∀ item ∈ items, ∀ answer, first item = some answer → second item = some answer) :
    items.mapM second = some answers := by
  induction items generalizing answers with
  | nil => exact found
  | cons item rest ih =>
    rw [List.forall_mem_cons] at each
    simp only [List.mapM_cons, bind, Option.bind_eq_some_iff] at found ⊢
    obtain ⟨answer, itemFound, others, restFound, same⟩ := found
    exact ⟨answer, each.1 answer itemFound, others, ih restFound each.2, same⟩

namespace Tree

variable (tree : Tree)

/-- What a string annotation denotes. -/
def followed (source : String) : TypeSet :=
  match tree.references.get? source with
  | some target => tree.fixedSet target
  | none => (tree.names.get? (Text.trim source)).getD ∅

/-- What an annotation evaluates to, if its value has been interned. -/
def hint? (arena : Arena) (node : NodeId) : Option TypeSet :=
  match (tree.fixedSet node).single? with
  | none => some (tree.fixedSet node)
  | some id =>
    match arena.get? id with
    | none => none
    | some (.literal source) => some (tree.followed source)
    | some _ => some (tree.fixedSet node)

/-- The type arguments behind generics, if their values have been interned. -/
def typeArguments? (arena : Arena) : Generics → Option TypeArguments
  | .resolved arguments => some arguments
  | .lazy node =>
    (((tree.subscripts.get? node).getD [node]).mapM (tree.hint? arena)).map .ofSubscript

/-- What is remembered of annotations is what they evaluate to. -/
structure Informs (state : State) : Prop where
  idle : state.nodeGuard.active = []
  hints : ∀ {node set}, state.hints.get? node = some set →
    tree.hint? state.arena node = some set
  subscripts : ∀ {node arguments}, state.subscripts.get? node = some arguments →
    tree.typeArguments? state.arena (.lazy node) = some arguments

/-- A state is informed if an earlier one is. -/
def Informing (state after : State) : Prop :=
  tree.Informs state → tree.Informs after

variable {tree}

/-! ## Arenas that grow -/

section Growth

variable {arena later : Arena} (continues : arena ≤ later)

include continues

theorem hint?_of_le (found : tree.hint? arena node = some set) :
    tree.hint? later node = some set := by
  unfold hint? at found ⊢
  cases single : (tree.fixedSet node).single? with
  | none => simpa only [single] using found
  | some id =>
    simp only [single] at found ⊢
    cases stored? : arena.get? id with
    | none => simp [stored?] at found
    | some stored => simpa only [stored?, Arena.get?_of_le continues stored?] using found

theorem hints?_of_le (found : nodes.mapM (tree.hint? arena) = some sets) :
    nodes.mapM (tree.hint? later) = some sets :=
  mapM_of_forall found fun _ _ _ => hint?_of_le continues

theorem typeArguments?_of_le (found : tree.typeArguments? arena generics = some arguments) :
    tree.typeArguments? later generics = some arguments := by
  cases generics with
  | resolved _ => exact found
  | lazy node =>
    obtain ⟨slots, evaluates, same⟩ := Option.map_eq_some_iff.mp found
    exact Option.map_eq_some_iff.mpr ⟨slots, hints?_of_le continues evaluates, same⟩

end Growth

theorem Informs.intern (informs : tree.Informs state) (stored : Value) :
    tree.Informs { state with arena := (state.arena.intern stored).2 } where
  idle := informs.idle
  hints found := hint?_of_le (Arena.le_intern _ _) (informs.hints found)
  subscripts found := typeArguments?_of_le (Arena.le_intern _ _) (informs.subscripts found)

/-- Whether a state is informed depends on the arena, the annotations and the guard. -/
theorem Informs.of_same (informs : tree.Informs state) (arena : after.arena = state.arena)
    (hints : after.hints = state.hints) (subscripts : after.subscripts = state.subscripts)
    (nodeGuard : after.nodeGuard = state.nodeGuard) :
    tree.Informs after := by
  obtain ⟨idle, hintsInform, subscriptsInform⟩ := informs
  refine ⟨nodeGuard ▸ idle, fun {node set} found => ?_, fun {node arguments} found => ?_⟩
  · rw [arena]
    exact hintsInform (hints ▸ found)
  · rw [arena]
    exact subscriptsInform (subscripts ▸ found)

theorem conserved_informing (tree : Tree) : Conserved tree.Informing where
  refl _ := id
  trans first second := second ∘ first
  aside beside informs :=
    informs.of_same beside.arena beside.hints beside.subscripts beside.nodeGuard
  intern _ stored informs := informs.intern stored

theorem informing_ignoresCalls (tree : Tree) : IgnoresCalls tree.Informing :=
  fun arena hints subscripts nodeGuard informs => informs.of_same arena hints subscripts nodeGuard

end Tree

/-! ## Engines over the tree -/

/-- Nodes that are answered evaluate to what a tree fixes for them. -/
def Engine.Consults (engine : Engine) (tree : Tree) : Prop :=
  ∀ {node : NodeId} {state after : State} {set : TypeSet}, state.nodeGuard.active = [] →
    engine.inferNode node state = .ok (set, after) →
    set = tree.fixedSet node ∧ after = state.askNode

/-- Whether an annotation is a string decides what it evaluates to. -/
theorem hint?_of_literal? {tree : Tree}
    (succeeds : Engine.literal? (tree.fixedSet node) state = .ok (source?, after)) :
    after = state ∧
      tree.hint? state.arena node = some (source?.elim (tree.fixedSet node) tree.followed) := by
  unfold Engine.literal? at succeeds
  unfold Tree.hint?
  cases single : (tree.fixedSet node).single? with
  | none =>
    rw [single] at succeeds
    cases succeeds
    exact ⟨rfl, rfl⟩
  | some id =>
    rw [single] at succeeds
    obtain ⟨stored, between, looked, continued⟩ := bind_eq_ok_iff.mp succeeds
    obtain ⟨found, rfl⟩ := value_eq_ok_iff.mp looked
    simp only [found]
    cases stored <;> cases continued <;> exact ⟨rfl, rfl⟩

section Engines

variable {tree : Tree} {engine : Engine}
  (provider : engine.provider = tree.fixedProvider)
  (consults : engine.Consults tree)
  {state after : State}

include provider consults

/-- What a string annotation denotes adds nothing. -/
theorem quiet_followReference (idle : state.nodeGuard.active = [])
    (succeeds : engine.followReference node source state = .ok (set, after)) :
    set = tree.followed source ∧ state.Quiet after := by
  unfold Engine.followReference at succeeds
  unfold Tree.followed
  rw [provider] at succeeds
  have reference : tree.fixedProvider.forwardReference? source = tree.references.get? source := rfl
  rw [reference] at succeeds
  cases target? : tree.references.get? source with
  | some target =>
    rw [target?] at succeeds
    obtain ⟨rfl, rfl⟩ := consults idle succeeds
    exact ⟨rfl, ⟨rfl, rfl, rfl, rfl, rfl, rfl⟩, rfl, rfl, rfl⟩
  | none =>
    rw [target?] at succeeds
    obtain ⟨resolved, _, ⟨⟩, continued⟩ := bind_eq_ok_iff.mp succeeds
    by_cases unknown : ((tree.names.get? (Text.trim source)).getD ∅ : TypeSet).isEmpty = true
    · rw [if_pos unknown] at continued
      cases continued
      exact ⟨rfl, ⟨rfl, rfl, rfl, rfl, rfl, rfl⟩, rfl, rfl, rfl⟩
    · rw [if_neg unknown] at continued
      cases continued
      exact ⟨rfl, .refl _⟩

/-- An annotation is evaluated, which adds nothing. -/
theorem quiet_evaluateHint (idle : state.nodeGuard.active = [])
    (succeeds : engine.evaluateHint node state = .ok (set, after)) :
    tree.hint? state.arena node = some set ∧ state.Quiet after := by
  obtain ⟨values, asked, inferred, continued⟩ := bind_eq_ok_iff.mp succeeds
  obtain ⟨rfl, rfl⟩ := consults idle inferred
  obtain ⟨source?, _, read, continued⟩ := bind_eq_ok_iff.mp continued
  obtain ⟨rfl, evaluates⟩ := hint?_of_literal? read
  have askQuiet : state.Quiet state.askNode := ⟨⟨rfl, rfl, rfl, rfl, rfl, rfl⟩, rfl, rfl, rfl⟩
  cases source? with
  | none =>
    cases continued
    exact ⟨evaluates, askQuiet⟩
  | some source =>
    have idle : state.askNode.nodeGuard.active = [] := idle
    obtain ⟨rfl, quiet⟩ := quiet_followReference provider consults idle continued
    exact ⟨evaluates, askQuiet.trans quiet⟩

/-- An annotation is read as what it evaluates to. -/
theorem informs_readHint (informs : tree.Informs state)
    (succeeds : engine.readHint node state = .ok (set, after)) :
    tree.hint? state.arena node = some set ∧ after.arena = state.arena ∧ tree.Informs after := by
  have caches := engine.caches_readHint node
  cases known? : state.hints.get? node with
  | some known =>
    cases (caches.known known?).symm.trans succeeds
    exact ⟨informs.hints known?, rfl, informs⟩
  | none =>
    rw [caches.unknown known?] at succeeds
    obtain ⟨⟨_, evaluated⟩, evaluates, ⟨⟩⟩ := Except.map_eq_ok_iff.mp succeeds
    obtain ⟨right, quiet⟩ := quiet_evaluateHint provider consults informs.idle evaluates
    have evaluatedInforms := informs.of_same quiet.arena quiet.hints quiet.subscripts
      quiet.nodeGuard
    refine ⟨right, quiet.arena, evaluatedInforms.idle, fun {other known} found => ?_,
      evaluatedInforms.subscripts⟩
    rcases Table.eq_or_get?_of_get?_insert found with ⟨rfl, rfl⟩ | found
    · rw [quiet.arena]
      exact right
    · exact evaluatedInforms.hints found

theorem informs_readHints (informs : tree.Informs state)
    (succeeds : nodes.mapM engine.readHint state = .ok (sets, after)) :
    nodes.mapM (tree.hint? state.arena) = some sets ∧ after.arena = state.arena ∧
      tree.Informs after := by
  induction nodes generalizing state sets with
  | nil =>
    cases succeeds
    exact ⟨rfl, rfl, informs⟩
  | cons node rest ih =>
    rw [List.mapM_cons] at succeeds
    obtain ⟨first, between, started, continued⟩ := bind_eq_ok_iff.mp succeeds
    obtain ⟨others, _, finished, ⟨⟩⟩ := bind_eq_ok_iff.mp continued
    obtain ⟨evaluates, same, betweenInforms⟩ := informs_readHint provider consults informs started
    obtain ⟨evaluateOthers, sameAfter, afterInforms⟩ := ih betweenInforms finished
    rw [same] at evaluateOthers
    refine ⟨?_, sameAfter.trans same, afterInforms⟩
    simp [List.mapM_cons, evaluates, evaluateOthers]

/-- The type arguments behind generics are what their annotations evaluate to. -/
theorem informs_typeArguments (informs : tree.Informs state)
    (succeeds : engine.typeArguments generics state = .ok (arguments, after)) :
    tree.typeArguments? state.arena generics = some arguments ∧ after.arena = state.arena ∧
      tree.Informs after := by
  cases generics with
  | resolved _ =>
    cases succeeds
    exact ⟨rfl, rfl, informs⟩
  | lazy node =>
    have caches := engine.caches_typeArguments node
    cases known? : state.subscripts.get? node with
    | some known =>
      cases (caches.known known?).symm.trans succeeds
      exact ⟨informs.subscripts known?, rfl, informs⟩
    | none =>
      rw [caches.unknown known?] at succeeds
      obtain ⟨⟨slots, between⟩, read, ⟨⟩⟩ := Except.map_eq_ok_iff.mp succeeds
      obtain ⟨evaluate, same, betweenInforms⟩ := informs_readHints provider consults informs read
      rw [provider] at evaluate
      have right : tree.typeArguments? state.arena (.lazy node) =
          some (TypeArguments.ofSubscript slots) :=
        Option.map_eq_some_iff.mpr ⟨slots, evaluate, rfl⟩
      refine ⟨right, same, betweenInforms.idle, betweenInforms.hints, fun {other known} found => ?_⟩
      rcases Table.eq_or_get?_of_get?_insert found with ⟨rfl, rfl⟩ | found
      · exact same ▸ right
      · exact betweenInforms.subscripts found

end Engines

theorem Environment.consults_stage {env : Environment} {tree : Tree}
    (provider : env.provider = tree.fixedProvider) (fuel : Nat) :
    (env.stage fuel).Consults tree := by
  intro node state after set idle inferred
  cases fuel with
  | zero => cases inferred
  | succ fuel =>
    rw [Engine.inferNode, env.ask_stage_succ] at inferred
    cases (inferNodeOnce_eq provider fuel node idle).symm.trans inferred
    exact ⟨rfl, rfl⟩

/-- Whatever is asked for, what is remembered of annotations is what they evaluate to. -/
theorem Environment.abides_informing {env : Environment} {tree : Tree}
    (provider : env.provider = tree.fixedProvider) (fuel : Nat) :
    (env.stage fuel).Abides tree.Informing := by
  refine env.abides_stage tree.conserved_informing (fun fuel asks => ?_) fuel
  have consults : (env.stage fuel).Consults tree := consults_stage provider fuel
  have reads : (env.stage fuel).Reads tree.Informing :=
    ⟨asks,
      fun _ _ _ _ succeeds informs => (informs_readHint provider consults informs succeeds).2.2,
      fun _ _ _ _ succeeds informs =>
        (informs_typeArguments provider consults informs succeeds).2.2⟩
  refine ⟨reads, fun node => ?_,
    conserves_returnType tree.conserved_informing reads tree.informing_ignoresCalls⟩
  intro state set after succeeds informs
  cases (inferNodeOnce_eq provider fuel node informs.idle).symm.trans succeeds
  exact informs.of_same rfl rfl rfl rfl

end TypeInference
