import TypeInference.Proofs.Judgement.Ancestry
import TypeInference.Proofs.Substitution

/-!
# Steps from one request

What a step does may depend on the values that a request has stored, and not only on
how many there are.  A step reaches an answer from one request when it leads to
acceptable outcomes in which the answer is as promised of the request that is left
behind.  The rules of this module say this of sequences and loops, and of the few steps
whose answer is known exactly.
-/

namespace TypeInference

variable {id : ValueId} {stored : Value}

namespace Inference

variable {α β : Type} {state between : State}

theorem bind_of_ok {next : α → Inference β} (succeeds : first state = .ok (answer, between)) :
    (first >>= next) state = next answer between := by
  show (first state >>= fun pair => next pair.1 pair.2) = _
  rw [succeeds]
  rfl

theorem value_of_get? (found : state.arena.get? id = some stored) :
    value id state = .ok (stored, state) := by
  simp [value, found]

theorem unionOver_singleton (setOf : α → Inference TypeSet) (item : α) :
    unionOver setOf [item] = setOf item := by
  simp [unionOver]

theorem mergeOver_singleton (bindingsOf : α → Inference Substitution) (item : α) :
    mergeOver bindingsOf [item] = bindingsOf item := by
  simp [mergeOver]

/-- Iterating over one value resolves what it yields. -/
theorem elementSet_singleton (engine : Engine) (id : ValueId) :
    engine.elementSet (.singleton id) = (do
      let found ← engine.elements id
      unionOver engine.resolve (← Engine.mergeRows found.toList)) := by
  simp [Engine.elementSet, Engine.iterate, filterMapOver]

end Inference

namespace Judgement

open Inference

variable {env : Environment} (judgement : Judgement env)

/--
A step leads from one request to an admitted one that continues its arena, and to an
answer that is as promised there.
-/
def Reaches {α : Type} (state : State) (step : Nat → Inference α)
    (post : State → α → Prop) : Prop :=
  judgement.Accepts (fun fuel => step fuel state) fun result =>
    judgement.Admits result.2 ∧ state.arena ≤ result.2.arena ∧ post result.2 result.1

/-- A step reaches what is promised at every stage. -/
abbrev Attains {α : Type} (state : State) (step : Engine → Inference α)
    (post : State → α → Prop) : Prop :=
  judgement.Reaches state (fun fuel => step (env.stage fuel)) post

variable {judgement}

/-! ## Sequences -/

section Sequences

variable {α β : Type} {state after : State}

variable {post : State → α → Prop} {step first : Nat → Inference α} {answer : α}
  {next : Nat → α → Inference β}

theorem reaches_of_ok (succeeds : ∀ fuel, step fuel state = .ok (answer, after))
    (admitted : judgement.Admits after) (continues : state.arena ≤ after.arena)
    (holds : post after answer) :
    judgement.Reaches state step post := by
  simp only [Reaches, succeeds]
  exact judgement.ok ⟨admitted, continues, holds⟩

theorem reaches_pure (admitted : judgement.Admits state) (holds : post state answer) :
    judgement.Reaches state (fun _ => pure answer) post :=
  reaches_of_ok (fun _ => rfl) admitted (Arena.le_refl _) holds

theorem Reaches.imp (reaches : judgement.Reaches state step post)
    (implies : ∀ after answer, judgement.Admits after → state.arena ≤ after.arena →
      post after answer → weaker after answer) :
    judgement.Reaches state step weaker :=
  weaken reaches fun result holds =>
    ⟨holds.1, holds.2.1, implies result.2 result.1 holds.1 holds.2.1 holds.2.2⟩

theorem Reaches.bind {middle : State → α → Prop} {post : State → β → Prop}
    (firstReaches : judgement.Reaches state first middle)
    (nextReaches : ∀ after answer, judgement.Admits after → state.arena ≤ after.arena →
      middle after answer → judgement.Reaches after (fun fuel => next fuel answer) post) :
    judgement.Reaches state (fun fuel => first fuel >>= next fuel) post := by
  show judgement.Accepts
    (fun fuel => first fuel state >>= fun result => next fuel result.1 result.2) _
  refine judgement.andThen firstReaches fun result holds => ?_
  obtain ⟨admitted, continues, promised⟩ := holds
  refine weaken (nextReaches result.2 result.1 admitted continues promised)
    fun final finalHolds => ?_
  exact ⟨finalHolds.1, Arena.le_trans continues finalHolds.2.1, finalHolds.2.2⟩

/-- The first step is known, and leaves the request as it is. -/
theorem reaches_bind_of_ok {post : State → β → Prop}
    (succeeds : ∀ fuel, first fuel state = .ok (answer, state))
    (reaches : judgement.Reaches state (fun fuel => next fuel answer) post) :
    judgement.Reaches state (fun fuel => first fuel >>= next fuel) post := by
  have same : ∀ fuel, (first fuel >>= next fuel) state = next fuel answer state :=
    fun fuel => bind_of_ok (succeeds fuel)
  simpa only [Reaches, same] using reaches

theorem reaches_ite {decision : Nat → Decidable condition}
    (trueReaches : condition → judgement.Reaches state whenTrue post)
    (falseReaches : ¬condition → judgement.Reaches state whenFalse post) :
    judgement.Reaches state
      (fun fuel => @ite _ condition (decision fuel) (whenTrue fuel) (whenFalse fuel)) post := by
  by_cases holds : condition
  · simp only [if_pos holds]
    exact trueReaches holds
  · simp only [if_neg holds]
    exact falseReaches holds

theorem Keeps.reaches {bound : Nat} {post : Nat → α → Prop} (kept : judgement.Keeps bound step post)
    (admitted : judgement.Admits state) (within : bound ≤ state.arena.size) :
    judgement.Reaches state step fun after answer => post after.arena.size answer :=
  kept state admitted within

end Sequences

/-! ## Values -/

section Values

variable {α : Type} {state : State} {id : ValueId} {stored : Value}

theorem reaches_value_bind (found : state.arena.get? id = some stored)
    {next : Nat → Value → Inference α}
    (reaches : judgement.Reaches state (fun fuel => next fuel stored) post) :
    judgement.Reaches state (fun fuel => value id >>= next fuel) post :=
  reaches_bind_of_ok (fun _ => value_of_get? found) reaches

section

variable (admitted : judgement.Admits state) (within : env.Scopes state.arena.size stored)

include admitted within

theorem reaches_intern_of_matching (noFunction : stored.isFunction = false)
    (matching : stored.isCallable = true → judgement.Matching) :
    judgement.Reaches state (fun _ => intern stored)
      fun after id => after.arena.get? id = some stored :=
  reaches_of_ok (fun _ => rfl)
    ⟨admitted.wellFormed.intern within, judgement.interned noFunction matching admitted.invariant⟩
    (Arena.le_intern _ _) (Arena.get?_intern state.arena stored)

theorem reaches_intern (plain : stored.isPlain = true) :
    judgement.Reaches state (fun _ => intern stored)
      fun after id => after.arena.get? id = some stored := by
  obtain ⟨noFunction, noCallable⟩ : stored.isFunction = false ∧ stored.isCallable = false := by
    simpa [Value.isPlain] using plain
  exact reaches_intern_of_matching admitted within noFunction (by simp [noCallable])

theorem reaches_internSet (plain : stored.isPlain = true) :
    judgement.Reaches state (fun _ => internSet stored)
      fun after set => ∃ id, set = .singleton id ∧ after.arena.get? id = some stored :=
  (reaches_intern admitted within plain).bind fun _ id afterAdmitted _ found =>
    reaches_pure afterAdmitted ⟨id, rfl, found⟩

end

end Values

/-! ## Loops -/

section Loops

variable {α β γ : Type} {state : State}

variable {items : List α}

section

variable {setOf : Nat → α → Inference TypeSet} (related : Arena → α → ValueId → Prop)

include related

/--
Items contribute values that are related to them from then on.  Some items are known to
contribute one.
-/
theorem reaches_unionOver_related (contributes : α → Prop)
    (survives : ∀ arena later item id, arena ≤ later → related arena item id →
      related later item id)
    (admitted : judgement.Admits state)
    (each : ∀ item ∈ items, ∀ later, judgement.Admits later → state.arena ≤ later.arena →
      judgement.Reaches later (fun fuel => setOf fuel item) fun after set =>
        (∀ id ∈ set, related after.arena item id) ∧
          (contributes item → ∃ id ∈ set, related after.arena item id)) :
    judgement.Reaches state (fun fuel => unionOver (setOf fuel) items) fun after set =>
      (∀ id ∈ set, ∃ item ∈ items, related after.arena item id) ∧
        ∀ item ∈ items, contributes item → ∃ id ∈ set, related after.arena item id := by
  induction items generalizing state with
  | nil => exact reaches_pure admitted ⟨fun _ member => by simp at member, by simp⟩
  | cons item rest ih =>
    refine (each item (by simp) state admitted (Arena.le_refl _)).bind
      fun between first betweenAdmitted continues firstHolds => ?_
    have restReaches := ih betweenAdmitted
      fun other member later laterAdmitted further =>
        each other (by simp [member]) later laterAdmitted (Arena.le_trans continues further)
    refine restReaches.bind fun after others afterAdmitted further othersHold => ?_
    refine reaches_pure afterAdmitted ⟨fun other member => ?_, fun other member isKnown => ?_⟩
    · rcases TypeSet.mem_union.mp member with inFirst | inOthers
      · exact ⟨item, by simp, survives _ _ _ _ further (firstHolds.1 other inFirst)⟩
      · obtain ⟨source, sourceMember, sourceHolds⟩ := othersHold.1 other inOthers
        exact ⟨source, by simp [sourceMember], sourceHolds⟩
    · rcases List.mem_cons.mp member with rfl | inRest
      · obtain ⟨target, targetMember, targetHolds⟩ := firstHolds.2 isKnown
        exact ⟨target, TypeSet.mem_union.mpr (.inl targetMember),
          survives _ _ _ _ further targetHolds⟩
      · obtain ⟨target, targetMember, targetHolds⟩ := othersHold.2 other inRest isKnown
        exact ⟨target, TypeSet.mem_union.mpr (.inr targetMember), targetHolds⟩

/-- Each item contributes one value, which is related to it from then on. -/
theorem reaches_unionOver (survives : ∀ arena later item id, arena ≤ later → related arena item id →
      related later item id)
    (admitted : judgement.Admits state)
    (each : ∀ item ∈ items, ∀ later, judgement.Admits later → state.arena ≤ later.arena →
      judgement.Reaches later (fun fuel => setOf fuel item)
        fun after set => ∃ id, set = .singleton id ∧ related after.arena item id) :
    judgement.Reaches state (fun fuel => unionOver (setOf fuel) items) fun after set =>
      (∀ id ∈ set, ∃ item ∈ items, related after.arena item id) ∧
        ∀ item ∈ items, ∃ id ∈ set, related after.arena item id := by
  have united := reaches_unionOver_related related (fun _ => True) survives admitted
    fun item member later laterAdmitted further =>
      (each item member later laterAdmitted further).imp fun _ _ _ _ holds => by
        obtain ⟨id, rfl, isRelated⟩ := holds
        refine ⟨fun other isMember => ?_, fun _ => ⟨id, by simp, isRelated⟩⟩
        rw [TypeSet.mem_singleton.mp isMember]
        exact isRelated
  exact united.imp fun _ _ _ _ holds => ⟨holds.1, fun item member => holds.2 item member trivial⟩

end

/-- Items that stand for something are turned into answers that do. -/
theorem reaches_mapM {visit : Nat → α → Inference β} (standsFor : Arena → γ → α → Prop)
    (related : Arena → γ → β → Prop)
    (standsStill : ∀ arena later key item, arena ≤ later → standsFor arena key item →
      standsFor later key item)
    (survives : ∀ arena later key answer, World.WellFormed ⟨arena, env.declarations⟩ →
      arena ≤ later → related arena key answer → related later key answer)
    (admitted : judgement.Admits state) (stand : List.Forall₂ (standsFor state.arena) keys items)
    (each : ∀ key ∈ keys, ∀ item later, judgement.Admits later → state.arena ≤ later.arena →
      standsFor later.arena key item →
      judgement.Reaches later (fun fuel => visit fuel item)
        fun after answer => related after.arena key answer) :
    judgement.Reaches state (fun fuel => items.mapM (visit fuel)) fun after answers =>
      List.Forall₂ (related after.arena) keys answers := by
  induction keys generalizing state items with
  | nil =>
    cases stand
    exact reaches_pure admitted .nil
  | cons key keys ih =>
    cases stand with
    | cons stands rest =>
      simp only [List.mapM_cons]
      refine (each key (by simp) _ state admitted (Arena.le_refl _) stands).bind
        fun between first betweenAdmitted continues firstHolds => ?_
      have restReaches := ih betweenAdmitted
        (rest.imp fun _ _ still => standsStill _ _ _ _ continues still)
        fun other member item later laterAdmitted further stillStands =>
          each other (by simp [member]) item later laterAdmitted
            (Arena.le_trans continues further) stillStands
      refine restReaches.bind fun after others afterAdmitted further othersHold => ?_
      exact reaches_pure afterAdmitted
        (.cons (survives _ _ _ _ betweenAdmitted.wellFormed.world further firstHolds) othersHold)

/-- What holds of a result after some items holds after all of them. -/
theorem reaches_foldlM {visit : Nat → β → α → Inference β} (holds : State → List α → β → Prop)
    (admitted : judgement.Admits state) (start : holds state [] result)
    (each : ∀ done item, item ∈ items → ∀ later result, judgement.Admits later →
      state.arena ≤ later.arena → holds later done result →
      judgement.Reaches later (fun fuel => visit fuel result item)
        fun after => holds after (done ++ [item])) :
    judgement.Reaches state (fun fuel => items.foldlM (visit fuel) result)
      fun after => holds after items := by
  have walk : ∀ rest done, done ++ rest = items → ∀ later result, judgement.Admits later →
      state.arena ≤ later.arena → holds later done result →
      judgement.Reaches later (fun fuel => rest.foldlM (visit fuel) result)
        fun after => holds after items := by
    intro rest
    induction rest with
    | nil =>
      rintro done same later result laterAdmitted - laterHolds
      rw [List.append_nil] at same
      exact reaches_pure laterAdmitted (same ▸ laterHolds)
    | cons item rest ih =>
      intro done same later result laterAdmitted continues laterHolds
      have member : item ∈ items := by simp [← same]
      refine (each done item member later result laterAdmitted continues laterHolds).bind
        fun after next afterAdmitted further afterHolds => ?_
      exact ih (done ++ [item]) (by simpa using same) after next afterAdmitted
        (Arena.le_trans continues further) afterHolds
  exact walk items [] rfl state result admitted (Arena.le_refl _) start

end Loops

/-! ## Ancestors -/

/-- A class object is the ancestor of its own class, since it is reached first. -/
theorem reaches_ancestor?_self (reads : judgement.Reads) (admitted : judgement.Admits state)
    (found : state.arena.get? id = some stored) (ofClass : stored.class? = some class_) :
    judgement.Attains state (·.ancestor? id class_) fun _ ancestor => ancestor = some id := by
  have idWithin : env.Scopes state.arena.size id := Arena.lt_size_of_get? found
  have classWithin : env.Scopes state.arena.size class_ :=
    within_class? (admitted.wellFormed.world.within_of_get? found) ofClass
  have start : Reached env.declarations [⟨class_, id⟩]
      env.declarations.classes.size state.arena.size [⟨class_, id⟩] :=
    { within := within_cons.mpr ⟨⟨classWithin, idWithin⟩, within_nil⟩
      once := List.nodup_singleton _
      deep := by simp
      begins := List.prefix_rfl }
  have visited : judgement.Attains state (·.ancestors id)
      fun after reached => Reached env.declarations [⟨class_, id⟩]
        env.declarations.classes.size after.arena.size reached := by
    refine reaches_value_bind found ?_
    simp only [ofClass]
    exact (keeps_visitBases reads
      (fun _ _ _ reachedOnce => keeps_visitWithin reads _ reachedOnce)
      start classWithin idWithin).reaches admitted (Nat.le_refl _)
  refine visited.bind fun after reached afterAdmitted _ reachedOnce => ?_
  obtain ⟨others, rfl⟩ := reachedOnce.begins
  exact reaches_pure afterAdmitted (by simp)

end Judgement

end TypeInference
