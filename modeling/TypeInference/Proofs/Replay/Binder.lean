import Mathlib.Order.Basic
import TypeInference.Proofs.Binding.Problem
import TypeInference.Proofs.Deferred
import TypeInference.Proofs.Pairing.Call

/-!
# Binding the same call twice

Two streams of the same keywords, whose values go together, are bound to the same
parameters, and each parameter is given values that go together.  The binders of
the two calls make their deferred values in step, each in cells of its own.
-/

namespace TypeInference

/-! ## Deferred values of two runs -/

/-- Deferred values of two runs that were made in the same step, and how many cells there are. -/
structure Partners where
  Alike : Deferred → Deferred → Prop
  /-- Cells that the first run has to leave alone. -/
  cells : Array (Option TypeSet)
  otherCells : Array (Option TypeSet)
  count : Nat
  otherCount : Nat
  cells_le : cells.size ≤ count
  otherCells_le : otherCells.size ≤ otherCount
  within : ∀ {deferred other : Deferred}, Alike deferred other →
    (cells.size ≤ deferred.cell.index ∧ deferred.cell.index < count) ∧
      otherCells.size ≤ other.cell.index ∧ other.cell.index < otherCount
  made : ∀ {deferred other : Deferred}, Alike deferred other →
    deferred.recipe = other.recipe ∧ List.Forall₂ Alike deferred.parts other.parts
  /-- Cells that are shared are shared in both runs. -/
  shared : ∀ {deferred other next otherNext : Deferred}, Alike deferred other →
    Alike next otherNext →
    (deferred.cell.index = next.cell.index ↔ other.cell.index = otherNext.cell.index)

namespace Partners

/-- Partners go on to be partners, and new ones have new cells. -/
structure Grows (partners later : Partners) : Prop where
  cells : later.cells = partners.cells
  otherCells : later.otherCells = partners.otherCells
  count : partners.count ≤ later.count
  otherCount : partners.otherCount ≤ later.otherCount
  alike : ∀ deferred other, partners.Alike deferred other → later.Alike deferred other
  new : ∀ {deferred other : Deferred}, later.Alike deferred other →
    partners.Alike deferred other ∨
      partners.count ≤ deferred.cell.index ∧ partners.otherCount ≤ other.cell.index

instance : Preorder Partners where
  le := Grows
  le_refl _ := ⟨rfl, rfl, le_rfl, le_rfl, fun _ _ => id, .inl⟩
  le_trans _ _ _ first second :=
    ⟨second.cells.trans first.cells, second.otherCells.trans first.otherCells,
      first.count.trans second.count, first.otherCount.trans second.otherCount,
      fun _ _ alike => second.alike _ _ (first.alike _ _ alike), fun alike =>
      (second.new alike).elim first.new fun new =>
        .inr ⟨first.count.trans new.1, first.otherCount.trans new.2⟩⟩

theorem monotone_alike : Monotone Alike := fun _ _ larger => Grows.alike larger

variable (partners : Partners)

/-- No partners, where both runs have to leave all their cells alone. -/
def none (cells otherCells : Array (Option TypeSet)) : Partners where
  Alike _ _ := False
  cells := cells
  otherCells := otherCells
  count := cells.size
  otherCount := otherCells.size
  cells_le := le_rfl
  otherCells_le := le_rfl
  within := False.elim
  made := False.elim
  shared := False.elim

/-- More cells, which belong to nobody. -/
def grow {count otherCount : Nat} (more : partners.count ≤ count)
    (otherMore : partners.otherCount ≤ otherCount) : Partners :=
  { partners with
    count := count
    otherCount := otherCount
    cells_le := partners.cells_le.trans more
    otherCells_le := partners.otherCells_le.trans otherMore
    within := fun alike => by
      have within := partners.within alike
      omega }

theorem le_grow {count otherCount : Nat} (more : partners.count ≤ count)
    (otherMore : partners.otherCount ≤ otherCount) : partners ≤ partners.grow more otherMore :=
  ⟨rfl, rfl, more, otherMore, fun _ _ => id, .inl⟩

/-- The next cells of both runs. -/
def Awaits (cell otherCell : Nat) : Prop :=
  cell = partners.count ∧ otherCell = partners.otherCount

section Note

variable {deferred other : Deferred}
  (awaits : partners.Awaits deferred.cell.index other.cell.index)
  (recipe : deferred.recipe = other.recipe)
  (parts : List.Forall₂ partners.Alike deferred.parts other.parts)

/-- Deferred values in the next cells, made alike of parts that are partners. -/
def note : Partners where
  Alike first second := partners.Alike first second ∨ first = deferred ∧ second = other
  cells := partners.cells
  otherCells := partners.otherCells
  count := partners.count + 1
  otherCount := partners.otherCount + 1
  cells_le := partners.cells_le.trans (Nat.le_succ _)
  otherCells_le := partners.otherCells_le.trans (Nat.le_succ _)
  within := by
    have smaller := partners.cells_le
    have otherSmaller := partners.otherCells_le
    obtain ⟨cell, otherCell⟩ := awaits
    rintro first second (alike | ⟨rfl, rfl⟩)
    · have within := partners.within alike
      omega
    · omega
  made := by
    rintro first second (alike | ⟨rfl, rfl⟩)
    · exact (partners.made alike).imp_right fun parts => parts.imp fun _ _ => .inl
    · exact ⟨recipe, parts.imp fun _ _ => .inl⟩
  shared := by
    obtain ⟨cell, otherCell⟩ := awaits
    rintro first second next otherNext (alike | ⟨rfl, rfl⟩) (nextAlike | ⟨rfl, rfl⟩)
    · exact partners.shared alike nextAlike
    · have within := partners.within alike
      omega
    · have within := partners.within nextAlike
      omega
    · exact ⟨fun _ => rfl, fun _ => rfl⟩

/-- Partners in the next cells are new. -/
theorem le_note : partners ≤ partners.note awaits recipe parts where
  cells := rfl
  otherCells := rfl
  count := Nat.le_succ _
  otherCount := Nat.le_succ _
  alike _ _ := .inl
  new := by
    rintro first second (alike | ⟨rfl, rfl⟩)
    · exact .inl alike
    · exact .inr ⟨awaits.1.ge, awaits.2.ge⟩

end Note

/-- From a world on, deferred values in the next cells are partners. -/
def Defers (deferred other : Deferred) : Prop :=
  ∃ later, partners ≤ later ∧ later.Alike deferred other ∧
    later.Awaits (deferred.cell.index + 1) (other.cell.index + 1)

end Partners

/-- Entries of one key whose values are related. -/
def Deferred.EntryAlike (alike : Deferred → Deferred → Prop) (entry other : String × Deferred) :
    Prop :=
  other.1 = entry.1 ∧ alike entry.2 other.2

namespace Partners.Awaits

variable {world : Partners}

/-- Deferred values that are made alike of partners are partners. -/
theorem defers {deferred other : Deferred}
    (awaits : world.Awaits deferred.cell.index other.cell.index)
    (recipe : deferred.recipe = other.recipe)
    (parts : List.Forall₂ world.Alike deferred.parts other.parts) :
    world.Defers deferred other :=
  ⟨world.note awaits recipe parts, world.le_note awaits recipe parts, .inr ⟨rfl, rfl⟩,
    congrArg (· + 1) awaits.1, congrArg (· + 1) awaits.2⟩

variable {cell otherCell : Nat} (awaits : world.Awaits cell otherCell)

include awaits

theorem node (source : NodeId) :
    world.Defers (.node ⟨cell⟩ source) (.node ⟨otherCell⟩ source) :=
  defers awaits rfl .nil

theorem unknown : world.Defers (.unknown ⟨cell⟩) (.unknown ⟨otherCell⟩) :=
  defers awaits rfl .nil

theorem merged (related : List.Forall₂ world.Alike parts others) :
    world.Defers (.merged ⟨cell⟩ parts) (.merged ⟨otherCell⟩ others) :=
  defers awaits rfl related

theorem packedTuple (related : List.Forall₂ world.Alike parts others) :
    world.Defers (.packedTuple ⟨cell⟩ parts) (.packedTuple ⟨otherCell⟩ others) :=
  defers awaits rfl related

theorem packedDict
    (related : List.Forall₂ (Deferred.EntryAlike world.Alike) entries others) :
    world.Defers (.packedDict ⟨cell⟩ entries) (.packedDict ⟨otherCell⟩ others) := by
  have keysSame : entries.map Prod.fst = others.map Prod.fst := by
    rw [← List.forall₂_eq_eq_eq, List.forall₂_map_left_iff, List.forall₂_map_right_iff]
    exact related.imp fun _ _ alike => alike.1.symm
  have valuesAlike : List.Forall₂ world.Alike (entries.map Prod.snd)
      (others.map Prod.snd) := by
    rw [List.forall₂_map_left_iff, List.forall₂_map_right_iff]
    exact related.imp fun _ _ alike => alike.2
  exact defers awaits (by rw [Deferred.recipe, Deferred.recipe, keysSame]) valuesAlike

end Partners.Awaits

/-! ## Related lists -/

/-- The same item is changed in both lists. -/
theorem forall₂_modifyFirst (itemsRelated : List.Forall₂ related items others)
    (agree : ∀ item other, related item other → condition other = condition item)
    (changed : ∀ item other, related item other → related (change item) (otherChange other)) :
    List.Forall₂ related (modifyFirst condition change items)
      (modifyFirst condition otherChange others) := by
  induction itemsRelated with
  | nil => exact .nil
  | @cons item other _ _ itemRelated restRelated ih =>
    unfold modifyFirst
    rw [agree item other itemRelated]
    split
    · exact .cons (changed item other itemRelated) restRelated
    · exact .cons itemRelated ih

/-- The same key is given a value in both dictionaries. -/
theorem forall₂_place (related : List.Forall₂ (Deferred.EntryAlike alike) entries others)
    (valueAlike : alike value otherValue) (key : String) :
    List.Forall₂ (Deferred.EntryAlike alike) (Table.place key value entries)
      (Table.place key otherValue others) := by
  induction related with
  | nil => exact .cons ⟨rfl, valueAlike⟩ .nil
  | @cons entry other _ _ entryAlike restRelated ih =>
    obtain ⟨present, old⟩ := entry
    obtain ⟨otherPresent, otherOld⟩ := other
    obtain ⟨rfl, oldAlike⟩ := entryAlike
    unfold Table.place
    split
    · exact .cons ⟨rfl, valueAlike⟩ restRelated
    · exact .cons ⟨rfl, oldAlike⟩ ih

/-! ## Binders -/

namespace Binder

/-- Two binders of the same call, but for what is wrong with it. -/
structure Matches (world : Partners) (binder other : Binder) : Prop where
  function : other.function = binder.function
  declaration : other.declaration = binder.declaration
  stream : List.Forall₂ (Supplied.Alike world.Alike) binder.stream other.stream
  result : List.Forall₂ (BoundParameter.Alike world.Alike)
    binder.result other.result
  used : ∀ name, Option.Rel (BoundParameter.Alike world.Alike)
    (binder.used.get? name) (other.used.get? name)
  unmatched : List.Forall₂ (Deferred.EntryAlike world.Alike)
    binder.unmatched.entries other.unmatched.entries
  awaits : world.Awaits binder.nextCell other.nextCell

/-- From a world on, two binders are of the same call. -/
def Follow (world : Partners) (binder other : Binder) : Prop :=
  ∃ later, world ≤ later ∧ Matches later binder other

variable {world later : Partners} {binder other : Binder}

theorem Matches.follow (matched : Matches world binder other) : Follow world binder other :=
  ⟨world, le_rfl, matched⟩

/-- One step of binding follows another. -/
theorem Follow.andThen (follow : Follow world binder other)
    (continues : ∀ later, world ≤ later → Matches later binder other →
      Follow later next otherNext) :
    Follow world next otherNext := by
  obtain ⟨later, larger, matched⟩ := follow
  obtain ⟨final, largest, finished⟩ := continues later larger matched
  exact ⟨final, larger.trans largest, finished⟩

theorem monotone_parameterAlike :
    Monotone fun world : Partners => BoundParameter.Alike world.Alike := by
  rintro world later larger parameter other ⟨value, alike, same⟩
  exact ⟨value, Partners.monotone_alike larger _ _ alike, same⟩

theorem monotone_optionRel {α : Type} {related : Partners → α → α → Prop}
    (monotone : Monotone related) :
    Monotone fun world => Option.Rel (related world) := by
  rintro world later larger _ _ (holds | _)
  · exact .some (monotone larger _ _ holds)
  · exact .none

theorem monotone_suppliedAlike :
    Monotone fun world : Partners => Supplied.Alike world.Alike := by
  rintro world later larger supplied other ⟨value, alike, same⟩
  exact ⟨value, Partners.monotone_alike larger _ _ alike, same⟩

namespace Matches

section

variable (matched : Matches world binder other)

include matched

/-- Binders go on being of the same call when both take cells that are listed later. -/
theorem advance (larger : world ≤ later) {nextCell otherNextCell : Nat}
    (awaits : later.Awaits nextCell otherNextCell) :
    Matches later { binder with nextCell := nextCell }
      { other with nextCell := otherNextCell } where
  function := matched.function
  declaration := matched.declaration
  stream := matched.stream.imp fun _ _ => monotone_suppliedAlike larger _ _
  result := matched.result.imp fun _ _ => monotone_parameterAlike larger _ _
  used name := monotone_optionRel monotone_parameterAlike larger _ _ (matched.used name)
  unmatched := matched.unmatched.imp fun _ _ alike =>
    ⟨alike.1, Partners.monotone_alike larger _ _ alike.2⟩
  awaits := awaits

/-- What is wrong with a call does not matter. -/
theorem report (issues otherIssues : List Diagnostic)
    (sawKeyword otherSawKeyword sawRepetition otherSawRepetition : Bool) :
    Matches world
      { binder with
        issues := issues, sawKeyword := sawKeyword, sawRepetition := sawRepetition }
      { other with
        issues := otherIssues
        sawKeyword := otherSawKeyword
        sawRepetition := otherSawRepetition } :=
  ⟨matched.function, matched.declaration, matched.stream, matched.result, matched.used,
    matched.unmatched, matched.awaits⟩

theorem withStream {stream otherStream : List Supplied}
    (related : List.Forall₂ (Supplied.Alike world.Alike) stream otherStream) :
    Matches world { binder with stream := stream } { other with stream := otherStream } :=
  ⟨matched.function, matched.declaration, related, matched.result, matched.used,
    matched.unmatched, matched.awaits⟩

theorem used_insert (alike : BoundParameter.Alike world.Alike parameter otherParameter)
    (key name : String) :
    Option.Rel (BoundParameter.Alike world.Alike)
      ((binder.used.insert key parameter).get? name)
      ((other.used.insert key otherParameter).get? name) := by
  by_cases same : name = key
  · rw [same, Table.get?_insert_self, Table.get?_insert_self]
    exact .some alike
  · rw [Table.get?_insert_of_ne _ same, Table.get?_insert_of_ne _ same]
    exact matched.used name

end

/-! ## Keywords -/

section

variable (matched : Matches world binder other)

include matched

/-- Both binders widen the parameter that a keyword is given to again. -/
theorem widen (keyword : String) (index : Nat)
    (existingAlike : BoundParameter.Alike world.Alike existing otherExisting)
    (alike : world.Alike value otherValue) :
    Follow world (binder.widen keyword index existing value)
      (other.widen keyword index otherExisting otherValue) := by
  obtain ⟨presentValue, presentAlike, rfl⟩ := existingAlike
  obtain ⟨later, larger, widenedAlike, awaits⟩ :=
    matched.awaits.merged (.cons presentAlike (.cons alike .nil))
  have moved := matched.advance larger awaits
  refine ⟨later, larger, moved.function, moved.declaration, moved.stream, ?_, ?_,
    moved.unmatched, awaits⟩
  · refine forall₂_modifyFirst moved.result ?_ ?_
    · rintro parameter _ ⟨_, _, rfl⟩
      rfl
    · rintro parameter _ ⟨_, _, rfl⟩
      exact ⟨_, widenedAlike, rfl⟩
  · exact moved.used_insert ⟨_, widenedAlike, rfl⟩ keyword

/-- A keyword supplies the same parameter in both calls. -/
theorem supply (parameter : Parameter) (index : Nat)
    (alike : world.Alike value otherValue) :
    Matches world (binder.supply parameter index value)
      (other.supply parameter index otherValue) := by
  have boundAlike : BoundParameter.Alike world.Alike
      ⟨binder.function, index, parameter.name, parameter.kind, value, false⟩
      ⟨other.function, index, parameter.name, parameter.kind, otherValue, false⟩ :=
    ⟨otherValue, alike, by rw [matched.function]⟩
  refine ⟨matched.function, matched.declaration, matched.stream, ?_,
    matched.used_insert boundAlike parameter.name, matched.unmatched, matched.awaits⟩
  refine forall₂_modifyFirst matched.result ?_ fun _ _ _ => boundAlike
  rintro parameter _ ⟨_, _, rfl⟩
  rfl

/-- A keyword is unmatched, new or given again in both calls. -/
theorem bindKeyword (keyword : String) (alike : world.Alike value otherValue) :
    Follow world (binder.bindKeyword keyword value) (other.bindKeyword keyword otherValue) := by
  have seen := matched.report binder.issues other.issues true true binder.sawRepetition
    other.sawRepetition
  have sameParameter : other.declaration.parameter? keyword =
      binder.declaration.parameter? keyword := by
    rw [matched.declaration]
  simp only [Binder.bindKeyword, sameParameter]
  cases binder.declaration.parameter? keyword with
  | none =>
    exact Matches.follow ⟨seen.function, seen.declaration, seen.stream, seen.result, seen.used,
      forall₂_place seen.unmatched alike keyword, seen.awaits⟩
  | some found =>
    have used := matched.used keyword
    generalize binder.used.get? keyword = existing? at used
    generalize other.used.get? keyword = otherExisting? at used
    cases used with
    | none => exact (seen.supply found.1 found.2 alike).follow
    | some existingAlike => exact seen.widen keyword found.2 existingAlike alike

theorem bindNamed (alike : Supplied.Alike world.Alike supplied otherSupplied) :
    Follow world (binder.bindNamed supplied) (other.bindNamed otherSupplied) := by
  obtain ⟨value, valueAlike, rfl⟩ := alike
  unfold Binder.bindNamed
  dsimp only
  split
  · exact matched.bindKeyword _ valueAlike
  · exact matched.follow

section

variable {stream otherStream : List Supplied}
  (related : List.Forall₂ (Supplied.Alike world.Alike) stream otherStream)

include related

/-- Both calls bind the keywords that the streams start with. -/
theorem bindLeadingKeywords :
    Follow world (binder.bindLeadingKeywords stream) (other.bindLeadingKeywords otherStream) := by
  induction stream generalizing world binder other otherStream with
  | nil =>
    cases related
    exact (matched.withStream .nil).follow
  | cons supplied rest ih =>
    obtain ⟨otherSupplied, otherRest, ⟨value, valueAlike, rfl⟩, restRelated, rfl⟩ :=
      List.forall₂_cons_left_iff.mp related
    unfold Binder.bindLeadingKeywords
    dsimp only
    split
    · rename_i keyword _
      refine (matched.bindKeyword keyword valueAlike).andThen fun later larger reached => ?_
      exact ih reached (restRelated.imp fun _ _ => monotone_suppliedAlike larger _ _)
    · exact (matched.withStream related).follow

theorem foldl_bindNamed :
    Follow world (stream.foldl Binder.bindNamed binder)
      (otherStream.foldl Binder.bindNamed other) := by
  induction stream generalizing world binder other otherStream with
  | nil =>
    cases related
    exact matched.follow
  | cons supplied rest ih =>
    obtain ⟨otherSupplied, otherRest, suppliedAlike, restRelated, rfl⟩ :=
      List.forall₂_cons_left_iff.mp related
    refine (matched.bindNamed suppliedAlike).andThen fun later larger reached => ?_
    exact ih reached (restRelated.imp fun _ _ => monotone_suppliedAlike larger _ _)

end

end

/-- Both calls bind all keywords that are left. -/
theorem drainKeywords (matched : Matches world binder other) :
    Follow world binder.drainKeywords other.drainKeywords := by
  refine (matched.foldl_bindNamed matched.stream).andThen fun later larger reached => ?_
  have related := matched.stream.imp fun _ _ => monotone_suppliedAlike larger _ _
  refine (reached.withStream ?_).follow
  exact List.rel_filter
    (fun supplied other alike => by simp [isNone_keyword_of_alike supplied other alike]) related

/-! ## Parameters -/

theorem append (matched : Matches world binder other)
    (alike : BoundParameter.Alike world.Alike parameter otherParameter) :
    Matches world (binder.append parameter) (other.append otherParameter) :=
  ⟨matched.function, matched.declaration, matched.stream,
    List.rel_append matched.result (.cons alike .nil), matched.used, matched.unmatched,
    matched.awaits⟩

section

variable (matched : Matches world binder other) (parameter : Parameter) (index : Nat)

include matched parameter index

theorem bindValue (alike : world.Alike value otherValue) :
    Matches world (binder.bindValue parameter index value)
      (other.bindValue parameter index otherValue) := by
  have boundAlike : BoundParameter.Alike world.Alike
      ⟨binder.function, index, parameter.name, parameter.kind, value, false⟩
      ⟨other.function, index, parameter.name, parameter.kind, otherValue, false⟩ :=
    ⟨otherValue, alike, by rw [matched.function]⟩
  have appended := matched.append boundAlike
  exact ⟨appended.function, appended.declaration, appended.stream, appended.result,
    matched.used_insert boundAlike parameter.name, appended.unmatched, appended.awaits⟩

/-- A parameter that is given nothing has its default, or is unknown, in both calls. -/
theorem bindMissing :
    Follow world (binder.bindMissing parameter index) (other.bindMissing parameter index) := by
  simp only [Binder.bindMissing]
  cases parameter.default with
  | some default =>
    obtain ⟨later, larger, alike, awaits⟩ := matched.awaits.node default
    exact ⟨later, larger,
      (matched.advance larger awaits).append ⟨_, alike, by rw [matched.function]⟩⟩
  | none =>
    obtain ⟨later, larger, alike, awaits⟩ := matched.awaits.unknown
    have moved := matched.advance larger awaits
    refine ⟨later, larger, ?_⟩
    dsimp only
    split <;> split
    all_goals
      exact append (moved.report _ _ _ _ _ _) ⟨_, alike, by rw [matched.function]⟩

theorem bindStarred :
    Follow world (binder.bindStarred parameter index) (other.bindStarred parameter index) := by
  have items := forall₂_values (forall₂_takeWhile isNone_keyword_of_alike matched.stream)
  have rest := forall₂_dropWhile isNone_keyword_of_alike matched.stream
  obtain ⟨later, larger, alike, awaits⟩ := matched.awaits.packedTuple items
  exact ⟨later, larger,
    ((matched.withStream rest).advance larger awaits).bindValue parameter index alike⟩

theorem bindDoubleStarred :
    Follow world (binder.bindDoubleStarred parameter index)
      (other.bindDoubleStarred parameter index) := by
  obtain ⟨later, larger, alike, awaits⟩ := matched.awaits.packedDict matched.unmatched
  have moved := matched.advance larger awaits
  have emptied : Matches later
      { binder with nextCell := binder.nextCell + 1, unmatched := ∅ }
      { other with nextCell := other.nextCell + 1, unmatched := ∅ } :=
    ⟨moved.function, moved.declaration, moved.stream, moved.result, moved.used, .nil, awaits⟩
  exact ⟨later, larger, emptied.bindValue parameter index alike⟩

/-- Each kind of parameter takes as much from both streams. -/
theorem bindUnused :
    Follow world (binder.bindUnused parameter index) (other.bindUnused parameter index) := by
  unfold Binder.bindUnused
  cases parameter.kind with
  | starred => exact matched.bindStarred parameter index
  | doubleStarred => exact matched.bindDoubleStarred parameter index
  | keywordOnly => exact matched.bindMissing parameter index
  | positional =>
    have stream := matched.stream
    generalize binder.stream = ahead at stream
    generalize other.stream = otherAhead at stream
    cases stream with
    | nil => exact matched.bindMissing parameter index
    | cons suppliedAlike rest =>
      obtain ⟨value, alike, rfl⟩ := suppliedAlike
      exact ((matched.withStream rest).bindValue parameter index alike).follow

end

theorem prepare (matched : Matches world binder other) (kind : ParameterKind) :
    Follow world (binder.prepare kind) (other.prepare kind) := by
  have prepared := matched.bindLeadingKeywords matched.stream
  cases kind with
  | keywordOnly | doubleStarred => exact prepared.andThen fun _ _ reached => reached.drainKeywords
  | positional | starred => exact prepared

/-- A parameter is bound before its turn, by a keyword, or now. -/
theorem bindParameter (matched : Matches world binder other) (entry : Parameter × Nat) :
    Follow world (binder.bindParameter entry) (other.bindParameter entry) := by
  refine (matched.prepare entry.1.kind).andThen fun later larger prepared => ?_
  simp only [Binder.bindParameter]
  have used := prepared.used entry.1.name
  generalize (binder.prepare entry.1.kind).used.get? entry.1.name = existing? at used
  generalize (other.prepare entry.1.kind).used.get? entry.1.name = otherExisting? at used
  cases used with
  | none => exact prepared.bindUnused entry.1 entry.2
  | some existingAlike => exact (prepared.append existingAlike).follow

theorem foldl_bindParameter (matched : Matches world binder other)
    (entries : List (Parameter × Nat)) :
    Follow world (entries.foldl Binder.bindParameter binder)
      (entries.foldl Binder.bindParameter other) := by
  induction entries generalizing world binder other with
  | nil => exact matched.follow
  | cons entry rest ih =>
    exact (matched.bindParameter entry).andThen fun _ _ reached => ih reached

end Matches

/-! ## The whole call -/

/-- Streams that stand for the same are bound alike. -/
theorem follow_bindStream {stream otherStream : List Supplied} {nextCell otherNextCell : Nat}
    (related : List.Forall₂ (Supplied.Alike world.Alike) stream otherStream)
    (awaits : world.Awaits nextCell otherNextCell) (function : FunctionId)
    (declaration : FunctionDeclaration) (callSite : Option NodeId) :
    Follow world (bindStream function declaration callSite stream nextCell)
      (bindStream function declaration callSite otherStream otherNextCell) := by
  have started : Matches world (start function declaration callSite stream nextCell)
      (start function declaration callSite otherStream otherNextCell) :=
    ⟨rfl, rfl, related, .nil, fun _ => .none, .nil, awaits⟩
  refine (started.foldl_bindParameter declaration.parameters.zipIdx).andThen fun _ _ bound => ?_
  refine bound.drainKeywords.andThen fun _ _ drained => ?_
  rw [bindStream, bindStream, finish_eq, finish_eq]
  exact (drained.report _ _ _ _ _ _).follow

end Binder

end TypeInference
