import TypeInference.Proofs.Binding.Move
import TypeInference.Proofs.Scope.Operation

/-!
# Scope of bound parameters

A binder only passes on what the call supplies: if the stream of a call is within a
scope, then so are the parameters that the call is bound to.
-/

namespace TypeInference

variable {parameter : BoundParameter}

variable {declarations : Declarations} {bound : Nat}

theorem within_modifyFirst [Scoped α] (within : Within declarations bound items)
    (condition : α → Bool) (changeWithin : ∀ item, Within declarations bound item →
      Within declarations bound (change item)) :
    Within declarations bound (modifyFirst condition change items) := by
  induction items with
  | nil => exact within
  | cons item rest ih =>
    rw [within_cons] at within
    unfold modifyFirst
    split
    · exact within_cons.mpr ⟨changeWithin item within.1, within.2⟩
    · exact within_cons.mpr ⟨within.1, ih within.2⟩

theorem within_place {entries : List (String × Deferred)}
    (within : Within declarations bound entries) {value : Deferred}
    (valueWithin : Within declarations bound value) (key : String) :
    Within declarations bound (Table.place key value entries) := by
  induction entries with
  | nil => exact within_cons.mpr ⟨⟨trivial, valueWithin⟩, within_nil⟩
  | cons entry rest ih =>
    obtain ⟨present, old⟩ := entry
    rw [within_cons] at within
    unfold Table.place
    split
    · exact within_cons.mpr ⟨⟨trivial, valueWithin⟩, within.2⟩
    · exact within_cons.mpr ⟨within.1, ih within.2⟩

namespace Binder

/-- Everything that a binder holds is within the scope. -/
structure InScope (declarations : Declarations) (bound : Nat) (binder : Binder) : Prop where
  function : Within declarations bound binder.function
  stream : Within declarations bound binder.stream
  result : Within declarations bound binder.result
  used : ∀ name parameter, binder.used.get? name = some parameter →
    Within declarations bound parameter
  unmatched : Within declarations bound binder.unmatched.entries

namespace InScope

variable {binder after : Binder}

section

variable (inScope : binder.InScope declarations bound)

include inScope

theorem use (within : Within declarations bound parameter) (key : String) :
    ∀ name found, (binder.used.insert key parameter).get? name = some found →
      Within declarations bound found := by
  intro name found present
  by_cases same : name = key
  · rw [same, Table.get?_insert_self] at present
    cases present
    exact within
  · rw [Table.get?_insert_of_ne _ same] at present
    exact inScope.used name found present

theorem result_append (within : Within declarations bound parameter) :
    Within declarations bound (binder.result ++ [parameter]) :=
  within_append.mpr ⟨inScope.result, within_cons.mpr ⟨within, within_nil⟩⟩

theorem takeOut (ahead : binder.stream = before ++ supplied :: rest) :
    Within declarations bound supplied.value ∧ Within declarations bound (before ++ rest) := by
  have within := inScope.stream
  rw [ahead, within_append, within_cons] at within
  exact ⟨within.2.1, within_append.mpr ⟨within.1, within.2.2⟩⟩

/-- A move passes on what is within the scope. -/
theorem of_moves (moves : binder.Moves after) : after.InScope declarations bound := by
  obtain ⟨function, stream, result, used, unmatched⟩ := inScope
  have inScope : binder.InScope declarations bound := ⟨function, stream, result, used, unmatched⟩
  cases moves with
  | @leave before rest supplied keyword ahead =>
    obtain ⟨value, others⟩ := inScope.takeOut ahead
    exact ⟨function, others, result, used, within_place unmatched value keyword⟩
  | @supply before rest supplied keyword parameter index ahead =>
    obtain ⟨value, others⟩ := inScope.takeOut ahead
    exact ⟨function, others, within_modifyFirst result _ fun _ _ => ⟨function, value⟩,
      inScope.use ⟨function, value⟩ parameter.name, unmatched⟩
  | @widen before rest supplied keyword parameter index existing ahead _ _ _ found =>
    obtain ⟨value, others⟩ := inScope.takeOut ahead
    have existingWithin := used keyword existing found
    have widened : Within declarations bound
        (Deferred.merged ⟨binder.nextCell⟩ [existing.value, supplied.value]) :=
      within_merged (within_cons.mpr ⟨existingWithin.2, within_cons.mpr ⟨value, within_nil⟩⟩) _
    have again : Within declarations bound
        ({ existing with value := .merged ⟨binder.nextCell⟩ [existing.value, supplied.value] } :
          BoundParameter) := ⟨existingWithin.1, widened⟩
    exact ⟨function, others, within_modifyFirst result _ fun _ within => ⟨within.1, widened⟩,
      inScope.use again keyword, unmatched⟩
  | @reuse parameter held _ found =>
    exact ⟨function, stream, inScope.result_append (used parameter.name held found), used,
      unmatched⟩
  | @position parameter supplied rest _ _ ahead =>
    obtain ⟨value, others⟩ := inScope.takeOut (List.nil_append (supplied :: rest) ▸ ahead)
    exact ⟨function, others, inScope.result_append ⟨function, value⟩,
      inScope.use ⟨function, value⟩ parameter.name, unmatched⟩
  | @starred parameter =>
    have items : Within declarations bound
        ((binder.stream.takeWhile fun supplied => supplied.keyword.isNone).map
          fun supplied => supplied.value) :=
      within_map _ fun supplied member =>
        within_sublist stream (List.takeWhile_sublist _) supplied member
    exact ⟨function, within_sublist stream (List.dropWhile_sublist _),
      inScope.result_append ⟨function, within_packedTuple items _⟩,
      inScope.use ⟨function, within_packedTuple items _⟩ parameter.name, unmatched⟩
  | @doubleStarred parameter =>
    exact ⟨function, stream, inScope.result_append ⟨function, within_packedDict unmatched _⟩,
      inScope.use ⟨function, within_packedDict unmatched _⟩ parameter.name, within_nil⟩
  | @missing parameter value isDefault issues _ _ _ isNew =>
    have valueWithin : Within declarations bound value := by
      rcases isNew with ⟨default, rfl⟩ | rfl <;>
        simp only [Within, Scoped.within, Deferred.InScope]
    exact ⟨function, stream, inScope.result_append ⟨function, valueWithin⟩, used, unmatched⟩

end

end InScope

/-! ## The whole call -/

/-- The parameters that a stream is bound to are within the scope of the stream. -/
theorem within_bindStream {function : FunctionId}
    (functionWithin : Within declarations bound function) (declaration : FunctionDeclaration)
    (callSite : Option NodeId) {stream : List Supplied} (within : Within declarations bound stream)
    (nextCell : Nat) :
    Within declarations bound
      (bindStream function declaration callSite stream nextCell).result := by
  have started : InScope declarations bound (start function declaration callSite stream nextCell) :=
    { function := functionWithin
      stream := within
      result := within_nil
      used := fun _ _ found => nomatch found
      unmatched := within_nil }
  obtain ⟨binder, moves, -, finishes⟩ :=
    moves_bindStream function declaration callSite stream nextCell
  have drained : binder.drainKeywords.InScope declarations bound := by
    generalize binder.drainKeywords = last at moves
    induction moves with
    | refl => exact started
    | tail _ move ih => exact ih.of_moves move
  rw [finishes, result_finish]
  exact drained.result

end Binder

end TypeInference
