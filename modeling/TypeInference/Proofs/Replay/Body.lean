import TypeInference.Proofs.Pairing.Call
import TypeInference.Tree

/-!
# What bodies ask for

The body of a function is an expression.  While it is evaluated, it asks for operations
that neither take nor give deferred values, and for the values of the parameters of the
call that it is evaluated for.  Evaluated for the same call with other deferred values,
it asks for the same operations in the same order.
-/

namespace TypeInference

variable {execution other : Execution}

/-! ## Programs that ask alike -/

/-- As long as they are answered alike, programs ask for related operations. -/
inductive Program.Together {α : Type}
    (related : {β : Type} → Operation β → Operation β → Prop) : Program α → Program α → Prop where
  | done (answer : α) : Together related (.done answer) (.done answer)
  | ask {β : Type} {operation other : Operation β} {next otherNext : β → Program α} :
    related operation other →
    (∀ answer, Together related (next answer) (otherNext answer)) →
    Together related (.ask operation next) (.ask other otherNext)

namespace Program.Together

variable {α β : Type} {related : {β : Type} → Operation β → Operation β → Prop}

theorem perform {operation other : Operation α} (holds : related operation other) :
    Together related (Program.perform operation) (Program.perform other) :=
  .ask holds .done

theorem bind {program other : Program α} {next otherNext : α → Program β}
    (first : program.Together related other)
    (rest : ∀ answer, (next answer).Together related (otherNext answer)) :
    Together related (program >>= next) (other >>= otherNext) := by
  show (program.andThen next).Together related (other.andThen otherNext)
  induction first with
  | done answer => exact rest answer
  | ask holds _ ih => exact .ask holds ih

end Program.Together

/-- The same operation, without deferred values, or deferred values to be resolved. -/
inductive Operation.Matches (alike : Deferred → Deferred → Prop) :
    {α : Type} → Operation α → Operation α → Prop where
  | same {α : Type} {operation : Operation α} : operation.isRepeatable = true →
    Matches alike operation operation
  | resolve {deferred other : Deferred} : alike deferred other →
    Matches alike (.resolve deferred) (.resolve other)

/-- As long as they are answered alike, programs ask for the same but for deferred values. -/
abbrev Program.Matches (alike : Deferred → Deferred → Prop) (program other : Program α) : Prop :=
  program.Together (Operation.Matches alike) other

/-- The same call with other deferred values. -/
def Execution.Alike (alike : Deferred → Deferred → Prop) (execution other : Execution) : Prop :=
  ∃ parameters, List.Forall₂ (BoundParameter.Alike alike) execution.parameters parameters ∧
    other = { execution with parameters := parameters }

section Evaluation

variable {alike : Deferred → Deferred → Prop}

/-! ## Terms -/

theorem together_store (stored : Value) :
    (Program.store stored).Matches alike (Program.store stored) :=
  .perform (.same rfl)

mutual

/-- A term only stores values. -/
theorem ValueTerm.together_intern :
    (term : ValueTerm) → (term.intern Program.store).Matches alike (term.intern Program.store)
  | .genericClass _ generics | .instanceOf _ generics | .special _ generics | .callable generics
  | .tuple generics => .bind generics.together_intern fun _ => together_store _
  | .typeList items | .packedTuple items =>
    .bind (together_internSets items) fun _ => together_store _
  | .packedDict entries => .bind (together_internEntries entries) fun _ => together_store _
  | .boundMethod callee receiver =>
    .bind callee.together_intern fun _ => .bind receiver.together_intern fun _ => together_store _
  | .exactly described => .bind described.together_intern fun _ => together_store _
  | .classObject _ | .typeVariable _ | .function _ | .overloaded _ | .typedDict _ | .literal _
  | .any | .none | .ellipsis => together_store _

theorem SetTerm.together_intern :
    (term : SetTerm) → (term.intern Program.store).Matches alike (term.intern Program.store)
  | .known _ => .done _
  | .listed members => .bind (together_internMembers members) fun _ => .done _

theorem GenericsTerm.together_intern :
    (term : GenericsTerm) → (term.intern Program.store).Matches alike (term.intern Program.store)
  | .none => .done _
  | .slots slots _ => .bind (together_internSets slots) fun _ => .done _
  | .lazy _ => .done _

theorem together_internMembers :
    (members : List ValueTerm) →
      (internMembers Program.store members).Matches alike (internMembers Program.store members)
  | [] => .done _
  | member :: rest =>
    .bind member.together_intern fun _ => .bind (together_internMembers rest) fun _ => .done _

theorem together_internSets :
    (sets : List SetTerm) →
      (internSets Program.store sets).Matches alike (internSets Program.store sets)
  | [] => .done _
  | set :: rest =>
    .bind set.together_intern fun _ => .bind (together_internSets rest) fun _ => .done _

theorem together_internEntries :
    (entries : List (String × SetTerm)) →
      (internEntries Program.store entries).Matches alike (internEntries Program.store entries)
  | [] => .done _
  | (_, set) :: rest =>
    .bind set.together_intern fun _ => .bind (together_internEntries rest) fun _ => .done _

end

/-! ## Expressions -/

theorem rel_find?_name (related : List.Forall₂ (BoundParameter.Alike alike) parameters others)
    (name : String) :
    Option.Rel (BoundParameter.Alike alike)
      (parameters.find? fun parameter => parameter.name == name)
      (others.find? fun parameter => parameter.name == name) := by
  induction related with
  | nil => exact .none
  | @cons parameter other _ _ holds _ ih =>
    have sameName : other.name = parameter.name := by
      obtain ⟨_, _, rfl⟩ := holds
      rfl
    rw [List.find?_cons, List.find?_cons, sameName]
    cases parameter.name == name with
    | true => exact .some holds
    | false => exact ih

theorem Execution.Alike.parameter? (calls : Execution.Alike alike execution other) (name : String) :
    Option.Rel (BoundParameter.Alike alike) (execution.parameter? name)
      (other.parameter? name) := by
  obtain ⟨parameters, related, rfl⟩ := calls
  exact rel_find?_name related name

theorem Execution.alike_self
    (each : ∀ parameter ∈ execution.parameters, alike parameter.value parameter.value) :
    Execution.Alike alike execution execution :=
  ⟨execution.parameters,
    List.forall₂_same.mpr fun parameter member => ⟨parameter.value, each parameter member, rfl⟩,
    rfl⟩

variable {execution other : Option Execution}

theorem together_parameterValues (calls : Option.Rel (Execution.Alike alike) execution other)
    (name : String) :
    (Execution.parameterValues execution name).Matches alike
      (Execution.parameterValues other name) := by
  have found : Option.Rel (BoundParameter.Alike alike)
      (execution.bind fun execution => execution.parameter? name)
      (other.bind fun execution => execution.parameter? name) := by
    cases calls with
    | none => exact .none
    | some callsAlike => exact callsAlike.parameter? name
  unfold Execution.parameterValues
  generalize (execution.bind fun execution => execution.parameter? name) = parameter? at found ⊢
  generalize (other.bind fun execution => execution.parameter? name) = other? at found ⊢
  cases found with
  | none => exact .done _
  | some holds =>
    obtain ⟨value, valuesAlike, rfl⟩ := holds
    exact .perform (.resolve valuesAlike)

mutual

/-- An expression asks for the same whatever its parameters are bound to. -/
theorem Expression.together_program (calls : Option.Rel (Execution.Alike alike) execution other) :
    (expression : Expression) →
      (expression.program execution).Matches alike (expression.program other)
  | .set term => term.together_intern
  | .parameter name => together_parameterValues calls name
  | .union parts => .bind (together_programs calls parts) fun _ => .done _
  | .call callee arguments =>
    .bind (callee.together_program calls) fun _ =>
      .bind (arguments.together_program calls) fun _ => .perform (.same rfl)
  | .readAttribute object _ | .readItem object _ | .elements object | .instances object =>
    .bind (object.together_program calls) fun _ => .perform (.same rfl)
  | .node _ | .hint _ => .perform (.same rfl)
  | .slot generics _ =>
    .bind generics.together_intern fun _ => .bind (.perform (.same rfl)) fun _ => .done _
  | .packedTuple parts =>
    .bind (together_programs calls parts) fun _ => .bind (together_store _) fun _ => .done _

theorem together_programs (calls : Option.Rel (Execution.Alike alike) execution other) :
    (parts : List Expression) → (programs execution parts).Matches alike (programs other parts)
  | [] => .done _
  | part :: rest =>
    .bind (part.together_program calls) fun _ =>
      .bind (together_programs calls rest) fun _ => .done _

theorem CallArguments.together_program
    (calls : Option.Rel (Execution.Alike alike) execution other) :
    (arguments : CallArguments) →
      (arguments.program execution).Matches alike (arguments.program other)
  | .none => .done _
  | .same => by
    have sameArguments : execution.map Execution.arguments = other.map Execution.arguments := by
      cases calls with
      | none => rfl
      | some callsAlike =>
        obtain ⟨_, _, rfl⟩ := callsAlike
        rfl
    rw [CallArguments.program, CallArguments.program, sameArguments]
    exact .done _
  | .written _ => .done _
  | .values parts => .bind (together_programs calls parts) fun _ => .done _
  | .bound receiver arguments =>
    .bind receiver.together_intern fun _ =>
      .bind (arguments.together_program calls) fun _ => .done _
  | .located _ arguments => .bind (arguments.together_program calls) fun _ => .done _

end

end Evaluation

namespace Tree

variable {alike : Deferred → Deferred → Prop}

/-- A node asks for operations without deferred values. -/
theorem together_nodeProgram (tree : Tree) (node : NodeId) :
    (tree.nodeProgram node).Matches alike (tree.nodeProgram node) := by
  unfold nodeProgram
  split
  · exact .done _
  · exact Expression.together_program .none _
  · exact .done _

/-- The body of a function asks for the same whatever its parameters are bound to. -/
theorem together_bodyProgram (tree : Tree) (calls : Execution.Alike alike execution other) :
    (tree.bodyProgram execution).Matches alike (tree.bodyProgram other) := by
  have sameFunction : other.function = execution.function := by
    obtain ⟨_, _, rfl⟩ := calls
    rfl
  unfold bodyProgram
  rw [sameFunction]
  cases tree.bodies.get? execution.function with
  | none => exact .done _
  | some body => exact body.together_program (.some calls)

end Tree

end TypeInference
