import TypeInference.Proofs.Deferred
import TypeInference.Proofs.Scope

/-!
# Scope of operations and programs

An operation is within a scope when everything it is applied to is.  A program is
within a scope when it only asks for operations that are, whatever is answered
within the scope that has grown until then, and when its own answer is.  This is
all that inference relies on in the owner of a syntax tree.
-/

namespace TypeInference

variable {parts : List Deferred} {entries : List (String × Deferred)}

variable {declarations : Declarations} {bound later : Nat}

/-! ## Deferred values -/

mutual

/-- The sets that a deferred value knows are within the scope. -/
def Deferred.InScope (declarations : Declarations) (bound : Nat) : Deferred → Prop
  | .node _ _ | .unknown _ => True
  | .known _ set => Within declarations bound set
  | .merged _ parts | .packedTuple _ parts => Deferred.AllInScope declarations bound parts
  | .packedDict _ entries => Deferred.EntriesInScope declarations bound entries

/-- The sets that deferred values know are within the scope. -/
def Deferred.AllInScope (declarations : Declarations) (bound : Nat) : List Deferred → Prop
  | [] => True
  | part :: rest =>
    Deferred.InScope declarations bound part ∧ Deferred.AllInScope declarations bound rest

/-- The sets that keyed deferred values know are within the scope. -/
def Deferred.EntriesInScope (declarations : Declarations) (bound : Nat) :
    List (String × Deferred) → Prop
  | [] => True
  | (_, part) :: rest =>
    Deferred.InScope declarations bound part ∧ Deferred.EntriesInScope declarations bound rest

end

theorem Deferred.allInScope_iff : Deferred.AllInScope declarations bound parts ↔
    ∀ part ∈ parts, part.InScope declarations bound := by
  induction parts with
  | nil => simp [Deferred.AllInScope]
  | cons part rest ih => simp [Deferred.AllInScope, ih]

theorem Deferred.entriesInScope_iff : Deferred.EntriesInScope declarations bound entries ↔
    ∀ part ∈ entries.map Prod.snd, part.InScope declarations bound := by
  induction entries with
  | nil => simp [Deferred.EntriesInScope]
  | cons entry rest ih => simp [Deferred.EntriesInScope, ih]

/-- A deferred value is within a scope if its parts are and what it knows is. -/
theorem Deferred.inScope_iff {deferred : Deferred} : deferred.InScope declarations bound ↔
    (∀ set, deferred.recipe = .take set → Within declarations bound set) ∧
      ∀ part ∈ deferred.parts, part.InScope declarations bound := by
  cases deferred with
  | node | known => simp [Deferred.InScope, Deferred.recipe, Deferred.parts]
  | unknown => simp [Deferred.InScope, Deferred.recipe, Deferred.parts, within_empty]
  | merged | packedTuple =>
    simp [Deferred.InScope, Deferred.recipe, Deferred.parts, Deferred.allInScope_iff]
  | packedDict =>
    simp only [Deferred.InScope, Deferred.recipe, Deferred.parts, Deferred.entriesInScope_iff]
    simp

theorem Deferred.InScope.grow (larger : bound ≤ later) (deferred : Deferred)
    (within : deferred.InScope declarations bound) :
    deferred.InScope declarations later := by
  induction deferred using Deferred.induction_on_parts with
  | each deferred ih =>
    rw [Deferred.inScope_iff] at within ⊢
    exact ⟨fun set taken => (within.1 set taken).grow larger,
      fun part isPart => ih part isPart (within.2 part isPart)⟩

instance : Scoped Deferred where
  within := Deferred.InScope
  grow := fun larger within => Deferred.InScope.grow larger _ within

theorem within_known {set : TypeSet} (within : Within declarations bound set) (cell : CellId) :
    Within declarations bound (Deferred.known cell set) :=
  Deferred.inScope_iff.mpr ⟨by rintro _ ⟨⟩; exact within, by simp [Deferred.parts]⟩

theorem within_merged (within : Within declarations bound parts) (cell : CellId) :
    Within declarations bound (Deferred.merged cell parts) :=
  Deferred.inScope_iff.mpr ⟨by rintro _ ⟨⟩, within⟩

theorem within_packedTuple (within : Within declarations bound items) (cell : CellId) :
    Within declarations bound (Deferred.packedTuple cell items) :=
  Deferred.inScope_iff.mpr ⟨by rintro _ ⟨⟩, within⟩

theorem within_packedDict (within : Within declarations bound entries) (cell : CellId) :
    Within declarations bound (Deferred.packedDict cell entries) :=
  Deferred.inScope_iff.mpr ⟨by rintro _ ⟨⟩, within_map _ fun entry member => (within entry member).2⟩

/-! ## Calls -/

instance : Scoped Supplied where
  within := fun declarations bound supplied => Within declarations bound supplied.value
  grow := fun larger within => within.grow larger

instance : Scoped BoundParameter where
  within := fun declarations bound parameter =>
    Within declarations bound parameter.function ∧ Within declarations bound parameter.value
  grow := fun larger within => ⟨within.1.grow larger, within.2.grow larger⟩

/-- The sets and receivers of a call are within the scope. -/
def Arguments.InScope (declarations : Declarations) (bound : Nat) : Arguments → Prop
  | .written _ _ => True
  | .values sets => Within declarations bound sets
  | .bound receiver arguments =>
    Within declarations bound receiver ∧ arguments.InScope declarations bound

theorem Arguments.InScope.grow {arguments : Arguments}
    (within : arguments.InScope declarations bound) (larger : bound ≤ later) :
    arguments.InScope declarations later := by
  induction arguments with
  | written arguments callSite => trivial
  | values sets => exact Scoped.grow (α := List TypeSet) larger within
  | bound receiver arguments ih =>
    exact ⟨within.1.grow larger, ih within.2⟩

instance : Scoped Arguments where
  within := Arguments.InScope
  grow := fun larger within => within.grow larger

instance : Scoped Execution where
  within := fun declarations bound execution =>
    Within declarations bound execution.function ∧
      Within declarations bound execution.arguments ∧
      Within declarations bound execution.parameters
  grow := fun larger within =>
    ⟨within.1.grow larger, within.2.1.grow larger, within.2.2.grow larger⟩

instance : Scoped Engine.Ancestor where
  within := fun declarations bound ancestor =>
    Within declarations bound ancestor.class_ ∧ Within declarations bound ancestor.value
  grow := fun larger within => ⟨within.1.grow larger, within.2.grow larger⟩

/-! ## Operations -/

namespace Operation

/-- Everything that an operation is applied to is within the scope. -/
def InScope (declarations : Declarations) (bound : Nat) : {α : Type} → Operation α → Prop
  | _, .intern stored => Within declarations bound stored
  | _, .value id | _, .classOf id | _, .resolutionOrder id | _, .elements id
  | _, .classBindings id => Within declarations bound id
  | _, .inferNode _ | _, .readHint _ => True
  | _, .parameterType function _ => Within declarations bound function
  | _, .typeArguments generics => Within declarations bound generics
  | _, .classesOf set | _, .instances set | _, .iterate set | _, .elementSet set
  | _, .readAttribute set _ | _, .readItem set _ | _, .freeVariables set =>
    Within declarations bound set
  | _, .ancestor id class_ => Within declarations bound id ∧ Within declarations bound class_
  | _, .execute set arguments =>
    Within declarations bound set ∧ Within declarations bound arguments
  | _, .returnType function arguments | _, .inferVariables function arguments
  | _, .bind function arguments _ =>
    Within declarations bound function ∧ Within declarations bound arguments
  | _, .typedDictKeys class_ | _, .typedDictField class_ _ => Within declarations bound class_
  | _, .unify hint actual => Within declarations bound hint ∧ Within declarations bound actual
  | _, .substitute set substitution =>
    Within declarations bound set ∧ Within declarations bound substitution
  | _, .unpack arguments function _ =>
    Within declarations bound arguments ∧ Within declarations bound function
  | _, .accepts parameter => Within declarations bound parameter
  | _, .matchSignature arguments _ => Within declarations bound arguments
  | _, .resolve deferred => Within declarations bound deferred

/-- The answer to an operation is within the scope. -/
def Answers (declarations : Declarations) (bound : Nat) :
    {α : Type} → Operation α → α → Prop
  | _, .intern _, id => Within declarations bound id
  | _, .value _, stored => Within declarations bound stored
  | _, .inferNode _, set | _, .readHint _, set | _, .parameterType _ _, set | _, .classesOf _, set
  | _, .instances _, set | _, .execute _ _, set | _, .returnType _ _, set | _, .elementSet _, set
  | _, .readAttribute _ _, set | _, .readItem _ _, set | _, .typedDictField _ _, set
  | _, .substitute _ _, set | _, .resolve _, set => Within declarations bound set
  | _, .typeArguments _, arguments => Within declarations bound arguments
  | _, .classOf _, found | _, .ancestor _ _, found => Within declarations bound found
  | _, .resolutionOrder _, order => Within declarations bound order
  | _, .elements _, found => Within declarations bound found
  | _, .iterate _, items => Within declarations bound items
  | _, .typedDictKeys _, _ | _, .freeVariables _, _ | _, .accepts _, _ => True
  | _, .unify _ _, bindings | _, .inferVariables _ _, bindings | _, .classBindings _, bindings =>
    Within declarations bound bindings
  | _, .unpack _ _ _, result => Within declarations bound result
  | _, .bind _ _ _, result => Within declarations bound result
  | _, .matchSignature _ _, outcome => Within declarations bound outcome

end Operation

/-! ## Programs -/

/--
A program that stays within the scope: it asks for operations that are within the
scope of its time, and answers with a set that is.
-/
def Program.InScope (declarations : Declarations) : Nat → Program TypeSet → Prop
  | bound, .done answer => Within declarations bound answer
  | bound, .ask operation next =>
    operation.InScope declarations bound ∧
      ∀ later reply, bound ≤ later → operation.Answers declarations later reply →
        (next reply).InScope declarations later

/-- A tree whose programs stay within the scope. -/
structure Provider.InScope (declarations : Declarations) (bound : Nat)
    (provider : Provider) : Prop where
  nodes : ∀ later node, bound ≤ later → (provider.inferNode node).InScope declarations later
  names : ∀ later name, bound ≤ later → (provider.resolveName name).InScope declarations later
  bodies : ∀ later execution, bound ≤ later → Within declarations later execution →
    (provider.inferBody execution).InScope declarations later

end TypeInference
