import Mathlib.Data.List.DropRight
import TypeInference.Declaration.Builtin
import TypeInference.Proofs.Table

/-!
# Histories of declarations

Classes, functions, methods and overload signatures are declared one after
another.  An identifier goes on denoting what it was given for, and the additions
to a class decide what its method table holds.
-/

namespace TypeInference

/-- A function that was added to a class. -/
structure Addition where
  name : String
  function : FunctionId
  /-- Whether it extends what its name stands for. -/
  isOverload : Bool

/-- A declaration and the identifier that it was given. -/
inductive Entry where
  | class_ (id : ClassId) (given : ClassDeclaration)
  | function (id : FunctionId) (given : FunctionDeclaration)
  | method (owner : ClassId) (id : FunctionId) (given : FunctionDeclaration)
  | overload (owner : ClassId) (id : FunctionId) (given : FunctionDeclaration)

namespace Entry

def function? : Entry → Option (FunctionId × FunctionDeclaration)
  | class_ _ _ => none
  | function id given => some (id, given)
  | method owner id given | overload owner id given => some (id, { given with owner := some owner })

def addition? (class_ : ClassId) : Entry → Option Addition
  | method owner id given => if owner = class_ then some ⟨given.name, id, false⟩ else none
  | overload owner id given => if owner = class_ then some ⟨given.name, id, true⟩ else none
  | _ => none

/-- Its identifier denotes nothing yet. -/
def Fresh (declarations : Declarations) : Entry → Prop
  | class_ id _ => declarations.class? id = none
  | function id _ | method _ id _ | overload _ id _ => declarations.function? id = none

end Entry

/-! ## Method tables -/

/-- What a name stands for after additions: the last method, extended by every overload since. -/
def MethodGroup.after (given : Option MethodGroup) (additions : List Addition) :
    Option MethodGroup :=
  let methods := additions.rdropWhile Addition.isOverload
  let start := (methods.getLast?.map fun method => single method.function).or given
  match additions.rtakeWhile Addition.isOverload with
  | [] => start
  | since => some (overloaded (start.elim [] signatures ++ since.map Addition.function))

namespace Addition

/-- The additions to a given table account for what it became. -/
structure Account (given table : Table String MethodGroup) (additions : List Addition) : Prop where
  groups : ∀ name,
    table.get? name = MethodGroup.after (given.get? name) (additions.filter (·.name = name))
  /-- New names follow the given ones in the order of their first additions. -/
  names : table.keys = given.keys ++ ((additions.map name).filter (· ∉ given.keys)).eraseDups

def group (addition : Addition) (earlier : Option MethodGroup) : MethodGroup :=
  if addition.isOverload then .extend addition.function earlier else .single addition.function

def addTo (addition : Addition) (table : Table String MethodGroup) : Table String MethodGroup :=
  table.insert addition.name (addition.group (table.get? addition.name))

theorem after_concat (addition : Addition) (given : Option MethodGroup)
    (additions : List Addition) :
    MethodGroup.after given (additions ++ [addition]) =
      addition.group (MethodGroup.after given additions) := by
  have extend_eq (group : Option MethodGroup) : MethodGroup.extend addition.function group =
      .overloaded (group.elim [] MethodGroup.signatures ++ [addition.function]) := by
    rcases group with - | (_ | _) <;> rfl
  cases extends_ : addition.isOverload with
  | false => simp [MethodGroup.after, group, extends_]
  | true =>
    simp only [MethodGroup.after, group, extends_, extend_eq, List.rdropWhile_concat_pos,
      List.rtakeWhile_concat_pos]
    cases additions.rtakeWhile isOverload <;> simp [MethodGroup.signatures]

variable {given table : Table String MethodGroup} {additions : List Addition}

theorem Account.nil : Account given given [] := ⟨fun _ => rfl, by simp⟩

theorem Account.concat (account : Account given table additions) (addition : Addition) :
    Account given (addition.addTo table) (additions ++ [addition]) where
  groups name := by
    by_cases same : addition.name = name
    · subst same
      simp [addTo, after_concat, account.groups]
    · simp [addTo, same, Ne.symm same, account.groups]
  names := by
    have keys_addTo : (addition.addTo table).keys =
        if addition.name ∈ table.keys then table.keys else table.keys ++ [addition.name] := by
      split
      case isTrue present => exact Table.map_fst_place_of_mem present _
      case isFalse absent =>
        exact (congrArg _ (Table.place_of_not_mem absent _)).trans List.map_append
    rw [keys_addTo, account.names]
    by_cases inGiven : addition.name ∈ given.keys
    · simp [inGiven]
    · by_cases inAdditions : ∃ other ∈ additions, other.name = addition.name <;>
        simp [inGiven, inAdditions, List.eraseDups_append, List.removeAll, List.eraseDups_cons]

end Addition

/-! ## Runs of declarations -/

namespace Declarations

/-- One declaration is made; additions are made to classes that exist. -/
inductive Makes (before : Declarations) : Entry → Declarations → Prop
  | class_ (given : ClassDeclaration) :
    Makes before (.class_ (before.addClass given).1 given) (before.addClass given).2
  | function (given : FunctionDeclaration) :
    Makes before (.function (before.addFunction given).1 given) (before.addFunction given).2
  | method (owner : ClassId) (given : FunctionDeclaration) (known : before.class? owner ≠ none) :
    Makes before (.method owner (before.addMethod owner given).1 given)
      (before.addMethod owner given).2
  | overload (owner : ClassId) (given : FunctionDeclaration) (known : before.class? owner ≠ none) :
    Makes before (.overload owner (before.addOverload owner given).1 given)
      (before.addOverload owner given).2

/-- Declarations made one after another, from the builtin ones on. -/
inductive Recorded : List Entry → Declarations → Prop
  | initial : Recorded [] World.initial.declarations
  | step : Recorded log before → before.Makes entry after → Recorded (log ++ [entry]) after

/-- Functions and classes are what a log says that they are. -/
structure Reflects (declarations : Declarations) (log : List Entry) : Prop where
  functions : ∀ function ∈ log.filterMap Entry.function?,
    declarations.function? function.1 = some function.2
  classes : ∀ id given,
    World.initial.declarations.class? id = some given ∨ .class_ id given ∈ log →
      ∃ table, declarations.class? id = some { given with methods := table } ∧
        Addition.Account given.methods table (log.filterMap (Entry.addition? id))
  /-- Nothing is added to a class before it is declared. -/
  owners : ∀ id, declarations.class? id = none → log.filterMap (Entry.addition? id) = []

variable {declarations before after : Declarations} {entry : Entry} {log : List Entry}

theorem getElem?_push_of_eq_some {α : Type} {array : Array α} {index : Nat} {value : α}
    (found : array[index]? = some value) (last : α) : (array.push last)[index]? = some value := by
  have below := (Array.getElem?_eq_some_iff.mp found).1
  rw [Array.getElem?_push, if_neg (by omega), found]

namespace Makes

theorem fresh (makes : before.Makes entry after) : entry.Fresh before := by
  cases makes <;> exact Array.getElem?_size

theorem function? (makes : before.Makes entry after) {function : FunctionId × FunctionDeclaration}
    (declared : entry.function? = some function ∨ before.function? function.1 = some function.2) :
    after.function? function.1 = some function.2 := by
  cases makes with
  | class_ given => exact declared.resolve_left (by simp [Entry.function?])
  | function given | method owner given known | overload owner given known =>
    rcases declared with new | old
    · cases new
      exact Array.getElem?_push_size
    · exact getElem?_push_of_eq_some old _

theorem class? (makes : before.Makes entry after) {id : ClassId} {class_ : ClassDeclaration}
    (declared : before.class? id = some class_) :
    after.class? id = some { class_ with
      methods := (entry.addition? id).elim class_.methods (·.addTo class_.methods) } := by
  cases makes with
  | class_ given => exact getElem?_push_of_eq_some declared given
  | function given => exact declared
  | method owner given known | overload owner given known =>
    obtain ⟨index⟩ := id
    obtain ⟨owner⟩ := owner
    refine Array.getElem?_modify.trans ?_
    change (if owner = index then (before.class? ⟨index⟩).map _ else before.class? ⟨index⟩) = _
    by_cases same : owner = index <;>
      simp [declared, same, Entry.addition?, Addition.addTo, Addition.group, addMethod,
        addOverload, addFunction]

end Makes

theorem Reflects.step (reflects : before.Reflects log) (makes : before.Makes entry after) :
    after.Reflects (log ++ [entry]) where
  functions function member := by
    rw [List.filterMap_append, List.mem_append] at member
    exact makes.function? (member.symm.imp (by simp) (reflects.functions function))
  classes id given declared := by
    rw [List.filterMap_append]
    rw [List.mem_append, ← or_assoc, List.mem_singleton] at declared
    rcases declared with earlier | rfl
    · obtain ⟨table, found, account⟩ := reflects.classes id given earlier
      refine ⟨(entry.addition? id).elim table (·.addTo table), makes.class? found, ?_⟩
      cases added : entry.addition? id with
      | none => simpa [added] using account
      | some addition => simpa [added] using account.concat addition
    · cases makes
      refine ⟨given.methods, Array.getElem?_push_size, ?_⟩
      -- The identifier was not known, so nothing was added to it.
      rw [reflects.owners (before.addClass given).1 Array.getElem?_size]
      exact .nil
  owners id unknown := by
    have unknownBefore : before.class? id = none :=
      Option.eq_none_iff_forall_ne_some.mpr fun _ found => by simp [makes.class? found] at unknown
    have notAdded : entry.addition? id = none := by
      cases makes <;> grind [Entry.addition?]
    simp [reflects.owners id unknownBefore, notAdded]

theorem Recorded.reflects (recorded : Recorded log declarations) : declarations.Reflects log := by
  induction recorded with
  | initial =>
    exact ⟨by simp, fun id given declared => ⟨given.methods, by simpa using declared, .nil⟩,
      fun _ _ => rfl⟩
  | step _ makes ih => exact ih.step makes

/-- Every identifier is new when it is given, and declarations reflect all that was recorded. -/
theorem declarations_reflect_history (recorded : Recorded log declarations) :
    declarations.Reflects log ∧
      (∀ given ∈ World.initial.declarations.classes, given.methods = ∅) ∧
      ∀ entry after, declarations.Makes entry after → entry.Fresh declarations :=
  ⟨recorded.reflects, by decide, fun _ _ => Makes.fresh⟩

/-- A class is declared, with a method and an overload of one name. -/
theorem overloaded_method_reflects_history :
    let log : List Entry := [.class_ ⟨15⟩ { name := "Parser" },
      .method ⟨15⟩ ⟨2⟩ { name := "parse" }, .overload ⟨15⟩ ⟨3⟩ { name := "parse" }]
    ∃ declarations, Recorded log declarations ∧ declarations.Reflects log :=
  have recorded := ((Recorded.initial.step (.class_ { name := "Parser" })).step
    (.method ⟨15⟩ { name := "parse" } (by decide))).step
    (.overload ⟨15⟩ { name := "parse" } (by decide))
  ⟨_, recorded, (declarations_reflect_history recorded).1⟩

end Declarations

end TypeInference
