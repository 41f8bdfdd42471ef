import TypeInference.Table
import TypeInference.Value

/-!
# The arena of interned values

Interning gives a value its identity: equal values share one identifier, and an
identifier never changes its meaning.  The order of interning is the order in
which value sets list their members.  An index beside the values, which is kept in
step with them, says where each of them is.
-/

namespace TypeInference

/-- The interned values in order of interning, and where they are. -/
structure Arena where
  values : Array Value
  index : Table Value ValueId
  /-- Where the index leads, there is the value. -/
  located : ∀ {value id}, index.get? value = some id → values[id.index]? = some value
  /-- The index leads to every value. -/
  listed : ∀ {value}, value ∈ values → index.get? value ≠ none
deriving DecidableEq

namespace Arena

def empty : Arena where
  values := #[]
  index := ∅
  located found := nomatch found
  listed member := by simp at member

/-- Add a value at the end, in both places. -/
def push (arena : Arena) (value : Value) : Arena where
  values := arena.values.push value
  index := arena.index.insert value ⟨arena.values.size⟩
  located {other id} found := by
    by_cases same : other = value
    · subst same
      rw [Table.get?_insert_self] at found
      cases found
      exact Array.getElem?_push_size
    · rw [Table.get?_insert_of_ne _ same] at found
      have stored := arena.located found
      have below := (Array.getElem?_eq_some_iff.mp stored).1
      rw [Array.getElem?_push_lt below, ← stored, Array.getElem?_eq_getElem]
  listed {other} member := by
    by_cases same : other = value
    · rw [same, Table.get?_insert_self]
      nofun
    · rw [Table.get?_insert_of_ne _ same]
      exact arena.listed ((Array.mem_push.mp member).resolve_right same)

/-- Add values in order. -/
def append (arena : Arena) (values : List Value) : Arena :=
  values.foldl push arena

/-- Identifier of the absent value in every arena. -/
def noneId : ValueId := ⟨0⟩

/-- Identifier of the unconstrained value in every arena. -/
def anyId : ValueId := ⟨1⟩

/-- Identifier of the ellipsis in every arena. -/
def ellipsisId : ValueId := ⟨2⟩

def initial : Arena :=
  empty.append [.none, .any, .ellipsis]

instance : Inhabited Arena := ⟨initial⟩

def size (arena : Arena) : Nat :=
  arena.values.size

def get? (arena : Arena) (id : ValueId) : Option Value :=
  arena.values[id.index]?

def find? (arena : Arena) (value : Value) : Option ValueId :=
  arena.index.get? value

/-- The identifier of a value, which is added to the arena if it is new. -/
def intern (arena : Arena) (value : Value) : ValueId × Arena :=
  match arena.find? value with
  | some id => (id, arena)
  | none => (⟨arena.values.size⟩, arena.push value)

end Arena

end TypeInference
