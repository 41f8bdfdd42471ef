/-!
# Tables in order of insertion

A table maps keys to values and lists its entries in the order in which their
keys were first inserted.  Inserting a key again replaces its value and keeps
its place.
-/

namespace TypeInference

/-- A finite map that remembers the order in which keys were first inserted. -/
structure Table (κ ν : Type) where
  entries : List (κ × ν)
deriving DecidableEq

namespace Table

variable {κ ν : Type} [DecidableEq κ]

def empty : Table κ ν :=
  ⟨[]⟩

instance : EmptyCollection (Table κ ν) := ⟨empty⟩

instance : Inhabited (Table κ ν) := ⟨empty⟩

def size (table : Table κ ν) : Nat :=
  table.entries.length

def isEmpty (table : Table κ ν) : Bool :=
  table.entries.isEmpty

def keys (table : Table κ ν) : List κ :=
  table.entries.map (fun entry => entry.1)

/-- The value of the first entry with a key. -/
def find (key : κ) : List (κ × ν) → Option ν
  | [] => none
  | (present, value) :: rest => if present = key then some value else find key rest

def get? (table : Table κ ν) (key : κ) : Option ν :=
  find key table.entries

def contains (table : Table κ ν) (key : κ) : Bool :=
  (table.get? key).isSome

/-- Replace the value of a key in its place, or add the key at the end. -/
def place (key : κ) (value : ν) : List (κ × ν) → List (κ × ν)
  | [] => [(key, value)]
  | (present, old) :: rest =>
    if present = key then (key, value) :: rest else (present, old) :: place key value rest

def insert (table : Table κ ν) (key : κ) (value : ν) : Table κ ν :=
  ⟨place key value table.entries⟩

@[simp] theorem find_place_self (key : κ) (value : ν) (entries : List (κ × ν)) :
    find key (place key value entries) = some value := by
  induction entries with
  | nil => simp [place, find]
  | cons entry rest ih =>
    obtain ⟨present, old⟩ := entry
    by_cases same : present = key <;> simp [place, find, same, ih]

@[simp] theorem find_place_of_ne {key other : κ} (different : other ≠ key) (value : ν)
    (entries : List (κ × ν)) :
    find other (place key value entries) = find other entries := by
  induction entries with
  | nil => simp [place, find, different.symm]
  | cons entry rest ih =>
    obtain ⟨present, old⟩ := entry
    by_cases same : present = key
    · subst same
      simp [place, find, different.symm]
    · by_cases found : present = other <;>
        simp_all [place, find]

@[simp] theorem get?_insert_self (table : Table κ ν) (key : κ) (value : ν) :
    (table.insert key value).get? key = some value :=
  find_place_self key value table.entries

@[simp] theorem get?_insert_of_ne (table : Table κ ν) {key other : κ} (different : other ≠ key)
    (value : ν) : (table.insert key value).get? other = table.get? other :=
  find_place_of_ne different value table.entries

end Table

end TypeInference
