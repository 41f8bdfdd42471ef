import Mathlib.Algebra.GroupWithZero.Nat
import Mathlib.Algebra.Order.BigOperators.Group.List
import Mathlib.Algebra.Order.Group.Nat
import Mathlib.Data.List.Induction
import Mathlib.Data.List.Nodup
import TypeInference.Table

/-!
# Tables of entries

Entries that are inserted one after another give a table.  Its keys stand in the
order of their first entries, and each key has the value of its last entry.
-/

namespace TypeInference

namespace Table

variable {κ ν : Type} [DecidableEq κ]

/-- The table of entries inserted in their order. -/
def ofEntries (entries : List (κ × ν)) : Table κ ν :=
  entries.foldl (fun table entry => table.insert entry.1 entry.2) ∅

theorem ofEntries_concat (entries : List (κ × ν)) (entry : κ × ν) :
    ofEntries (entries ++ [entry]) = (ofEntries entries).insert entry.1 entry.2 := by
  simp [ofEntries]

variable {key other : κ} {entries : List (κ × ν)} {table : Table κ ν} {value : ν} {entry : κ × ν}

theorem place_of_not_mem (absent : key ∉ entries.map Prod.fst) (value : ν) :
    place key value entries = entries ++ [(key, value)] := by
  induction entries with
  | nil => rfl
  | cons entry rest ih =>
    obtain ⟨present, old⟩ := entry
    simp only [List.map_cons, List.mem_cons, not_or] at absent
    rw [place, if_neg (Ne.symm absent.1), ih absent.2, List.cons_append]

theorem map_fst_place_of_mem (member : key ∈ entries.map Prod.fst) (value : ν) :
    (place key value entries).map Prod.fst = entries.map Prod.fst := by
  induction entries with
  | nil => simp at member
  | cons entry rest ih =>
    obtain ⟨present, old⟩ := entry
    by_cases same : present = key
    · simp [place, same]
    · have inRest : key ∈ rest.map Prod.fst := by
        simpa [Ne.symm same] using member
      simp [place, same, ih inRest]

/-- Entries of different keys are the entries of their table. -/
theorem entries_ofEntries (distinct : (entries.map Prod.fst).Nodup) :
    (ofEntries entries).entries = entries := by
  induction entries using List.reverseRecOn with
  | nil => rfl
  | append_singleton entries entry ih =>
    rw [List.map_append, List.nodup_append] at distinct
    obtain ⟨earlier, -, apart⟩ := distinct
    have absent : entry.1 ∉ entries.map Prod.fst :=
      fun member => apart entry.1 member entry.1 (by simp) rfl
    rw [ofEntries_concat, insert, ih earlier, place_of_not_mem absent]

/-- The keys of a table stand in the order of their first entries. -/
theorem map_fst_entries_ofEntries [BEq κ] [LawfulBEq κ] (entries : List (κ × ν)) :
    (ofEntries entries).entries.map Prod.fst = (entries.map Prod.fst).eraseDups := by
  induction entries using List.reverseRecOn with
  | nil => rfl
  | append_singleton entries entry ih =>
    rw [ofEntries_concat, insert, List.map_append, List.eraseDups_append, ← ih]
    by_cases member : entry.1 ∈ entries.map Prod.fst
    · have present : entry.1 ∈ (ofEntries entries).entries.map Prod.fst := by
        rw [ih]
        exact List.mem_eraseDups.mpr member
      rw [map_fst_place_of_mem present]
      simp [List.removeAll, member]
    · have absent : entry.1 ∉ (ofEntries entries).entries.map Prod.fst := by
        rw [ih]
        exact fun present => member (List.mem_eraseDups.mp present)
      rw [place_of_not_mem absent]
      simp [List.removeAll, member, List.eraseDups_cons]

theorem nodup_map_fst_insert (distinct : (table.entries.map Prod.fst).Nodup) (key : κ) (value : ν) :
    ((table.insert key value).entries.map Prod.fst).Nodup := by
  rw [insert]
  by_cases member : key ∈ table.entries.map Prod.fst
  · rwa [map_fst_place_of_mem member]
  · rw [place_of_not_mem member, List.map_append]
    exact distinct.append (List.nodup_singleton _) (by simpa using member)

theorem nodup_map_fst_ofEntries (entries : List (κ × ν)) :
    ((ofEntries entries).entries.map Prod.fst).Nodup := by
  induction entries using List.reverseRecOn with
  | nil => exact List.nodup_nil
  | append_singleton entries entry ih =>
    rw [ofEntries_concat]
    exact nodup_map_fst_insert ih entry.1 entry.2

/-- An entry after an insertion was inserted, or there before. -/
theorem eq_or_mem_of_mem_insert (member : entry ∈ (table.insert key value).entries) :
    entry = (key, value) ∨ entry ∈ table.entries := by
  have placed : ∀ entries : List (κ × ν), entry ∈ place key value entries →
      entry = (key, value) ∨ entry ∈ entries := by
    intro entries
    induction entries with
    | nil => simp [place]
    | cons first rest ih =>
      rw [place]
      split <;> grind
  exact placed table.entries member

theorem get?_ofEntries [BEq κ] [LawfulBEq κ] (entries : List (κ × ν)) (key : κ) :
    (ofEntries entries).get? key =
      ((entries.filter fun entry => entry.1 == key).map Prod.snd).getLast? := by
  induction entries using List.reverseRecOn with
  | nil => rfl
  | append_singleton entries entry ih =>
    rw [ofEntries_concat]
    by_cases same : key = entry.1
    · rw [same, get?_insert_self]
      simp
    · rw [get?_insert_of_ne _ same, ih]
      simp [Ne.symm same]

/-- A key that is not in a table is another one than a key that is. -/
theorem get?_insert_of_absent (absent : table.get? key = none)
    (found : table.get? other = some known) (later : Table κ ν) (value : ν) :
    (later.insert key value).get? other = later.get? other := by
  refine get?_insert_of_ne later ?_ value
  rintro rfl
  cases absent.symm.trans found

/-- What is found after an insertion was inserted, or found before. -/
theorem eq_or_get?_of_get?_insert (found : (table.insert key value).get? other = some known) :
    (other = key ∧ known = value) ∨ table.get? other = some known := by
  by_cases same : other = key
  · subst same
    cases (get?_insert_self _ _ _).symm.trans found
    exact .inl ⟨rfl, rfl⟩
  · exact .inr ((get?_insert_of_ne _ same _).symm.trans found)

theorem find_of_mem (distinct : (entries.map Prod.fst).Nodup) (member : entry ∈ entries) :
    find entry.1 entries = some entry.2 := by
  induction entries with
  | nil => simp at member
  | cons first rest ih =>
    obtain ⟨absent, restDistinct⟩ := List.nodup_cons.mp distinct
    rcases List.mem_cons.mp member with rfl | inRest
    · simp [find]
    · have different : first.1 ≠ entry.1 := by
        intro same
        rw [same] at absent
        exact absent (List.mem_map_of_mem inRest)
      rw [find, if_neg different]
      exact ih restDistinct inRest

/-- An entry of a table holds the last value that was inserted for its key. -/
theorem getLast?_of_mem_ofEntries [BEq κ] [LawfulBEq κ]
    (member : entry ∈ (ofEntries entries).entries) :
    ((entries.filter fun other => other.1 == entry.1).map Prod.snd).getLast? = some entry.2 := by
  rw [← get?_ofEntries]
  exact find_of_mem (nodup_map_fst_ofEntries entries) member

/-! ## Weights -/

/-- The sum of what the values of a table weigh. -/
def weight (weigh : ν → Nat) (table : Table κ ν) : Nat :=
  (table.entries.map fun entry => weigh entry.2).sum

omit [DecidableEq κ] in
@[simp] theorem weight_empty (weigh : ν → Nat) : (∅ : Table κ ν).weight weigh = 0 := rfl

/-- A key that is inserted gives up its old value. -/
theorem weight_insert (weigh : ν → Nat) (table : Table κ ν) (key : κ) (value : ν) :
    (table.insert key value).weight weigh + ((table.get? key).map weigh).getD 0 =
      table.weight weigh + weigh value := by
  obtain ⟨entries⟩ := table
  simp only [weight, insert, get?]
  induction entries with
  | nil => simp [place, find]
  | cons entry rest ih =>
    obtain ⟨present, old⟩ := entry
    by_cases same : present = key
    · simp only [place, find, if_pos same, List.map_cons, List.sum_cons, Option.map_some,
        Option.getD_some]
      omega
    · simp only [place, find, if_neg same, List.map_cons, List.sum_cons]
      omega

theorem weight_insert_of_none (absent : table.get? key = none) (weigh : ν → Nat) (value : ν) :
    (table.insert key value).weight weigh = table.weight weigh + weigh value := by
  have inserted := weight_insert weigh table key value
  rw [absent] at inserted
  exact inserted

theorem weight_insert_of_some (present : table.get? key = some old) (weigh : ν → Nat) (value : ν) :
    (table.insert key value).weight weigh + weigh old = table.weight weigh + weigh value := by
  have inserted := weight_insert weigh table key value
  rw [present] at inserted
  exact inserted

theorem mem_of_find (found : find key entries = some value) : (key, value) ∈ entries := by
  induction entries with
  | nil => cases found
  | cons entry rest ih =>
    obtain ⟨present, old⟩ := entry
    by_cases same : present = key
    · rw [find, if_pos same] at found
      cases found
      exact same ▸ List.mem_cons_self
    · rw [find, if_neg same] at found
      exact List.mem_cons_of_mem _ (ih found)

/-- The values of two keys weigh no more than the table. -/
theorem add_le_weight (different : key ≠ other) (found : table.get? key = some value)
    (otherFound : table.get? other = some otherValue) (weigh : ν → Nat) :
    weigh value + weigh otherValue ≤ table.weight weigh := by
  obtain ⟨entries⟩ := table
  simp only [get?, weight] at found otherFound ⊢
  induction entries with
  | nil => cases found
  | cons entry rest ih =>
    obtain ⟨present, old⟩ := entry
    have single : ∀ {name : κ} {held : ν}, find name rest = some held →
        weigh held ≤ (rest.map fun entry => weigh entry.2).sum := fun isFound =>
      List.single_le_sum (by simp) _ (List.mem_map_of_mem (mem_of_find isFound))
    simp only [find] at found otherFound
    by_cases isKey : present = key
    · rw [if_pos isKey] at found
      rw [if_neg (isKey.trans_ne different)] at otherFound
      cases found
      exact Nat.add_le_add_left (single otherFound) _
    · rw [if_neg isKey] at found
      by_cases isOther : present = other
      · rw [if_pos isOther] at otherFound
        cases otherFound
        rw [Nat.add_comm]
        exact Nat.add_le_add_left (single found) _
      · rw [if_neg isOther] at otherFound
        exact Nat.le_add_left_of_le (ih found otherFound)

end Table

end TypeInference
