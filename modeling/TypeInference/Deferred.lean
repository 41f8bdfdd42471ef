import TypeInference.Text.Quoted
import TypeInference.TypeSet

/-!
# Deferred values

Arguments are not inferred before someone asks for them.  A deferred value says
what would be inferred, and names the cell that remembers the answer, so that
everyone who shares the deferred value shares its one answer.
-/

namespace TypeInference

/-- A value that is inferred on demand. -/
inductive Deferred where
  | node (cell : CellId) (node : NodeId)
  | known (cell : CellId) (set : TypeSet)
  | unknown (cell : CellId)
  /-- The union of several candidates for one place. -/
  | merged (cell : CellId) (parts : List Deferred)
  /-- Positional arguments collected by a starred parameter. -/
  | packedTuple (cell : CellId) (items : List Deferred)
  /-- Keyword arguments collected by a double-starred parameter. -/
  | packedDict (cell : CellId) (entries : List (String × Deferred))

namespace Deferred

/-- The cell that remembers the answer. -/
def cell : Deferred → CellId
  | node cell _ | known cell _ | unknown cell | merged cell _ | packedTuple cell _
  | packedDict cell _ => cell

/-- The node of a deferred value that infers just one node. -/
def node? : Deferred → Option NodeId
  | node _ source => some source
  | _ => none

mutual

/-- What would be inferred, without inferring it. -/
def summary : Deferred → String
  | node _ source => "Deferred(" ++ source.text ++ ")"
  | known _ set => "Known(" ++ toString set.size ++ " value(s))"
  | unknown _ => "Unknown"
  | merged _ parts => "Merged([" ++ ", ".intercalate (summaries parts) ++ "])"
  | packedTuple _ items => "PackedTuple([" ++ ", ".intercalate (summaries items) ++ "])"
  | packedDict _ entries => "PackedDict([" ++ ", ".intercalate (entrySummaries entries) ++ "])"

def summaries : List Deferred → List String
  | [] => []
  | part :: rest => part.summary :: summaries rest

def entrySummaries : List (String × Deferred) → List String
  | [] => []
  | (key, value) :: rest =>
    ("(" ++ Text.quoted key ++ ", " ++ value.summary ++ ")") :: entrySummaries rest

end

section Spelling

variable (spellSet : TypeSet → String)

mutual

/-- The exact text of a deferred value, given that of sets. -/
def spell : Deferred → String
  | node _ source => "node " ++ source.text
  | known _ set => "known " ++ spellSet set
  | unknown _ => "unknown"
  | merged _ parts => "merged(" ++ ", ".intercalate (spellAll parts) ++ ")"
  | packedTuple _ items => "ptuple(" ++ ", ".intercalate (spellAll items) ++ ")"
  | packedDict _ entries => "pdict(" ++ ", ".intercalate (spellEntries entries) ++ ")"

def spellAll : List Deferred → List String
  | [] => []
  | part :: rest => spell part :: spellAll rest

def spellEntries : List (String × Deferred) → List String
  | [] => []
  | (key, value) :: rest => (key ++ "=" ++ spell value) :: spellEntries rest

end

end Spelling

end Deferred

end TypeInference
