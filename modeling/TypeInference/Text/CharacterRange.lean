/-!
# Ranges of characters

A class of characters is given by the ranges of code points that belong to it,
in increasing order.  Long classes are written down by the lengths of their ranges and of
the gaps before them.
-/

namespace TypeInference

/-- The code points from a first to a last one. -/
structure CharacterRange where
  first : Nat
  last : Nat

namespace CharacterRange

/-- The ranges behind a start, when code points are skipped and taken by turns. -/
def ofRuns (start : Nat) : List Nat → List CharacterRange
  | skipped :: taken :: rest =>
    ⟨start + skipped, start + skipped + taken - 1⟩ :: ofRuns (start + skipped + taken) rest
  | _ => []

def contains (range : CharacterRange) (code : Nat) : Bool :=
  range.first ≤ code && code ≤ range.last

def anyContains (ranges : List CharacterRange) (code : Nat) : Bool :=
  ranges.any (fun range => range.contains code)

end CharacterRange

end TypeInference
