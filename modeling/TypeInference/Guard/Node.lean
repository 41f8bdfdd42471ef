import TypeInference.Identifier

/-!
# The node guard

A node that is already being inferred further up is not inferred again.
-/

namespace TypeInference

/-- The nodes that are being inferred. -/
structure NodeGuard where
  active : List NodeId := []
deriving DecidableEq, Inhabited

namespace NodeGuard

/-- Start a node, unless it is being inferred already. -/
def enter? (guard : NodeGuard) (node : NodeId) : Option NodeGuard :=
  if node ∈ guard.active then none else some ⟨node :: guard.active⟩

def leave (guard : NodeGuard) : NodeGuard :=
  ⟨guard.active.tail⟩

def depth (guard : NodeGuard) : Nat :=
  guard.active.length

end NodeGuard

end TypeInference
