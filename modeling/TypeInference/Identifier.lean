/-!
# Identifiers

Values, classes, functions, type variables and syntax nodes are referred to by
their position in the table that owns them.  Each kind of position is a type of
its own, so that a class is never looked up where a function is meant.
-/

namespace TypeInference

/-- Position of an interned value in its arena. -/
structure ValueId where
  index : Nat
deriving DecidableEq, Inhabited

/-- Declaration identity of a class. -/
structure ClassId where
  index : Nat
deriving DecidableEq, Inhabited

/-- Declaration identity of a function or method. -/
structure FunctionId where
  index : Nat
deriving DecidableEq, Inhabited

/--
Declaration identity of a type variable.  Two variables of the same spelling in
different declarations are distinct.
-/
structure TypeVariableId where
  index : Nat
deriving DecidableEq, Inhabited

/-- Handle to a syntax node, which need not exist in the tree. -/
structure NodeId where
  index : Nat
deriving DecidableEq, Inhabited

def NodeId.text (node : NodeId) : String :=
  "#" ++ toString node.index

/-- Cell that remembers what a deferred value resolved to. -/
structure CellId where
  index : Nat
deriving DecidableEq, Inhabited

end TypeInference
