import TypeInference.Expression

/-!
# Trees

A tree in memory: its nodes evaluate to fixed sets or to expressions, and it knows
the elements of subscripts, the targets of string annotations, the names at its
root and the bodies of functions.
-/

namespace TypeInference

inductive NodeContent where
  | fixed (set : TypeSet)
  | computed (expression : Expression)

/-- A tree in memory. -/
structure Tree where
  nodes : Array NodeContent := #[]
  subscripts : Table NodeId (List NodeId) := ∅
  /-- The nodes that string annotations denote. -/
  references : Table String NodeId := ∅
  names : Table String TypeSet := ∅
  bodies : Table FunctionId Expression := ∅

namespace Tree

def size (tree : Tree) : Nat :=
  tree.nodes.size

def isEmpty (tree : Tree) : Bool :=
  tree.size == 0

/-! ## Growing a tree -/

def addContent (tree : Tree) (content : NodeContent) : NodeId × Tree :=
  (⟨tree.size⟩, { tree with nodes := tree.nodes.push content })

def addNode (tree : Tree) (set : TypeSet) : NodeId × Tree :=
  tree.addContent (.fixed set)

def addComputed (tree : Tree) (expression : Expression) : NodeId × Tree :=
  tree.addContent (.computed expression)

def addSubscript (tree : Tree) (elements : List NodeId) : NodeId × Tree :=
  let (node, tree) := tree.addNode ∅
  (node, { tree with subscripts := tree.subscripts.insert node elements })

/-- Say which node a string annotation denotes. -/
def addReference (tree : Tree) (source : String) (target : NodeId) : Tree :=
  { tree with references := tree.references.insert source target }

def defineName (tree : Tree) (name : String) (set : TypeSet) : Tree :=
  { tree with names := tree.names.insert name set }

def setBody (tree : Tree) (function : FunctionId) (body : Expression) : Tree :=
  { tree with bodies := tree.bodies.insert function body }

/-! ## Access -/

/-- The program of a node; nodes that do not exist evaluate to nothing. -/
def nodeProgram (tree : Tree) (node : NodeId) : Program TypeSet :=
  match tree.nodes[node.index]? with
  | some (.fixed set) => .done set
  | some (.computed expression) => expression.program none
  | none => .done ∅

/-- The set of a node, where computed nodes evaluate to nothing. -/
def fixedSet (tree : Tree) (node : NodeId) : TypeSet :=
  match tree.nodes[node.index]? with
  | some (.fixed set) => set
  | some (.computed _) | none => ∅

/-- The program of a body; functions without a body return nothing. -/
def bodyProgram (tree : Tree) (execution : Execution) : Program TypeSet :=
  match tree.bodies.get? execution.function with
  | some body => body.program (some execution)
  | none => .done ∅

def provider (tree : Tree) : Provider where
  inferNode := tree.nodeProgram
  subscript? := tree.subscripts.get?
  forwardReference? := tree.references.get?
  resolveName name := .done ((tree.names.get? name).getD ∅)
  inferBody := tree.bodyProgram

/-- Access to a tree whose computed nodes are not evaluated. -/
def fixedProvider (tree : Tree) : Provider :=
  { tree.provider with inferNode := fun node => .done (tree.fixedSet node) }

/-- Access to the nodes of a tree and to nothing else of it. -/
def nodeProvider (tree : Tree) : Provider where
  inferNode := tree.nodeProgram

end Tree

end TypeInference
