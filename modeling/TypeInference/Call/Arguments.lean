import TypeInference.TypeSet

/-!
# Arguments of a call

Arguments are written at a call site, or are values inferred before.  The
arguments of a method call carry the value that the method was looked up on.
-/

namespace TypeInference

inductive Argument where
  | positional (node : NodeId)
  | keyword (name : String) (node : NodeId)
  /-- Items of the value are positional arguments. -/
  | starred (node : NodeId)
  /-- Entries of the value are keyword arguments. -/
  | doubleStarred (node : NodeId)
deriving DecidableEq

def Argument.keyword? : Argument → Option (String × NodeId)
  | keyword name node => some (name, node)
  | _ => none

inductive Arguments where
  | written (arguments : List Argument) (callSite : Option NodeId)
  /-- Positional values inferred before. -/
  | values (sets : List TypeSet)
  /-- Arguments of a method call, in front of which stands the receiver. -/
  | bound (receiver : ValueId) (arguments : Arguments)
deriving DecidableEq

namespace Arguments

def empty : Arguments :=
  values []

instance : Inhabited Arguments := ⟨empty⟩

def locate (node : NodeId) : Arguments → Arguments
  | written arguments _ => written arguments (some node)
  | values sets => values sets
  | bound receiver arguments => bound receiver (arguments.locate node)

def receiver? : Arguments → Option ValueId
  | bound receiver _ => some receiver
  | written _ _ | values _ => none

def callSite? : Arguments → Option NodeId
  | written _ callSite => callSite
  | values _ => none
  | bound _ arguments => arguments.callSite?

end Arguments

end TypeInference
