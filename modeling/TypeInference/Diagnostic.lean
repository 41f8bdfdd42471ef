import TypeInference.Identifier

/-!
# Diagnostics

What is wrong with a call is recorded in a sink, and inference carries on.  A
sink records, or discards everything it is given.
-/

namespace TypeInference

/-- What can be wrong with a call. -/
inductive DiagnosticKind where
  | tooManyArguments
  | tooFewArguments
  | multipleValues
  | unexpectedKeyword
  | starNotIterable
  | doubleStarNotMapping
deriving DecidableEq

/-- Stable code for filtering and suppression. -/
def DiagnosticKind.code : DiagnosticKind → String
  | tooManyArguments => "type-error-too-many-arguments"
  | tooFewArguments => "type-error-too-few-arguments"
  | multipleValues => "type-error-multiple-values"
  | unexpectedKeyword => "type-error-keyword-argument"
  | starNotIterable => "type-error-star"
  | doubleStarNotMapping => "type-error-star-star"

namespace DiagnosticKind

def all : List DiagnosticKind :=
  [tooManyArguments, tooFewArguments, multipleValues, unexpectedKeyword, starNotIterable,
    doubleStarNotMapping]

def name : DiagnosticKind → String
  | tooManyArguments => "TooManyArguments"
  | tooFewArguments => "TooFewArguments"
  | multipleValues => "MultipleValues"
  | unexpectedKeyword => "UnexpectedKeyword"
  | starNotIterable => "StarNotIterable"
  | doubleStarNotMapping => "DoubleStarNotMapping"

def ofName? (name : String) : Option DiagnosticKind :=
  all.find? (fun kind => kind.name == name)

end DiagnosticKind

/-- One problem of a call. -/
structure Diagnostic where
  kind : DiagnosticKind
  /-- The offending argument, else the call. -/
  node : Option NodeId
  message : String
deriving DecidableEq

def Diagnostic.text (diagnostic : Diagnostic) : String :=
  let place :=
    match diagnostic.node with
    | some node => " at " ++ node.text
    | none => ""
  "[" ++ diagnostic.kind.code ++ "] " ++ diagnostic.message ++ place

structure Diagnostics where
  /-- The recorded problems, earliest first. -/
  items : List Diagnostic := []
  discards : Bool := false
deriving DecidableEq, Inhabited

namespace Diagnostics

/-- A sink that drops everything, for binding that is only after values. -/
def discarding : Diagnostics :=
  { discards := true }

def push (sink : Diagnostics) (diagnostic : Diagnostic) : Diagnostics :=
  if sink.discards then sink else { sink with items := sink.items ++ [diagnostic] }

def size (sink : Diagnostics) : Nat :=
  sink.items.length

def isEmpty (sink : Diagnostics) : Bool :=
  sink.items.isEmpty

def count (sink : Diagnostics) (kind : DiagnosticKind) : Nat :=
  sink.items.countP (fun diagnostic => diagnostic.kind == kind)

end Diagnostics

end TypeInference
