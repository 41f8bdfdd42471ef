import TypeInference.Document.Reader

/-!
# Sections as documents of their own

A table can be written out as a document of its own.  Its keys then come in
increasing order.  Tables and arrays of nothing but tables get headers, unless they
stand within another value; what has headers comes behind what has none.  The
document can be read again if no header is too long and no value nests too deeply.
-/

namespace TypeInference

namespace Document

namespace Value

def isTable : Value → Bool
  | table _ => true
  | _ => false

/-- Whether a value is an array that holds tables and nothing else. -/
def isTables : Value → Bool
  | array items => !items.isEmpty && items.all isTable
  | _ => false

/-- Whether a value gets headers where they are possible. -/
def hasHeaders (value : Value) : Bool :=
  value.isTable || value.isTables

end Value

/-! ## Order -/

/-- Whether an entry comes no later than another one, given whether headers are possible. -/
def precedes (headed : Bool) (entry other : String × Value) : Bool :=
  if headed && entry.2.hasHeaders != other.2.hasHeaders then other.2.hasHeaders
  else entry.1 ≤ other.1

mutual

/-- A value in written order; the flag says whether headers are possible. -/
def Value.arrange (headed : Bool) : Value → Value
  | .array items => .array (arrangeItems (headed && items.all Value.isTable) items)
  | .table entries => .table ((arrangeEntries headed entries).mergeSort (precedes headed))
  | value => value

def arrangeItems (headed : Bool) : List Value → List Value
  | [] => []
  | item :: rest => item.arrange headed :: arrangeItems headed rest

def arrangeEntries (headed : Bool) : List (String × Value) → List (String × Value)
  | [] => []
  | (key, value) :: rest => (key, value.arrange headed) :: arrangeEntries headed rest

end

/-! ## Limits -/

mutual

def Value.nesting : Value → Nat
  | .array items => nestingOfItems items + 1
  | .table entries => nestingOfEntries entries + 1
  | _ => 0

def nestingOfItems : List Value → Nat
  | [] => 0
  | item :: rest => max item.nesting (nestingOfItems rest)

def nestingOfEntries : List (String × Value) → Nat
  | [] => 0
  | (_, value) :: rest => max value.nesting (nestingOfEntries rest)

end

mutual

/-- The length of the longest header that a value with headers adds to the one before it. -/
def Value.headerLength : Value → Nat
  | .array items => headerLengthOfItems items
  | .table entries => headerLengthOfEntries entries
  | _ => 0

def headerLengthOfItems : List Value → Nat
  | [] => 0
  | item :: rest => max item.headerLength (headerLengthOfItems rest)

def headerLengthOfEntries : List (String × Value) → Nat
  | [] => 0
  | (_, value) :: rest =>
    max (if value.hasHeaders then value.headerLength + 1 else 0) (headerLengthOfEntries rest)

end

mutual

/-- The nesting of the deepest value that stands below the headers of a value. -/
def Value.bodyNesting : Value → Nat
  | .array items => bodyNestingOfItems items
  | .table entries => bodyNestingOfEntries entries
  | _ => 0

def bodyNestingOfItems : List Value → Nat
  | [] => 0
  | item :: rest => max item.bodyNesting (bodyNestingOfItems rest)

def bodyNestingOfEntries : List (String × Value) → Nat
  | [] => 0
  | (_, value) :: rest =>
    max (if value.hasHeaders then value.bodyNesting else value.nesting) (bodyNestingOfEntries rest)

end

def isReadableSection (entries : List (String × Value)) : Bool :=
  headerLengthOfEntries entries ≤ nestingLimit && bodyNestingOfEntries entries ≤ nestingLimit

/-- The entries of a section that is written out and read again, if that is possible. -/
def rereadSection? (entries : List (String × Value)) : Option (List (String × Value)) :=
  if isReadableSection entries then
    some ((arrangeEntries true entries).mergeSort (precedes true))
  else none

end Document

end TypeInference
