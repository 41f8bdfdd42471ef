import TypeInference.Log.Pattern.Brackets
import TypeInference.Text.Alphanumeric

/-!
# Patterns

A pattern is a sequence of elements, classes and groups, which may be repeated, or
has several branches.  Groups can have names, each once only, and can change the
mode.  A pattern has a depth: groups, classes, repetitions, several branches and
sequences of several parts each add one level, and there is a limit to it.
-/

namespace TypeInference

namespace Log

namespace Pattern

/-! ## Groups -/

/-- The flags of a group. -/
structure Flags where
  on : List Char := []
  off : List Char := []

/-- The value of a flag that had a value before. -/
def Flags.value (flags : Flags) (flag : Char) (before : Bool) : Bool :=
  flag ∈ flags.on || (before && flag ∉ flags.off)

def Flags.apply (flags : Flags) (mode : Mode) : Mode :=
  ⟨flags.value 'u' mode.unicode, flags.value 'x' mode.spaced⟩

def flagLetters : List Char := ['i', 'm', 's', 'U', 'u', 'R', 'x']

/-- Read flags, each of which comes once, behind the hyphen that clears flags. -/
def readCleared (flags : Flags) : List Char → Option (Flags × List Char)
  | [] => none
  | flag :: rest =>
    if flag == ':' || flag == ')' then
      if flags.off.isEmpty then none else some (flags, flag :: rest)
    else if flag ∈ flagLetters && flag ∉ flags.on ++ flags.off then
      readCleared { flags with off := flag :: flags.off } rest
    else none

/-- Read flags, each of which comes once, up to the mark that ends them. -/
def readFlags (flags : Flags) : List Char → Option (Flags × List Char)
  | [] => none
  | flag :: rest =>
    if flag == ':' || flag == ')' then some (flags, flag :: rest)
    else if flag == '-' then readCleared flags rest
    else if flag ∈ flagLetters && flag ∉ flags.on then
      readFlags { flags with on := flag :: flags.on } rest
    else none

def isGroupName : List Char → Bool
  | [] => false
  | first :: rest =>
    (first == '_' || Text.isLetter first) &&
      rest.all fun character =>
        character ∈ ['_', '.', '[', ']'] || Text.isLetterOrNumber character

/-- The names of groups and the mode that hold at a place, and the text behind it. -/
structure Scan where
  rest : List Char
  mode : Mode := {}
  names : List (List Char) := []

def Scan.readName (scan : Scan) (text : List Char) : Option Scan :=
  let name := text.takeWhile (fun character => character != '>')
  match text.dropWhile (fun character => character != '>') with
  | _ :: rest =>
    if isGroupName name && name ∉ scan.names then
      some { scan with rest := rest, names := name :: scan.names }
    else none
  | [] => none

/-- What an opening parenthesis opens. -/
inductive Opening where
  | group (scan : Scan)
  /-- Nothing: it changes the mode of the group around it. -/
  | change (scan : Scan)

/-- Read what stands behind an opening parenthesis and makes it special. -/
def Scan.readOpening (scan : Scan) (text : List Char) : Option Opening :=
  match scan.mode.skip text with
  | '?' :: 'P' :: '<' :: rest => (scan.readName rest).map .group
  | '?' :: '<' :: rest => (scan.readName rest).map .group
  | '?' :: rest =>
    match readFlags {} rest with
    | some (flags, ':' :: rest) =>
      some (.group { scan with rest := rest, mode := flags.apply scan.mode })
    | some (flags, _ :: rest) =>
      if flags.on.isEmpty && flags.off.isEmpty then none
      else some (.change { scan with rest := rest, mode := flags.apply scan.mode })
    | _ => none
  | rest => some (.group { scan with rest := rest })

/-! ## Branches -/

/-- What has been read of a group. -/
structure Branches where
  finished : Nat := 0
  finishedDepth : Nat := 0
  parts : Nat := 0
  /-- The depth of the deepest part of the branch at hand. -/
  depth : Nat := 0
  /-- The depth of the last part, if it can be repeated. -/
  last : Option Nat := none

namespace Branches

def add (branches : Branches) (depth : Nat) : Branches :=
  { branches with
    parts := branches.parts + 1, depth := max branches.depth depth, last := some depth }

/-- Add a part that cannot be repeated. -/
def addFixed (branches : Branches) : Branches :=
  { branches with parts := branches.parts + 1, last := none }

def repeat? (branches : Branches) : Option Branches :=
  branches.last.map fun depth =>
    { branches with depth := max branches.depth (depth + 1), last := some (depth + 1) }

def split (branches : Branches) : Branches :=
  let depth := if branches.parts ≤ 1 then branches.depth else branches.depth + 1
  { finished := branches.finished + 1, finishedDepth := max branches.finishedDepth depth }

def total (branches : Branches) : Nat :=
  let finished := branches.split
  if finished.finished ≤ 1 then finished.finishedDepth else finished.finishedDepth + 1

end Branches

def readElement (mode : Mode) : List Char → Option (Element × List Char)
  | [] => none
  | character :: rest =>
    match character with
    | '\\' => readEscape mode rest
    | '.' => some (.any, rest)
    | '^' | '$' => some (.edge, rest)
    | _ => some (.character character false, rest)

/-- Skip the mark that makes a repetition short. -/
def skipShortMark : List Char → List Char
  | '?' :: rest => rest
  | rest => rest

/--
Read a group, whose nesting is bounded, up to a closing parenthesis or the end, and
give its depth.  Repetitions with counts need braces, which are not supported.
-/
def readGroup : Nat → Branches → Scan → Option (Nat × Scan)
  | 0, _, _ => none
  | bound + 1, branches, scan =>
    match scan.mode.skip scan.rest with
    | [] => some (branches.total, { scan with rest := [] })
    | character :: rest =>
      match character with
      | ')' => some (branches.total, { scan with rest := ')' :: rest })
      | '|' => readGroup bound branches.split { scan with rest := rest }
      | '{' => none
      | '?' | '*' | '+' => do
        let branches ← branches.repeat?
        readGroup bound branches { scan with rest := skipShortMark rest }
      | '[' => do
        let (depth, rest) ← readClass scan.mode rest
        readGroup bound (branches.add depth) { scan with rest := rest }
      | '(' => do
        match ← scan.readOpening rest with
        | .change changed => readGroup bound branches.addFixed changed
        | .group inner =>
          let (depth, after) ← readGroup bound {} inner
          match after.rest with
          | ')' :: rest =>
            readGroup bound (branches.add (depth + 1))
              { after with rest := rest, mode := scan.mode }
          | _ => none
      | _ => do
        let (element, rest) ← readElement scan.mode (character :: rest)
        if element.isAllowed scan.mode then
          readGroup bound (branches.add 0) { scan with rest := rest }
        else none

def depthLimit : Nat := 250

end Pattern

def isPattern (text : List Char) : Bool :=
  match Pattern.readGroup (text.length + 1) {} { rest := text } with
  | some (depth, scan) => scan.rest.isEmpty && depth ≤ Pattern.depthLimit
  | none => false

end Log

end TypeInference
