import TypeInference.Log.Pattern.Element

/-!
# Classes between brackets

A class between brackets holds elements, ranges, named classes and further classes,
and may be put together from classes by operators.  Classes nest, and the depth of
their nesting is counted: brackets, an operator and a union of several members each
add one level.
-/

namespace TypeInference

namespace Log

namespace Pattern

/-! ## Counting levels -/

/-- What has been read of a class. -/
structure Tally where
  /-- The number of members since the last operator. -/
  members : Nat := 0
  depth : Nat := 0
  /-- The depth of what stands before the last operator. -/
  operand : Option Nat := none

namespace Tally

def add (tally : Tally) (depth : Nat) : Tally :=
  { tally with members := tally.members + 1, depth := max tally.depth depth }

def total (tally : Tally) : Nat :=
  let union := if tally.members ≤ 1 then tally.depth else tally.depth + 1
  match tally.operand with
  | none => union
  | some operand => max operand union + 1

/-- Go on behind an operator. -/
def operate (tally : Tally) : Tally :=
  { operand := some tally.total }

end Tally

/-! ## Members -/

def classNames : List String :=
  ["alnum", "alpha", "ascii", "blank", "cntrl", "digit", "graph", "lower", "print", "punct",
    "space", "upper", "word", "xdigit"]

/-- Read the name of a class and its closing marks; the flag tells of a complement. -/
def readClassName (complement : Bool) (text : List Char) : Option (Bool × List Char) :=
  let name := text.takeWhile (fun character => character != ':')
  match text.dropWhile (fun character => character != ':') with
  | ':' :: ']' :: rest =>
    if String.ofList name ∈ classNames then some (complement, rest) else none
  | _ => none

def readNamedClass : List Char → Option (Bool × List Char)
  | ':' :: '^' :: rest => readClassName true rest
  | ':' :: rest => readClassName false rest
  | _ => none

def readMember (mode : Mode) : List Char → Option (Element × List Char)
  | [] => none
  | '\\' :: rest => readEscape mode rest
  | character :: rest => some (.character character false, rest)

/-- The character that decides whether a hyphen stands for a range. -/
def decisive? (mode : Mode) (behindHyphen : List Char) : Option Char :=
  if mode.spaced then
    match behindHyphen.dropWhile Text.isBlank with
    | '#' :: rest => ((rest.dropWhile Text.isBlank).head?).or behindHyphen.head?
    | character :: _ => some character
    | [] => behindHyphen.head?
  else behindHyphen.head?

def isRange (mode : Mode) : Element → Element → Bool
  | .character first isByte, .character last isByte' =>
    first ≤ last && (Element.character first isByte).isMember mode &&
      (Element.character last isByte').isMember mode
  | _, _ => false

def skipRange (mode : Mode) (text : List Char) : Option (List Char) := do
  let (first, rest) ← readMember mode text
  match mode.skip rest with
  | [] => none
  | '-' :: behind =>
    if decisive? mode behind == some ']' || decisive? mode behind == some '-' then
      if first.isMember mode then some ('-' :: behind) else none
    else
      let (last, rest) ← readMember mode (mode.skip behind)
      if isRange mode first last then some rest else none
  | rest => if first.isMember mode then some rest else none

/-! ## Classes -/

def skipHyphens (mode : Mode) : Nat → List Char → Nat × List Char
  | 0, text => (0, text)
  | bound + 1, text =>
    match mode.skip text with
    | '-' :: rest =>
      let (count, rest) := skipHyphens mode bound rest
      (count + 1, rest)
    | rest => (0, rest)

/--
Skip what has a meaning of its own at the start of a class.  A complement holds bytes
beyond ASCII, so it is for Unicode only; hyphens and a closing bracket are members here.
-/
def openClass (mode : Mode) (text : List Char) : Option (Tally × List Char) :=
  let start (text : List Char) : Tally × List Char :=
    match skipHyphens mode text.length text with
    | (0, ']' :: rest) => (({} : Tally).add 0, rest)
    | (count, rest) => ({ members := count }, rest)
  match mode.skip text with
  | '^' :: rest => if mode.unicode then some (start (mode.skip rest)) else none
  | rest => some (start rest)

/-- Read the rest of a class, whose nesting is bounded, and give its depth. -/
def readMembers (mode : Mode) : Nat → Tally → List Char → Option (Nat × List Char)
  | 0, _, _ => none
  | bound + 1, tally, text =>
    match mode.skip text with
    | [] => none
    | ']' :: rest => some (tally.total + 1, rest)
    | '&' :: '&' :: rest | '-' :: '-' :: rest | '~' :: '~' :: rest =>
      readMembers mode bound tally.operate rest
    | '[' :: rest =>
      match readNamedClass rest with
      | some (complement, rest) =>
        if mode.unicode || !complement then readMembers mode bound (tally.add 0) rest else none
      | none => do
        let (inner, rest) ← openClass mode rest
        let (depth, rest) ← readMembers mode bound inner rest
        readMembers mode bound (tally.add depth) rest
    | text => do
      let rest ← skipRange mode text
      readMembers mode bound (tally.add 0) rest

def readClass (mode : Mode) (text : List Char) : Option (Nat × List Char) := do
  let (tally, rest) ← openClass mode text
  readMembers mode (rest.length + 1) tally rest

end Pattern

end Log

end TypeInference
