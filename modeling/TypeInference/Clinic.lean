import TypeInference.Text.WordCharacter

/-!
# Clinic signatures

A clinic signature is a compact description of the parameters of a builtin
function, such as `type, object, /` or `iterable[, key]`.  It is a sequence of
items.  An item is a word with stars in front of it, or a slash; an opening
bracket in front of a word makes it and all later words optional, and closing
brackets may follow any item.
-/

namespace TypeInference

namespace Clinic

/-- A parameter of a clinic signature. -/
structure Parameter where
  name : String
  optional : Bool
  allowsKeyword : Bool
  stars : Nat
deriving DecidableEq

/-- Why a signature or a call cannot be used. -/
inductive Issue where
  | keywordArgument (name : String)
  | missingArgument (name : String) (expected given : Nat)
  | unresolvable (name : String)
  | unsupported (rest : String)
deriving DecidableEq

def Issue.message : Issue → String
  | keywordArgument name =>
    "keyword arguments are not supported for clinic parameter '" ++ name ++ "'"
  | missingArgument name expected given =>
    name ++ " expected at least " ++ toString expected ++ " arguments, got " ++ toString given
  | unresolvable name => "argument clinic parameter '" ++ name ++ "' is not resolvable"
  | unsupported rest => "unsupported argument clinic signature: " ++ rest

/-! ## Items -/

inductive Item where
  /-- A word, whether a bracket opens in front of it, and its stars. -/
  | word (opens : Bool) (stars : Nat) (name : List Char)
  | slash
deriving DecidableEq

def skipBlank : List Char → List Char
  | ' ' :: rest => rest
  | rest => rest

/-- Skip what may follow an opening bracket: a comma, then a blank. -/
def skipSeparator : List Char → List Char
  | ',' :: rest => skipBlank rest
  | rest => skipBlank rest

def skipClosing (text : List Char) : List Char :=
  text.dropWhile (fun character => character == ']')

/-- Read stars and a word, as long as possible. -/
def readWord? (opens : Bool) (text : List Char) : Option (Item × List Char) :=
  let stars := text.takeWhile (fun character => character == '*')
  let afterStars := text.dropWhile (fun character => character == '*')
  match afterStars.takeWhile Text.isWordCharacter with
  | [] => none
  | name => some (.word opens stars.length name, afterStars.dropWhile Text.isWordCharacter)

def readSlash? : List Char → Option (Item × List Char)
  | '/' :: rest => some (.slash, rest)
  | _ => none

/-- Read one item without the brackets that close behind it. -/
def readOpenItem? (text : List Char) : Option (Item × List Char) :=
  match text with
  | '[' :: rest => readWord? true (skipSeparator rest)
  | ',' :: rest => (readWord? false (skipBlank rest)).or (readSlash? (skipBlank rest))
  | _ => readWord? false text

/-- Read one item and the brackets that close behind it. -/
def readItem? (text : List Char) : Option (Item × List Char) :=
  (readOpenItem? text).map fun (item, rest) => (item, skipClosing rest)

/-- Read the items of a text with at most a given number of characters. -/
def readItems : Nat → List Char → Except Issue (List Item)
  | _, [] => .ok []
  | 0, rest => .error (.unsupported (String.ofList rest))
  | bound + 1, text =>
    match readItem? text with
    | none => .error (.unsupported (String.ofList text))
    | some (item, rest) => (readItems bound rest).map (item :: ·)

/-! ## Parameters -/

/--
The parameters of a sequence of items.  Once a bracket has opened, words are
optional; once a slash or a starred word has passed, they may be given by keyword.
-/
def parametersFrom (optional allowsKeyword : Bool) : List Item → List Parameter
  | [] => []
  | .slash :: rest => parametersFrom optional true rest
  | .word opens stars name :: rest =>
    let optionalHere := optional || opens
    ⟨String.ofList name, optionalHere, allowsKeyword, stars⟩ ::
      parametersFrom optionalHere (allowsKeyword || stars != 0) rest

def parse (signature : String) : Except Issue (List Parameter) :=
  let text := signature.toList
  (readItems text.length text).map (parametersFrom false false)

end Clinic

end TypeInference
