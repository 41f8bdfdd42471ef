import TypeInference.Document.Datetime
import TypeInference.Document.Number
import TypeInference.Document.Table

/-!
# Reading documents

A document is a sequence of lines: keys with their values, headers of tables, and
lines with nothing but a comment.  Values nest in arrays and inline tables up to a
limit.
-/

namespace TypeInference

namespace Document

/-! ## Blanks and comments -/

def skipBlanks (text : List Char) : List Char :=
  text.dropWhile (fun character => character == ' ' || character == '\t')

def skipComment : List Char → List Char
  | '#' :: rest => rest.dropWhile isPlain
  | rest => rest

/-- What stands behind a line break, or nothing at the end of the text. -/
def nextLine? : List Char → Option (List Char)
  | [] => some []
  | '\n' :: rest => some rest
  | '\r' :: '\n' :: rest => some rest
  | _ => none

/-- What stands behind a line of which only blanks and a comment are left. -/
def endLine? (text : List Char) : Option (List Char) :=
  nextLine? (skipComment (skipBlanks text))

/-- Skip blanks, line breaks and comments; the flag says whether a comment goes on. -/
def skipTrivia : Bool → List Char → Option (List Char)
  | _, [] => some []
  | _, '\n' :: rest => skipTrivia false rest
  | _, '\r' :: '\n' :: rest => skipTrivia false rest
  | true, character :: rest => if isPlain character then skipTrivia true rest else none
  | false, '#' :: rest => skipTrivia true rest
  | false, ' ' :: rest => skipTrivia false rest
  | false, '\t' :: rest => skipTrivia false rest
  | false, rest => some rest

/-! ## Keys -/

def isBareCharacter (character : Char) : Bool :=
  character.isAlphanum || character == '_' || character == '-'

def readKeyPart : List Char → Option (String × List Char)
  | '"' :: rest => (readBasic rest).map fun (name, rest) => (String.ofList name, rest)
  | '\'' :: rest => (readLiteral rest).map fun (name, rest) => (String.ofList name, rest)
  | text =>
    match text.takeWhile isBareCharacter with
    | [] => none
    | name => some (String.ofList name, text.dropWhile isBareCharacter)

/-- A key that may be dotted. -/
structure Key where
  path : List String
  name : String

def readKey : Nat → List Char → Option (Key × List Char)
  | 0, _ => none
  | bound + 1, text => do
    let (part, rest) ← readKeyPart (skipBlanks text)
    match skipBlanks rest with
    | '.' :: rest =>
      let (key, rest) ← readKey bound rest
      return (⟨part :: key.path, key.name⟩, rest)
    | rest => return (⟨[], part⟩, rest)

/-- How many parts a key may have, and how deeply values may nest. -/
def nestingLimit : Nat := 79

/-! ## Values -/

def isScalarCharacter (character : Char) : Bool :=
  character.isAlphanum || character == '+' || character == '-' || character == '_' ||
    character == '.' || character == ':'

/-- The value of a text without quotes and blanks. -/
def scalar? (text : List Char) : Option Value :=
  if text == "true".toList then some (.boolean true)
  else if text == "false".toList then some (.boolean false)
  else if isDatetime text then some (.datetime (String.ofList text))
  else if isFloat text then some (.float (String.ofList text))
  else (integer? text).map .integer

/-- Read a value that is not quoted; a blank may stand between a date and a time. -/
def readScalar (text : List Char) : Option (Value × List Char) :=
  let word := text.takeWhile isScalarCharacter
  let rest := text.dropWhile isScalarCharacter
  match rest with
  | ' ' :: digit :: _ =>
    if isDate word && digit.isDigit then
      let time := (rest.drop 1).takeWhile isScalarCharacter
      if isTimeOfDate time then
        some (.datetime (String.ofList (word ++ ' ' :: time)),
          (rest.drop 1).dropWhile isScalarCharacter)
      else none
    else (scalar? word).map fun value => (value, rest)
  | _ => (scalar? word).map fun value => (value, rest)

/-- Read a value that nests nothing. -/
def readSimple (text : List Char) : Option (Value × List Char) :=
  match text with
  | '"' :: _ | '\'' :: _ =>
    (readString text).map fun (value, rest) => (.string (String.ofList value), rest)
  | _ => readScalar text

def readItems (readItem : List Char → Option (Value × List Char)) :
    Nat → List Char → Option (List Value × List Char)
  | 0, _ => none
  | bound + 1, text => do
    match ← skipTrivia false text with
    | ']' :: rest => return ([], rest)
    | text =>
      let (item, rest) ← readItem text
      match ← skipTrivia false rest with
      | ',' :: rest =>
        let (items, rest) ← readItems readItem bound rest
        return (item :: items, rest)
      | ']' :: rest => return ([item], rest)
      | _ => none

def readPair (readItem : List Char → Option (Value × List Char)) (text : List Char) :
    Option ((Key × Value) × List Char) := do
  let (key, rest) ← readKey nestingLimit text
  let rest ← readMark? '=' rest
  let (value, rest) ← readItem (skipBlanks rest)
  return ((key, value), rest)

def readPairs (readItem : List Char → Option (Value × List Char)) :
    Nat → List Char → Option (List (Key × Value) × List Char)
  | 0, _ => none
  | bound + 1, text => do
    let (pair, rest) ← readPair readItem text
    match skipBlanks rest with
    | ',' :: rest =>
      let (pairs, rest) ← readPairs readItem bound rest
      return (pair :: pairs, rest)
    | '}' :: rest => return ([pair], rest)
    | _ => none

def tableOf? (pairs : List (Key × Value)) : Option Value := do
  let entries ← pairs.foldlM
    (fun entries pair => definePath pair.1.path pair.1.name pair.2 entries) []
  return .table (finishEntries entries)

def readInlineTable (readItem : List Char → Option (Value × List Char)) (text : List Char) :
    Option (Value × List Char) :=
  match skipBlanks text with
  | '}' :: rest => some (.table [], rest)
  | text => do
    let (pairs, rest) ← readPairs readItem (text.length + 1) text
    return (← tableOf? pairs, rest)

def readValue : Nat → List Char → Option (Value × List Char)
  | 0, text => readSimple text
  | levels + 1, text =>
    match text with
    | '[' :: rest =>
      (readItems (readValue levels) (rest.length + 1) rest).map fun (items, rest) =>
        (.array items, rest)
    | '{' :: rest => readInlineTable (readValue levels) rest
    | _ => readSimple text

/-! ## Lines -/

/-- A line that says something. -/
inductive Line where
  | pair (key : Key) (value : Value)
  | table (key : Key)
  | element (key : Key)

/-- Read a line that says something, up to the blanks behind it. -/
def readLine (text : List Char) : Option (Line × List Char) :=
  match text with
  | '[' :: '[' :: rest => do
    let (key, rest) ← readKey nestingLimit rest
    let rest ← readMark? ']' rest
    let rest ← readMark? ']' rest
    return (.element key, rest)
  | '[' :: rest => do
    let (key, rest) ← readKey nestingLimit rest
    let rest ← readMark? ']' rest
    return (.table key, rest)
  | _ => do
    let ((key, value), rest) ← readPair (readValue nestingLimit) text
    return (.pair key value, rest)

def readLines : Nat → List Char → Option (List Line)
  | 0, text => if text.isEmpty then some [] else none
  | bound + 1, text =>
    match skipBlanks text with
    | [] => some []
    | text =>
      match endLine? text with
      | some rest => readLines bound rest
      | none => do
        let (line, rest) ← readLine text
        let rest ← endLine? rest
        let lines ← readLines bound rest
        return line :: lines

/-! ## Documents -/

/-- A document under construction, and the table that was opened last. -/
structure Draft where
  entries : Entries := []
  place : List String := []

def Draft.add (draft : Draft) : Line → Option Draft
  | .table key => do
    let entries ← openTable key.path key.name draft.entries
    return ⟨entries, key.path ++ [key.name]⟩
  | .element key => do
    let entries ← openElement key.path key.name draft.entries
    return ⟨entries, key.path ++ [key.name]⟩
  | .pair key value => do
    let entries ← alterAt .inside (fun _ => definePath key.path key.name value)
      draft.place .header draft.entries
    return { draft with entries := entries }

def skipOrderMark : List Char → List Char
  | '\ufeff' :: rest => rest
  | rest => rest

def parse? (text : String) : Option (List (String × Value)) := do
  let characters := skipOrderMark text.toList
  let lines ← readLines (characters.length + 1) characters
  let draft ← lines.foldlM Draft.add {}
  return finishEntries draft.entries

end Document

end TypeInference
