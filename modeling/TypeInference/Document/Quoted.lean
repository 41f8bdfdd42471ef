/-!
# Quoted text in documents

Basic strings stand between double quotes and know escapes; literal strings stand
between single quotes and know none.  Long strings of both kinds stand between
three quotes and may hold line breaks, and one or two quotes in a row.

Every reader takes the text behind the opening quotes, and gives the characters of
the string and the text behind the closing quotes.
-/

namespace TypeInference

namespace Document

/-- Whether a character may stand in a comment or a string: all but controls, save the tab. -/
def isPlain (character : Char) : Bool :=
  character == '\t' || (0x20 ≤ character.toNat && character.toNat != 0x7F)

/-! ## Escapes -/

def escaped? : Char → Option Char
  | 'b' => some '\x08'
  | 't' => some '\t'
  | 'n' => some '\n'
  | 'f' => some '\x0c'
  | 'r' => some '\r'
  | '"' => some '"'
  | '\\' => some '\\'
  | _ => none

def digitValue? (character : Char) : Option Nat :=
  if '0' ≤ character && character ≤ '9' then some (character.toNat - '0'.toNat)
  else if 'a' ≤ character && character ≤ 'f' then some (character.toNat - 'a'.toNat + 10)
  else if 'A' ≤ character && character ≤ 'F' then some (character.toNat - 'A'.toNat + 10)
  else none

def codePoint? (digits : List Char) : Option Char := do
  let values ← digits.mapM digitValue?
  let code := values.foldl (fun code digit => code * 16 + digit) 0
  if code < 0xD800 || (0xE000 ≤ code && code < 0x110000) then some (Char.ofNat code) else none

def prepend (character : Char) (read : Option (List Char × List Char)) :
    Option (List Char × List Char) :=
  read.map fun (text, rest) => (character :: text, rest)

/-! ## Strings on one line -/

def readBasic : List Char → Option (List Char × List Char)
  | [] => none
  | '"' :: rest => some ([], rest)
  | '\\' :: 'u' :: a :: b :: c :: d :: rest => do
    prepend (← codePoint? [a, b, c, d]) (readBasic rest)
  | '\\' :: 'U' :: a :: b :: c :: d :: e :: f :: g :: h :: rest => do
    prepend (← codePoint? [a, b, c, d, e, f, g, h]) (readBasic rest)
  | '\\' :: letter :: rest => do prepend (← escaped? letter) (readBasic rest)
  | character :: rest =>
    if isPlain character && character != '\\' then prepend character (readBasic rest) else none

def readLiteral : List Char → Option (List Char × List Char)
  | [] => none
  | '\'' :: rest => some ([], rest)
  | character :: rest =>
    if isPlain character then prepend character (readLiteral rest) else none

/-! ## Long strings -/

def skipBreak : List Char → List Char
  | '\n' :: rest => rest
  | '\r' :: '\n' :: rest => rest
  | rest => rest

def readLongLiteral : List Char → Option (List Char × List Char)
  | [] => none
  | '\'' :: '\'' :: '\'' :: '\'' :: '\'' :: rest => some (['\'', '\''], rest)
  | '\'' :: '\'' :: '\'' :: '\'' :: rest => some (['\''], rest)
  | '\'' :: '\'' :: '\'' :: rest => some ([], rest)
  | '\r' :: '\n' :: rest => prepend '\n' (readLongLiteral rest)
  | character :: rest =>
    if isPlain character || character == '\n' then prepend character (readLongLiteral rest)
    else none

/-- Which blanks a backslash at the end of a line removes. -/
inductive Trim where
  /-- None: there is no such backslash. -/
  | off
  /-- Those between the backslash and the line break, which is still to come. -/
  | before
  /-- Those behind the line break. -/
  | after
deriving DecidableEq

def readLongBasic : Trim → List Char → Option (List Char × List Char)
  | _, [] => none
  | .before, ' ' :: rest => readLongBasic .before rest
  | .before, '\t' :: rest => readLongBasic .before rest
  | .before, '\n' :: rest => readLongBasic .after rest
  | .before, '\r' :: '\n' :: rest => readLongBasic .after rest
  | .before, _ :: _ => none
  | .after, ' ' :: rest => readLongBasic .after rest
  | .after, '\t' :: rest => readLongBasic .after rest
  | .after, '\n' :: rest => readLongBasic .after rest
  | .after, '\r' :: '\n' :: rest => readLongBasic .after rest
  | _, '"' :: '"' :: '"' :: '"' :: '"' :: rest => some (['"', '"'], rest)
  | _, '"' :: '"' :: '"' :: '"' :: rest => some (['"'], rest)
  | _, '"' :: '"' :: '"' :: rest => some ([], rest)
  | _, '\\' :: ' ' :: rest => readLongBasic .before rest
  | _, '\\' :: '\t' :: rest => readLongBasic .before rest
  | _, '\\' :: '\n' :: rest => readLongBasic .after rest
  | _, '\\' :: '\r' :: '\n' :: rest => readLongBasic .after rest
  | _, '\\' :: 'u' :: a :: b :: c :: d :: rest => do
    prepend (← codePoint? [a, b, c, d]) (readLongBasic .off rest)
  | _, '\\' :: 'U' :: a :: b :: c :: d :: e :: f :: g :: h :: rest => do
    prepend (← codePoint? [a, b, c, d, e, f, g, h]) (readLongBasic .off rest)
  | _, '\\' :: letter :: rest => do prepend (← escaped? letter) (readLongBasic .off rest)
  | _, '\r' :: '\n' :: rest => prepend '\n' (readLongBasic .off rest)
  | _, character :: rest =>
    if (isPlain character && character != '\\') || character == '\n' then
      prepend character (readLongBasic .off rest)
    else none

def readString : List Char → Option (List Char × List Char)
  | '"' :: '"' :: '"' :: rest => readLongBasic .off (skipBreak rest)
  | '\'' :: '\'' :: '\'' :: rest => readLongLiteral (skipBreak rest)
  | '"' :: rest => readBasic rest
  | '\'' :: rest => readLiteral rest
  | _ => none

end Document

end TypeInference
