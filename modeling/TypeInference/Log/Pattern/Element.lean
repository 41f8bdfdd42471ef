import TypeInference.Text.Blank

/-!
# Elements of patterns

A pattern is a regular expression that has to match a text with one pass over its
bytes.  Its elements are single characters, classes of characters and edges.  In
the mode for Unicode an element stands for whole characters; in the mode for bytes
it must not stand for bytes beyond ASCII, since these are no characters.
-/

namespace TypeInference

namespace Log

namespace Pattern

/-- How a pattern is read. -/
structure Mode where
  /-- Whether elements stand for characters of Unicode. -/
  unicode : Bool := true
  /-- Whether blanks and comments are skipped. -/
  spaced : Bool := false
deriving DecidableEq

/-! ## Blanks and comments -/

/-- Skip blanks and comments; the flag says whether a comment goes on. -/
def skipSpaces : Bool → List Char → List Char
  | _, [] => []
  | true, character :: rest => skipSpaces (character != '\n') rest
  | false, character :: rest =>
    if Text.isBlank character then skipSpaces false rest
    else if character == '#' then skipSpaces true rest
    else character :: rest

/-- Skip what the mode says has no meaning. -/
def Mode.skip (mode : Mode) (text : List Char) : List Char :=
  if mode.spaced then skipSpaces false text else text

/-! ## Elements -/

inductive Element where
  /-- A character; the flag says whether two hexadecimal digits give it. -/
  | character (given : Char) (isByte : Bool)
  | any
  /-- Digits, blanks or word characters, or all others. -/
  | category (complement : Bool)
  | property
  | edge
  | wordEdge
deriving DecidableEq

/--
Whether an element may stand in a pattern.  The edges of words of Unicode do not
show in single bytes.
-/
def Element.isAllowed (mode : Mode) : Element → Bool
  | character given isByte => mode.unicode || !isByte || given.toNat < 0x80
  | any => mode.unicode
  | category complement => mode.unicode || !complement
  | property => mode.unicode
  | edge => true
  | wordEdge => !mode.unicode

def Element.isMember (mode : Mode) : Element → Bool
  | character given _ => mode.unicode || given.toNat < 0x80
  | category complement => mode.unicode || !complement
  | property => mode.unicode
  | any | edge | wordEdge => false

/-! ## Escapes -/

def hexadecimal? (digit : Char) : Option Nat :=
  if digit.isDigit then some (digit.toNat - '0'.toNat)
  else if 'a' ≤ digit && digit ≤ 'f' then some (digit.toNat - 'a'.toNat + 10)
  else if 'A' ≤ digit && digit ≤ 'F' then some (digit.toNat - 'A'.toNat + 10)
  else none

/-- Read some hexadecimal digits behind a value. -/
def readHexadecimal (mode : Mode) : Nat → Nat → List Char → Option (Nat × List Char)
  | 0, value, text => some (value, text)
  | count + 1, value, text =>
    match mode.skip text with
    | [] => none
    | digit :: rest => do
      let amount ← hexadecimal? digit
      readHexadecimal mode count (value * 16 + amount) rest

def readCode (mode : Mode) (count : Nat) (text : List Char) : Option (Element × List Char) := do
  let (value, rest) ← readHexadecimal mode count 0 text
  if value.isValidChar then some (.character (Char.ofNat value) (count == 2), rest) else none

/-- The properties of Unicode that one letter names. -/
def propertyLetters : List Char := ['c', 'l', 'm', 'n', 'p', 's', 'z']

def readProperty (mode : Mode) (text : List Char) : Option (Element × List Char) :=
  match mode.skip text with
  | [] => none
  | letter :: rest => if letter.toLower ∈ propertyLetters then some (.property, rest) else none

/-- The element that a backslash makes of a character that is no digit. -/
def escaped? (character : Char) : Option Element :=
  match character with
  | 'd' | 's' | 'w' => some (.category false)
  | 'D' | 'S' | 'W' => some (.category true)
  | 'A' | 'z' => some .edge
  | 'b' | 'B' | '<' | '>' => some .wordEdge
  | 'a' => some (.character '\x07' false)
  | 'f' => some (.character '\x0c' false)
  | 'n' => some (.character '\n' false)
  | 'r' => some (.character '\r' false)
  | 't' => some (.character '\t' false)
  | 'v' => some (.character '\x0b' false)
  | other =>
    if other.toNat < 0x80 && !other.isAlphanum then some (.character other false) else none

def readEscape (mode : Mode) : List Char → Option (Element × List Char)
  | [] => none
  | character :: rest =>
    match character with
    | 'x' => readCode mode 2 rest
    | 'u' => readCode mode 4 rest
    | 'U' => readCode mode 8 rest
    | 'p' | 'P' => readProperty mode rest
    | _ => (escaped? character).map fun element => (element, rest)

end Pattern

end Log

end TypeInference
