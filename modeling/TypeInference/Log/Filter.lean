import TypeInference.Log.Pattern

/-!
# Log filters

A filter is a list of directives between commas.  A directive is a level or a
target, or a target and a span in brackets, each of which may be missing, behind
which a level may stand.  A span can have fields in braces, and a field a value,
which is a number or a pattern.

Blanks around a directive are skipped, but its parts are cut at the places that
they have without these blanks.
-/

namespace TypeInference

namespace Log

/-! ## Levels -/

/-- Whether a text is the number of a level, which may have a sign and leading zeros. -/
def isLevelNumber (text : List Char) : Bool :=
  let digits :=
    match text with
    | '+' :: digits => digits
    | digits => digits
  !digits.isEmpty && digits.all Char.isDigit &&
    match digits.dropWhile (fun digit => digit == '0') with
    | [] => true
    | [digit] => digit ≤ '5'
    | _ => false

/-- Whether a text is a level, whatever the case of its letters. -/
def isLevel (text : List Char) : Bool :=
  let name := String.ofList (text.map Char.toLower)
  name ∈ ["trace", "debug", "info", "warn", "error", "off"] || isLevelNumber text

/-! ## Fields -/

def isDecimalNumber (text : List Char) : Bool :=
  let whole := text.takeWhile Char.isDigit
  let behindWhole := text.dropWhile Char.isDigit
  let (fraction, behindFraction) :=
    match behindWhole with
    | '.' :: rest => (rest.takeWhile Char.isDigit, rest.dropWhile Char.isDigit)
    | rest => ([], rest)
  let isExponent (digits : List Char) : Bool := !digits.isEmpty && digits.all Char.isDigit
  (!whole.isEmpty || !fraction.isEmpty) &&
    match behindFraction with
    | [] => true
    | mark :: rest =>
      (mark == 'e' || mark == 'E') &&
        match rest with
        | '+' :: digits | '-' :: digits => isExponent digits
        | digits => isExponent digits

def isNumber (text : List Char) : Bool :=
  let name := String.ofList (text.map Char.toLower)
  name ∈ ["inf", "infinity", "nan"] || isDecimalNumber text

/-- Whether a text is the value of a field.  Of the numbers only those with a plus are no patterns. -/
def isFieldValue (text : List Char) : Bool :=
  isPattern text ||
    match text with
    | '+' :: number => isNumber number
    | _ => false

/-- Whether a text is a field: a name, behind which a value may stand. -/
def isField (text : List Char) : Bool :=
  !text.isEmpty &&
    match text.dropWhile (fun character => character != '=') with
    | [] => true
    | _ :: rest => isFieldValue (rest.takeWhile (fun character => character != '='))

/-! ## Directives -/

/-- The text behind a number of bytes, if these are whole characters. -/
def dropBytes? : Nat → List Char → Option (List Char)
  | 0, text => some text
  | _ + 1, [] => none
  | count + 1, character :: rest =>
    if character.utf8Size ≤ count + 1 then dropBytes? (count + 1 - character.utf8Size) rest
    else none

/-- The first bytes of a text, if these are whole characters. -/
def takeBytes? : Nat → List Char → Option (List Char)
  | 0, _ => some []
  | _ + 1, [] => none
  | count + 1, character :: rest =>
    if character.utf8Size ≤ count + 1 then
      (takeBytes? (count + 1 - character.utf8Size) rest).map (character :: ·)
    else none

/-- What is being read of a directive, and where it began. -/
inductive Place where
  | start
  | target
  | span
  | field (origin : Nat)
  | fields
  | scope
  | level (origin : Nat)
deriving DecidableEq

def isFirstOfTarget (character : Char) : Bool :=
  character ∈ ['-', ':', '_'] || Text.isLetterOrNumber character

/-- Where a character of a directive leads, given its offset. -/
def Place.next? (directive : List Char) (offset : Nat) (character : Char) : Place → Option Place
  | start =>
    if character == '[' then some span
    else if isFirstOfTarget character then some target
    else none
  | target =>
    if character == '=' then some (level (offset + 1))
    else if character == '[' then some span
    else some target
  | span =>
    if character == ']' then some scope
    else if character == '\x7b' then some (field (offset + 1))
    else some span
  | field origin =>
    if character == '\x7d' then do
      let text ← takeBytes? (offset - origin) (← dropBytes? origin directive)
      if isField text then some fields else none
    else some (field origin)
  | fields => if character == ']' then some scope else none
  | scope => if character == '=' then some (level (offset + 1)) else none
  | level origin => some (level origin)

def Place.isEnd (directive : List Char) : Place → Bool
  | target | scope => true
  | level origin =>
    match dropBytes? origin directive with
    | some text => text.isEmpty || isLevel text
    | none => false
  | start | span | field _ | fields => false

def Place.run? (directive : List Char) : Nat → List Char → Place → Option Place
  | _, [], place => some place
  | offset, character :: rest, place => do
    let place ← place.next? directive offset character
    place.run? directive (offset + character.utf8Size) rest

def isDirective (directive : List Char) : Bool :=
  match Place.start.run? directive 0 (Text.trim (String.ofList directive)).toList with
  | some place => place.isEnd directive
  | none => false

def isFilter (filter : String) : Bool :=
  (filter.toList.splitOn ',').all fun directive => directive.isEmpty || isDirective directive

end Log

end TypeInference
