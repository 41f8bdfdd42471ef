import TypeInference.Document.Quoted

/-!
# Numbers in documents

Integers are decimal, or hexadecimal, octal or binary behind `0x`, `0o` or `0b`, and
have to fit into 64 bits.  Floats have a fraction, an exponent or both.  An
underscore may stand between two digits.
-/

namespace TypeInference

namespace Document

/-- Whether a text is digits, with at most one underscore between two of them. -/
def isDigitRun (isDigit : Char → Bool) : List Char → Bool
  | [] => false
  | [digit] => isDigit digit
  | digit :: '_' :: rest => isDigit digit && isDigitRun isDigit rest
  | digit :: rest => isDigit digit && isDigitRun isDigit rest

/-- Whether a text is a decimal number, which starts with a zero only if it is zero. -/
def isDecimal : List Char → Bool
  | '0' :: rest => rest.isEmpty
  | digits => isDigitRun Char.isDigit digits

def digitsValue (base : Nat) (digits : List Char) : Nat :=
  digits.foldl
    (fun value digit =>
      match digitValue? digit with
      | some amount => value * base + amount
      | none => value)
    0

/-! ## Integers -/

/-- A number of 64 bits. -/
def fit? (value : Int) : Option Int :=
  if -9223372036854775808 ≤ value && value ≤ 9223372036854775807 then some value else none

def based? (base : Nat) (digits : List Char) : Option Int :=
  let isDigit (character : Char) : Bool :=
    match digitValue? character with
    | some amount => amount < base
    | none => false
  if isDigitRun isDigit digits then fit? (digitsValue base digits) else none

def integer? : List Char → Option Int
  | '0' :: 'x' :: digits => based? 16 digits
  | '0' :: 'o' :: digits => based? 8 digits
  | '0' :: 'b' :: digits => based? 2 digits
  | '+' :: digits => if isDecimal digits then fit? (digitsValue 10 digits) else none
  | '-' :: digits => if isDecimal digits then fit? (-(digitsValue 10 digits : Int)) else none
  | digits => if isDecimal digits then fit? (digitsValue 10 digits) else none

/-! ## Floats -/

/-- The parts of a number that is written without its sign. -/
structure Decimal where
  whole : List Char
  fraction : List Char := []
  /-- The power of ten to multiply with. -/
  exponent : Int := 0

def isRunCharacter (character : Char) : Bool :=
  character.isDigit || character == '_'

def exponent? : List Char → Option Int
  | '+' :: digits => if isDigitRun Char.isDigit digits then some (digitsValue 10 digits) else none
  | '-' :: digits =>
    if isDigitRun Char.isDigit digits then some (-(digitsValue 10 digits : Int)) else none
  | digits => if isDigitRun Char.isDigit digits then some (digitsValue 10 digits) else none

/-- Read what stands behind the digits of a number: nothing, or an exponent. -/
def withExponent? (decimal : Decimal) : List Char → Option Decimal
  | [] => some decimal
  | mark :: rest =>
    if mark == 'e' || mark == 'E' then
      (exponent? rest).map fun exponent => { decimal with exponent := exponent }
    else none

def decimal? (text : List Char) : Option Decimal :=
  let whole := text.takeWhile isRunCharacter
  if isDecimal whole then
    match text.dropWhile isRunCharacter with
    | [] => none
    | '.' :: rest =>
      let fraction := rest.takeWhile isRunCharacter
      if isDigitRun Char.isDigit fraction then
        withExponent? ⟨whole, fraction, 0⟩ (rest.dropWhile isRunCharacter)
      else none
    | rest => withExponent? ⟨whole, [], 0⟩ rest
  else none

namespace Decimal

def digits (decimal : Decimal) : List Char :=
  (decimal.whole ++ decimal.fraction).filter Char.isDigit

/-- The power of ten that the last digit stands for. -/
def scale (decimal : Decimal) : Int :=
  decimal.exponent - (decimal.fraction.filter Char.isDigit).length

/-- The least number that is rounded to infinity in 64 bits. -/
def overflowBound : Nat :=
  Nat.pow 2 1024 - Nat.pow 2 970

/--
Whether a number is too large for 64 bits.  The power of ten is computed only for
numbers of few places; all others are clear from the number of their places.
-/
def overflows (decimal : Decimal) : Bool :=
  let mantissa := digitsValue 10 decimal.digits
  let places := decimal.digits.length + decimal.scale
  if mantissa == 0 || places < 0 then false
  else
    let significant := (decimal.digits.dropWhile (fun digit => digit == '0')).length
    if 400 < significant + decimal.scale then true
    else if 0 ≤ decimal.scale then overflowBound ≤ mantissa * Nat.pow 10 decimal.scale.toNat
    else overflowBound * Nat.pow 10 (-decimal.scale).toNat ≤ mantissa

end Decimal

/-- Whether a text without a sign is a float; the flag says whether it may overflow. -/
def isMagnitude (mayOverflow : Bool) (text : List Char) : Bool :=
  text == ['i', 'n', 'f'] || text == ['n', 'a', 'n'] ||
    match decimal? text with
    | some decimal => mayOverflow || !decimal.overflows
    | none => false

/-- Whether a text is a float.  A positive number must not be too large. -/
def isFloat : List Char → Bool
  | '+' :: text => isMagnitude false text
  | '-' :: text => isMagnitude true text
  | text => isMagnitude false text

end Document

end TypeInference
