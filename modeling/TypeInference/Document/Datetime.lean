/-!
# Dates and times in documents

A date, a time, or a date followed by a time, in which case an offset may follow.
Dates have to exist, and a minute may have sixty-one seconds.  In a timestamp a blank
may stand between the date and the time.
-/

namespace TypeInference

namespace Document

def readTwoDigits? : List Char → Option (Nat × List Char)
  | tens :: units :: rest =>
    if tens.isDigit && units.isDigit then
      some ((tens.toNat - '0'.toNat) * 10 + (units.toNat - '0'.toNat), rest)
    else none
  | _ => none

def readWithin? (least most : Nat) (text : List Char) : Option (Nat × List Char) := do
  let (number, rest) ← readTwoDigits? text
  if least ≤ number && number ≤ most then some (number, rest) else none

def readMark? (mark : Char) : List Char → Option (List Char)
  | character :: rest => if character == mark then some rest else none
  | [] => none

def isLeapYear (year : Nat) : Bool :=
  year % 4 == 0 && (year % 100 != 0 || year % 400 == 0)

def daysInMonth (year month : Nat) : Nat :=
  if month == 2 then if isLeapYear year then 29 else 28
  else if month == 4 || month == 6 || month == 9 || month == 11 then 30
  else 31

def readDate? (text : List Char) : Option (List Char) := do
  let (century, rest) ← readTwoDigits? text
  let (yearOfCentury, rest) ← readTwoDigits? rest
  let year := century * 100 + yearOfCentury
  let rest ← readMark? '-' rest
  let (month, rest) ← readWithin? 1 12 rest
  let rest ← readMark? '-' rest
  let (_, rest) ← readWithin? 1 (daysInMonth year month) rest
  return rest

def skipFraction? : List Char → Option (List Char)
  | '.' :: rest =>
    if (rest.takeWhile Char.isDigit).isEmpty then none else some (rest.dropWhile Char.isDigit)
  | rest => some rest

def readTime? (text : List Char) : Option (List Char) := do
  let (_, rest) ← readWithin? 0 23 text
  let rest ← readMark? ':' rest
  let (_, rest) ← readWithin? 0 59 rest
  let rest ← readMark? ':' rest
  let (_, rest) ← readWithin? 0 60 rest
  skipFraction? rest

/-! ## Dates and times as values -/

/-- Whether a text is an offset behind its sign. -/
def isShift (text : List Char) : Bool :=
  let read := do
    let (_, rest) ← readWithin? 0 23 text
    let rest ← readMark? ':' rest
    let (_, rest) ← readWithin? 0 59 rest
    return rest
  read == some []

/-- Whether a text is an offset, or nothing. -/
def isOffset : List Char → Bool
  | [] => true
  | ['Z'] | ['z'] => true
  | '+' :: rest | '-' :: rest => isShift rest
  | _ => false

def isDate (text : List Char) : Bool :=
  readDate? text == some []

def isTimeOfDate (text : List Char) : Bool :=
  match readTime? text with
  | some rest => isOffset rest
  | none => false

/-- Whether a text without blanks is a date, a time or both. -/
def isDatetime (text : List Char) : Bool :=
  match readDate? text with
  | some [] => true
  | some ('T' :: time) | some ('t' :: time) => isTimeOfDate time
  | some _ => false
  | none => readTime? text == some []

/-! ## Timestamps -/

def isTimestamp (text : List Char) : Bool :=
  match readDate? text with
  | some (' ' :: time) => isTimeOfDate time
  | _ => isDatetime text

end Document

end TypeInference
