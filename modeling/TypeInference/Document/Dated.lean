import TypeInference.Document.Datetime
import TypeInference.Document.Value

/-!
# Dates in the form of tables

One key is reserved for dates.  A table in which it comes first stands for the date
that is written behind it, and is malformed if there is none.
-/

namespace TypeInference

namespace Document

/-- The key that is reserved for dates. -/
def dateKey : String := "$__toml_private_datetime"

/-- Whether a table with these entries stands for a date. -/
def isDated : List (String × Value) → Bool
  | (key, _) :: _ => key == dateKey
  | [] => false

/-- The date that a table stands for; the flag says whether it may hold nothing else. -/
def date? (alone : Bool) : List (String × Value) → Option Value
  | (_, .string text) :: rest =>
    if isTimestamp text.toList && (rest.isEmpty || !alone) then some (.datetime text) else none
  | _ => none

mutual

/-- A value with dates in place of the tables that stand for them. -/
def Value.settle? (alone : Bool) : Value → Option Value
  | .array items => (settleItems? alone items).map .array
  | .table entries =>
    if isDated entries then date? alone entries else (settleEntries? alone entries).map .table
  | value => some value

def settleItems? (alone : Bool) : List Value → Option (List Value)
  | [] => some []
  | item :: rest => do
    let item ← item.settle? alone
    let rest ← settleItems? alone rest
    return item :: rest

def settleEntries? (alone : Bool) : List (String × Value) → Option (List (String × Value))
  | [] => some []
  | (key, value) :: rest => do
    let value ← value.settle? alone
    let rest ← settleEntries? alone rest
    return (key, value) :: rest

end

end Document

end TypeInference
