/-!
# Values of settings documents

Settings are kept in TOML documents.  A document is a table of values; numbers with
a fraction and dates are kept as they are written, since no setting uses them.
-/

namespace TypeInference

namespace Document

inductive Value where
  | string (text : String)
  | integer (value : Int)
  | float (text : String)
  | boolean (value : Bool)
  | datetime (text : String)
  | array (items : List Value)
  | table (entries : List (String × Value))
deriving Inhabited

namespace Value

def natural? : Value → Option Nat
  | integer value => value.toNat?
  | _ => none

def boolean? : Value → Option Bool
  | boolean value => some value
  | _ => none

def get? (key : String) : Value → Option Value
  | table entries => entries.lookup key
  | _ => none

end Value

end Document

end TypeInference
