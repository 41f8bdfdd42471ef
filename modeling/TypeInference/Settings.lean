/-!
# Settings

Limits of one analysis, and whether problems of calls are reported.
-/

namespace TypeInference

structure Settings where
  recursionLimit : Nat := 15
  totalExecutionLimit : Nat := 200
  functionExecutionLimit : Nat := 6
  functionRecursionLimit : Nat := 2
  unificationDepthLimit : Nat := 32
  reportsDiagnostics : Bool := true
deriving DecidableEq, Inhabited

/-- Why settings cannot be used. -/
inductive SettingsError where
  | unreadable (file : String)
  | malformed
  | invalidValue (field reason : String)
deriving DecidableEq

namespace Settings

/-- The limits with the names of their settings, in declaration order. -/
def limits (settings : Settings) : List (String × Nat) :=
  [("recursion_limit", settings.recursionLimit),
    ("total_function_execution_limit", settings.totalExecutionLimit),
    ("per_function_execution_limit", settings.functionExecutionLimit),
    ("per_function_recursion_limit", settings.functionRecursionLimit),
    ("unification_depth_limit", settings.unificationDepthLimit)]

/-- Settings whose limits all admit something; the first limit that does not is reported. -/
def validate (settings : Settings) : Except SettingsError Settings :=
  match settings.limits.find? (fun limit => limit.2 == 0) with
  | some (field, _) => .error (.invalidValue field "limit must be at least 1")
  | none => .ok settings

def render (settings : Settings) : String :=
  let limitLines := settings.limits.map fun limit => limit.1 ++ " = " ++ toString limit.2 ++ "\n"
  let reports := if settings.reportsDiagnostics then "true" else "false"
  String.join limitLines ++ "report_argument_diagnostics = " ++ reports ++ "\n"

end Settings

def SettingsError.message : SettingsError → String
  | unreadable file => "Failed to read config file " ++ file
  | malformed => "Invalid TOML in config"
  | invalidValue field reason => "Invalid value for " ++ field ++ ": " ++ reason

end TypeInference
