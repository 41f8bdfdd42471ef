import TypeInference.Document.Dated
import TypeInference.Document.Section
import TypeInference.Settings

/-!
# Settings in documents and folders

Settings stand at the top of a document or in its table `inference`, which then
counts alone.  Names that are no setting are ignored.  A folder keeps its settings
in a document of their own, or in a section of the project document.
-/

namespace TypeInference

namespace Settings

/-! ## Fields -/

def fields : List String :=
  (limits {}).map Prod.fst ++ ["report_argument_diagnostics"]

/-- Give a setting a value, if the value is of its type; other names change nothing. -/
def assign? (settings : Settings) (field : String) (value : Document.Value) : Option Settings :=
  match field with
  | "recursion_limit" => value.natural?.map fun limit => { settings with recursionLimit := limit }
  | "total_function_execution_limit" =>
    value.natural?.map fun limit => { settings with totalExecutionLimit := limit }
  | "per_function_execution_limit" =>
    value.natural?.map fun limit => { settings with functionExecutionLimit := limit }
  | "per_function_recursion_limit" =>
    value.natural?.map fun limit => { settings with functionRecursionLimit := limit }
  | "unification_depth_limit" =>
    value.natural?.map fun limit => { settings with unificationDepthLimit := limit }
  | "report_argument_diagnostics" =>
    value.boolean?.map fun reports => { settings with reportsDiagnostics := reports }
  | _ => some settings

def ofEntries? (entries : List (String × Document.Value)) : Option Settings :=
  entries.foldlM (fun settings entry => settings.assign? entry.1 entry.2) {}

/-! ## Documents -/

/--
The settings of a section.  An array gives the settings by position; a date is a
section that names no setting.
-/
def ofSection? : Document.Value → Option Settings
  | .table entries => ofEntries? entries
  | .array items => ofEntries? (fields.zip items)
  | .datetime _ => some {}
  | .string _ | .integer _ | .float _ | .boolean _ => none

/--
The settings of a document, not validated.  All that stands outside the table
`inference` has to be well formed even if the table counts alone.
-/
def ofDocument? (entries : List (String × Document.Value)) : Option Settings := do
  let outside := entries.filter (fun entry => entry.1 != "inference")
  let outside ← Document.settleEntries? true outside
  match entries.lookup "inference" with
  | some section_ => ofSection? section_
  | none => ofEntries? outside

def ofDocument (entries : List (String × Document.Value)) : Except SettingsError Settings :=
  match ofDocument? entries with
  | some settings => settings.validate
  | none => .error .malformed

def parse (text : String) : Except SettingsError Settings :=
  match Document.parse? text with
  | some entries => ofDocument entries
  | none => .error .malformed

/-! ## Folders -/

end Settings

/-- What a folder holds under a name. -/
inductive FileContent where
  | absent
  | folder
  | bytes (bytes : ByteArray)

def FileContent.text? : FileContent → Option String
  | bytes content => String.fromUTF8? content
  | absent | folder => none

def FileContent.isPresent : FileContent → Bool
  | absent => false
  | folder | bytes _ => true

namespace Settings

def load (folder : String → FileContent) (file : String) : Except SettingsError Settings :=
  match (folder file).text? with
  | some text => parse text
  | none => .error (.unreadable file)

def ownFile : String := "lodestar.toml"

def projectFile : String := "pyproject.toml"

/--
The settings in the section of a project document.  The section counts as a document
of its own; a date is a section that names no setting.
-/
def ofProject (entries : List (String × Document.Value)) : Except SettingsError Settings :=
  match (Document.Value.table entries).get? "tool" with
  | none => .ok {}
  | some tool =>
    match tool.get? "lodestar" with
    | none | some (.datetime _) => .ok {}
    | some (.table section_) =>
      match Document.rereadSection? section_ with
      | some section_ => ofDocument section_
      | none => .error .malformed
    | some _ => .error (.invalidValue "tool.lodestar" "unsupported rust type")

def loadProject (folder : String → FileContent) : Except SettingsError Settings :=
  match (folder projectFile).text? with
  | none => .error (.unreadable projectFile)
  | some text =>
    match Document.parse? text >>= Document.settleEntries? false with
    | some entries => ofProject entries
    | none => .error .malformed

/-- The settings of a folder: its own document, else the project document, else the defaults. -/
def discover (folder : String → FileContent) : Except SettingsError Settings :=
  if (folder ownFile).isPresent then load folder ownFile
  else if (folder projectFile).isPresent then loadProject folder
  else .ok {}

end Settings

end TypeInference
