import TypeInference.Log.Filter

/-!
# Log settings

Where events go and which of them: to files in a folder, to the console, as text or
as JSON, through a filter.  The environment may set the filter and the folder.
-/

namespace TypeInference

namespace Log

inductive Format where
  | text
  | json
deriving DecidableEq

/-- A file that is begun anew every day. -/
structure File where
  folder : String
  /-- What the names of the files start with. -/
  name : String
deriving DecidableEq

structure Settings where
  file : Option File := none
  console : Bool := true
  format : Format := .text
  filter : String := "lodestar_core=warn"
deriving DecidableEq

/-- Why logging cannot start. -/
inductive Problem where
  | filter
  | folder (path : String)
deriving DecidableEq

namespace Settings

/-- The settings that environment variables give. -/
def ofEnvironment (lookUp : String → Option String) : Settings :=
  let settings : Settings :=
    match lookUp "LODESTAR_LOG" with
    | some filter => { filter := filter }
    | none => {}
  match lookUp "LODESTAR_LOG_DIR" with
  | some folder => { settings with file := some ⟨folder, "lodestar.log"⟩ }
  | none => settings

/-- What prevents logging from starting, given which folders can be made. -/
def problem? (settings : Settings) (canMake : String → Bool) : Option Problem :=
  if !isFilter settings.filter then some .filter
  else
    match settings.file with
    | some file => if canMake file.folder then none else some (.folder file.folder)
    | none => none

end Settings

end Log

end TypeInference
