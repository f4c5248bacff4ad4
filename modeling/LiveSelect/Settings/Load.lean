import LiveSelect.Settings.Basic
import LiveSelect.Toml.Reader
import LiveSelect.Files

/-! # Loading settings

Settings come from a file that is named outright, from the one that an environment
variable names, or from a file with a fixed name in the working directory; without any of
these the defaults hold. -/

namespace LiveSelect

/-- Why settings cannot be loaded. -/
inductive SettingsError where
  | fileNotFound (path : String)
  | unreadable (reason : String)
  /-- The text is not TOML, or a setting has a value that it cannot take. -/
  | malformed
deriving DecidableEq, Repr

/-- The wording of a failure to load settings. -/
def SettingsError.message : SettingsError → String
  | fileNotFound path => "Config file not found: " ++ path
  | unreadable reason => "Failed to read config file: " ++ reason
  | malformed => "Failed to parse config file: not a TOML text with settings"

namespace Settings

/-- The environment variable that names a file of settings. -/
def variableName : String := "QUERYMODEL_CONFIG"

/-- The file of settings in the working directory. -/
def fileName : String := "querymodel.toml"

/-- Reads settings from a TOML text. -/
def ofToml (text : String) : Except SettingsError Settings :=
  match Toml.read? text >>= ofValue? .toml with
  | some s => .ok s
  | none => .error .malformed

/-- The settings that the look-up of a path yields. -/
def ofLookup (path : String) : Lookup → Except SettingsError Settings
  | .missing => .error (.fileNotFound path)
  | .unreadable reason => .error (.unreadable reason)
  | .text content => ofToml content

variable {m : Type → Type} [Monad m]

/-- Reads settings from a file. -/
def ofFile (files : Files m) (path : String) : m (Except SettingsError Settings) := do
  return ofLookup path (← files path)

/-- Reads settings from the file that the environment variable names, if it is set, and
otherwise from the file in the working directory, if there is one. -/
def load (files : Files m) (variableValue : Option String) : m (Except SettingsError Settings) := do
  match variableValue with
  | some path => ofFile files path
  | none =>
    match ← files fileName with
    | .missing => return .ok {}
    | found => return ofLookup fileName found

end Settings

end LiveSelect
