import LiveSelect.Definition.Build
import LiveSelect.Files
import LiveSelect.Json.Reader
import LiveSelect.Toml.Reader

/-! # Loading definitions

A definition is read from a TOML or JSON text, or from a file whose extension tells which
of the two it holds. -/

namespace LiveSelect

/-- The formats of definitions. -/
inductive Format where
  | toml
  | json
deriving DecidableEq, Repr

/-- The format of files with an extension. -/
def Format.ofExtension? : String → Option Format
  | "toml" => some toml
  | "json" => some json
  | _ => none

/-- Why no query can be loaded. -/
inductive LoadError where
  | fileNotFound (path : String)
  | unsupportedExtension (extension : String)
  | unreadable (reason : String)
  /-- The text is not of the format, or holds no definition. -/
  | malformed (format : Format)
  | definition (fault : DefinitionError)
deriving DecidableEq, Repr

/-- The wording of a failure to load. -/
def LoadError.message : LoadError → String
  | fileNotFound path => "File not found: " ++ path
  | unsupportedExtension ext =>
    "Unsupported file extension: " ++ ext ++ ". Supported: .toml, .json"
  | unreadable reason => "IO error: " ++ reason
  | malformed .toml => "TOML error: not a TOML text with a query definition"
  | malformed .json => "JSON error: not a JSON text with a query definition"
  | definition fault => fault.message

namespace QueryDefinition

/-- The definition that a text holds. -/
def ofText? : Format → String → Option QueryDefinition
  | .toml, text => Toml.read? text >>= ofValue? .toml
  | .json, text => Json.read? text >>= ofValue? .json

/-- Reads a definition from a text. -/
def ofText (format : Format) (text : String) : Except LoadError QueryDefinition :=
  match ofText? format text with
  | some d => .ok d
  | none => .error (.malformed format)

/-- The definition that the look-up of a path yields. The file is read before its
extension is judged. -/
def ofLookup (path : String) : Lookup → Except LoadError QueryDefinition
  | .missing => .error (.fileNotFound path)
  | .unreadable reason => .error (.unreadable reason)
  | .text content =>
    match Format.ofExtension? (extension path) with
    | some format => ofText format content
    | none => .error (.unsupportedExtension (extension path))

variable {m : Type → Type} [Monad m]

/-- Reads a definition from a file. -/
def ofFile (files : Files m) (path : String) : m (Except LoadError QueryDefinition) := do
  return ofLookup path (← files path)

end QueryDefinition

/-- Reads a definition from a file and builds its query. -/
def loadQuery {m : Type → Type} [Monad m] (files : Files m) (path : String)
    (settings : QuerySettings) (uuid : Uuid) (mint : Minting) : m (Except LoadError Query) := do
  match ← QueryDefinition.ofFile files path with
  | .error e => return .error e
  | .ok d => return (d.build settings uuid mint).mapError .definition

end LiveSelect
