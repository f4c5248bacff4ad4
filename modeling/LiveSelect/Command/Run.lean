import LiveSelect.Command.Help
import LiveSelect.Definition.Load
import LiveSelect.Settings.Load
import LiveSelect.Sql.Validation

/-! # Running the command

The command loads settings, then a query, and writes the text of the query or the list of
its tables. -/

namespace LiveSelect.Command

/-- What the command leaves behind: its exit code, its output and its complaint. -/
structure Answer where
  exit : UInt8
  output : String := ""
  complaint : String := ""
deriving DecidableEq, Repr

namespace Answer

def success (output : String) : Answer := { exit := 0, output }

/-- The answer to a task that cannot be done. -/
def failure (complaint : String) : Answer := { exit := 1, complaint := complaint ++ "\n" }

/-- The answer to arguments that name no task. -/
def ofHalt : Halt → Answer
  | .misuse => { exit := 2, complaint := usage .top }
  | .help level => success (helpText level)
  | .version => success versionText

end Answer

/-- A table in the list of tables, with its alias. -/
def tableLine (c : Container) : String :=
  "  - " ++ c.name ++
    match c.aliasName with
    | some a => " (alias: " ++ a ++ ")\n"
    | none => "\n"

/-- The tables of a query in the order in which they stand in its text. -/
def tableList (file : String) (q : Query) : String :=
  match q.finishOrder with
  | [] => "No tables defined.\n"
  | order =>
    "File: " ++ file ++ "\n\nTables:\n" ++
      String.join ((order.filterMap q.container?).map tableLine)

/-- The text of a query, which has to be valid if that is to be checked. -/
def generated (check : Bool) (q : Query) : Answer :=
  match if check then q.validate else .ok () with
  | .error e => .failure ("Validation error: " ++ e.message)
  | .ok () => .success (q.text ++ "\n")

variable {m : Type → Type} [Monad m]

/-- Loads the query of a file and goes on with it. Identifiers are never shown, so numbers
stand in for them. -/
def withQuery (files : Files m) (file : String) (settings : QuerySettings) (go : Query → Answer) :
    m Answer := do
  match ← loadQuery files file settings (Uuid.ofNat 0) Uuid.ofNat with
  | .error e => return .failure ("Error loading '" ++ file ++ "': " ++ e.message)
  | .ok q => return go q

/-- Loads settings and goes on with them. -/
def withSettings (loaded : m (Except SettingsError Settings)) (go : Settings → m Answer) :
    m Answer := do
  match ← loaded with
  | .error e => return .failure ("Configuration error: " ++ e.message)
  | .ok s => go s

/-- Does a task. -/
def Task.perform (files : Files m) (variableValue : Option String) : Task → m Answer
  | .generate file dialect config check =>
    let loaded := match config with
      | some path => Settings.ofFile files path
      | none => Settings.load files variableValue
    withSettings loaded fun s =>
      let settings := { s.query with dialect := dialect.getD s.query.dialect }
      withQuery files file settings (generated check)
  | .tables file =>
    withSettings (Settings.load files variableValue) fun s =>
      withQuery files file s.query fun q => .success (tableList file q)

/-- Runs the command. -/
def run (files : Files m) (variableValue : Option String) (args : List String) : m Answer :=
  match Task.ofArguments args with
  | .error halt => return .ofHalt halt
  | .ok task => task.perform files variableValue

end LiveSelect.Command
