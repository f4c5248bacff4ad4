import LiveSelect.Command.Arguments

/-! # Help pages

What the command shows about itself. -/

namespace LiveSelect.Command

/-- The name of the command. -/
def commandName : String := "querymodel"

/-- The answer to a question for the version. -/
def versionText : String := commandName ++ " 0.1.0\n"

/-- Rows of two columns, the second of which starts two places after the longest entry of
the first. -/
def twoColumns (rows : List (String × String)) : String :=
  let width := (rows.map fun r => r.1.length).foldl max 0
  String.join (rows.map fun r =>
    "  " ++ r.1 ++ String.ofList (List.replicate (width - r.1.length) ' ') ++ "  " ++ r.2 ++ "\n")

/-- A part of a page under a heading; nothing if it has no rows. -/
def helpSection (heading : String) (rows : List (String × String)) : String :=
  if rows = [] then "" else "\n" ++ heading ++ ":\n" ++ twoColumns rows

/-- An option as the pages show it. -/
def optionRow (f : Flag) : String × String :=
  match f with
  | .verbose => ("-v, --verbose", "Log debug output (overridden by RUST_LOG)")
  | .help => ("-h, --help", "Print help")
  | .version => ("-V, --version", "Print version")
  | .dialect => ("-d, --dialect <DIALECT>",
      "SQL dialect to render names for (defaults to the configured one) [possible values: " ++
        ", ".intercalate (Dialect.all.map Dialect.name) ++ "]")
  | .config => ("-c, --config <CONFIG>",
      "Config file (defaults to $QUERYMODEL_CONFIG or ./querymodel.toml)")
  | .check => ("    --check", "Parse the generated SQL and fail if it is not valid")

/-- What a level is for. -/
def purpose : Level → String
  | .top => "querymodel - Build SELECT statements from query definition files"
  | .generate => "Generate the SQL of a query definition"
  | .tables => "List the tables in FROM clause order"
  | .help => "Print this message or the help of the given subcommand(s)"

/-- How a level is used. -/
def usage : Level → String
  | .top => "Usage: querymodel [OPTIONS] <COMMAND>\n"
  | .generate => "Usage: querymodel generate [OPTIONS] <FILE>\n"
  | .tables => "Usage: querymodel tables [OPTIONS] <FILE>\n"
  | .help => "Usage: querymodel help [COMMAND]...\n"

/-- The options of a level in the order in which they are shown. -/
def shownFlags : Level → List Flag
  | .top => [.verbose, .help, .version]
  | .generate => [.dialect, .verbose, .config, .check, .help]
  | .tables => [.verbose, .help]
  | .help => []

/-- The page of a level. -/
def helpText (level : Level) : String :=
  let operands := match level with
    | .top => helpSection "Commands"
        [("generate", purpose .generate), ("tables", purpose .tables), ("help", purpose .help)]
    | .generate | .tables =>
      helpSection "Arguments" [("<FILE>", "Path to the .toml or .json definition")]
    | .help => helpSection "Arguments" [("[COMMAND]...", "Print help for the subcommand(s)")]
  purpose level ++ "\n\n" ++ usage level ++ operands ++
    helpSection "Options" ((shownFlags level).map optionRow)

end LiveSelect.Command
