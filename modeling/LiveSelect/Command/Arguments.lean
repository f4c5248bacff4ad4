import LiveSelect.Dialect

/-! # Command-line arguments

The arguments name a task, one of two, after general options and before its own. They are
judged one after the other, so the first fault counts, and a request for help ends the
reading if nothing before it was at fault. -/

namespace LiveSelect.Command

/-- The levels at which arguments stand: before the name of a task, after it, or after the
word that asks for help. -/
inductive Level where
  | top
  | generate
  | tables
  | help
deriving DecidableEq, Repr

/-- The options. -/
inductive Flag where
  | verbose
  | help
  | version
  | dialect
  | config
  | check
deriving DecidableEq, Repr

/-- The options of each level. -/
def Level.flags : Level → List Flag
  | .top => [.verbose, .help, .version]
  | .generate => [.verbose, .help, .dialect, .config, .check]
  | .tables => [.verbose, .help]
  | .help => []

namespace Flag

/-- The letter after a single hyphen. -/
def letter? : Flag → Option Char
  | verbose => some 'v'
  | help => some 'h'
  | version => some 'V'
  | dialect => some 'd'
  | config => some 'c'
  | check => none

/-- The word after two hyphens. -/
def word : Flag → String
  | verbose => "verbose"
  | help => "help"
  | version => "version"
  | dialect => "dialect"
  | config => "config"
  | check => "check"

def takesValue : Flag → Bool
  | dialect | config => true
  | _ => false

end Flag

/-- Why no task is to be done. -/
inductive Halt where
  | misuse
  | help (level : Level)
  | version
deriving DecidableEq, Repr

/-- What has been read at one level so far. -/
structure Reading where
  /-- The options that were given. -/
  given : List Flag := []
  dialect : Option Dialect := none
  config : Option String := none
  file : Option String := none
  /-- The option whose value comes next. -/
  awaiting : Option Flag := none
  /-- Whether everything that comes is an operand. -/
  operandsOnly : Bool := false

namespace Reading

/-- Sets the value of an option. -/
def setValue (r : Reading) (f : Flag) (value : String) : Except Halt Reading :=
  match f with
  | .dialect => match Dialect.all.find? (·.name = value) with
    | some d => .ok { r with dialect := some d }
    | none => .error .misuse
  | .config => if value = "" then .error .misuse else .ok { r with config := some value }
  | _ => .error .misuse

/-- Takes note of an option, which may be given once only. -/
def give (r : Reading) (level : Level) (f : Flag) : Except Halt Reading :=
  if f = .help then .error (.help level)
  else if f = .version then .error .version
  else if r.given.contains f then .error .misuse
  else .ok { r with given := f :: r.given }

/-- Takes an argument that is no option: the file, of which there is one at most. -/
def takeOperand (r : Reading) (level : Level) (arg : String) : Except Halt Reading :=
  if level = .top || r.file.isSome || arg = "" then .error .misuse
  else .ok { r with file := some arg }

/-- Reads the letters after a single hyphen. What follows the letter of an option with a
value is the value, with or without an equals sign. -/
def takeLetters (r : Reading) (level : Level) : List Char → Except Halt Reading
  | [] => .ok r
  | c :: rest => do
    match level.flags.find? (·.letter? = some c) with
    | none => throw .misuse
    | some f =>
      let r ← r.give level f
      if f.takesValue then
        match rest with
        | [] => return { r with awaiting := some f }
        | '=' :: value => r.setValue f (String.ofList value)
        | value => r.setValue f (String.ofList value)
      else takeLetters r level rest

/-- Reads the word after two hyphens, with a value after an equals sign. -/
def takeWord (r : Reading) (level : Level) (cs : List Char) : Except Halt Reading := do
  let (word, value) := cs.span (· ≠ '=')
  match level.flags.find? (·.word = String.ofList word) with
  | none => throw .misuse
  | some f =>
    if f.takesValue then
      let r ← r.give level f
      match value with
      | [] => return { r with awaiting := some f }
      | _ :: value => r.setValue f (String.ofList value)
    else if value = [] then r.give level f
    else throw .misuse

/-- Whether an argument has the form of an option. -/
def isOption (arg : String) : Bool := arg.toList.head? = some '-' && arg ≠ "-"

/-- Reads one more argument. -/
def take (level : Level) (r : Reading) (arg : String) : Except Halt Reading :=
  if r.operandsOnly then r.takeOperand level arg
  else match r.awaiting with
    | some f =>
      if isOption arg then .error .misuse else { r with awaiting := none }.setValue f arg
    | none =>
      if arg = "--" then .ok { r with operandsOnly := true }
      else if !isOption arg then r.takeOperand level arg
      else match arg.toList with
        | _ :: '-' :: cs => r.takeWord level cs
        | _ :: cs => r.takeLetters level cs
        | [] => .error .misuse

/-- The file that a task needs, at the end of the arguments. -/
def requireFile (r : Reading) : Except Halt String :=
  match r.awaiting, r.file with
  | none, some file => .ok file
  | _, _ => .error .misuse

end Reading

/-- What is to be done. -/
inductive Task where
  /-- Write the text of the query in a file. -/
  | generate (file : String) (dialect : Option Dialect) (config : Option String) (check : Bool)
  /-- List the tables of the query in a file. -/
  | tables (file : String)
deriving DecidableEq, Repr

/-- The page that `help` and names of tasks ask for. -/
def helpPage : List String → Halt
  | [] => .help .top
  | ["generate"] => .help .generate
  | ["tables"] => .help .tables
  | ["help"] => .help .help
  | _ => .misuse

/-- The task that the arguments name. -/
def Task.ofArguments (args : List String) : Except Halt Task := do
  let (options, rest) := args.span Reading.isOption
  let r ← options.foldlM (Reading.take .top) {}
  if r.operandsOnly then throw .misuse
  match rest with
  | "generate" :: args =>
    let r ← args.foldlM (Reading.take .generate) {}
    return .generate (← r.requireFile) r.dialect r.config (r.given.contains .check)
  | "tables" :: args =>
    let r ← args.foldlM (Reading.take .tables) {}
    return .tables (← r.requireFile)
  | "help" :: names => throw (helpPage names)
  | _ => throw .misuse

end LiveSelect.Command
