import LiveSelect.Text.Split

/-! # Files

What is found when a file is looked up by its path. Whoever loads a definition or settings
is given the look-up, so that loading itself touches no file system. -/

namespace LiveSelect

/-- What stands at a path. -/
inductive Lookup where
  | missing
  /-- There is something, but it cannot be read as a text. -/
  | unreadable (reason : String)
  | text (content : String)
deriving DecidableEq, Repr

/-- Looks up a path. -/
abbrev Files (m : Type → Type) := String → m Lookup

/-- The last component of a path; none if it leads upwards. -/
def fileName? (path : String) : Option (List Char) :=
  let components := (Text.split '/' path.toList).filter fun c => c ≠ [] && c ≠ ['.']
  components.getLast?.filter (· ≠ ['.', '.'])

/-- What follows the last point of a file name; empty if there is no point, or only one at
the start. -/
def extension (path : String) : String :=
  match (Text.split '.' ((fileName? path).getD [])).reverse with
  | last :: first :: rest => if rest = [] && first = [] then "" else String.ofList last
  | _ => ""

example : extension "dir.d/q.toml.json" = "json" := by decide
example : extension ".toml" = "" := by decide
example : extension "q." = "" := by decide

end LiveSelect
