import LiveSelect.Document.Value

/-! # Trees of TOML tables

The lines of a TOML text build a tree of tables. A table may come to be in three ways,
which decide who may add to it later: by a header of its own, on the way to a header
further down, or by a dotted key. -/

namespace LiveSelect.Toml

open Document

/-- How a table came to be. -/
inductive Origin where
  /-- By a header that names it. -/
  | headed
  /-- By a header that names a table below it. -/
  | implied
  /-- By a dotted key. -/
  | dotted
deriving DecidableEq, Repr

/-- What stands under a key: a value, which nobody may add to, a table, or a list of
tables that headers made one by one. -/
inductive Node where
  | value (v : Value)
  | table (origin : Origin) (entries : List (String × Node))
  | tables (elements : List (List (String × Node)))

/-- The keys of a table with what stands under them. -/
abbrev Entries := List (String × Node)

namespace Entries

/-- Puts a node in the place of the one under a key. -/
def replace (entries : Entries) (key : String) (node : Node) : Entries :=
  entries.map fun e => if e.1 = key then (key, node) else e

/-- Adds a node under a key that is not there yet. -/
def add (entries : Entries) (key : String) (node : Node) : Option Entries :=
  if (entries.lookup key).isSome then none else some (entries ++ [(key, node)])

/-- Edits the table at the end of a path. Tables that are missing on the way are made, and
count as `made`; of a list of tables the way leads through the last. A dotted key does not
lead through a table with a header of its own. -/
def within (made : Origin) (edit : Origin → Entries → Option Entries) :
    List String → Origin → Entries → Option Entries
  | [], origin, entries => edit origin entries
  | key :: path, _, entries =>
    match entries.lookup key with
    | none => do return entries ++ [(key, .table made (← within made edit path made []))]
    | some (.table origin inner) =>
      if made = .dotted ∧ origin = .headed then none
      else do return entries.replace key (.table origin (← within made edit path origin inner))
    | some (.tables elements) => do
      let last ← elements.getLast?
      return entries.replace key
        (.tables (elements.dropLast ++ [← within made edit path .headed last]))
    | some (.value _) => none

/-- Adds a value under a dotted key. A key with several parts adds to a table that dotted
keys made, and such a table takes no other keys. -/
def addValue (entries : Entries) (path : List String) (key : String) (v : Value) :
    Option Entries :=
  let edit : Origin → Entries → Option Entries := fun origin inner =>
    if origin = .dotted ↔ path ≠ [] then inner.add key (.value v) else none
  entries.within .dotted edit path .headed

/-- Opens the table of a header: it is new, or was implied before. -/
def openTable (entries : Entries) (path : List String) (key : String) : Option Entries :=
  let edit : Origin → Entries → Option Entries := fun _ inner =>
    match inner.lookup key with
    | none => some (inner ++ [(key, .table .headed [])])
    | some (.table .implied content) => some (inner.replace key (.table .headed content))
    | some _ => none
  entries.within .implied edit path .headed

/-- Opens one more table of a list of tables. -/
def openElement (entries : Entries) (path : List String) (key : String) : Option Entries :=
  let edit : Origin → Entries → Option Entries := fun _ inner =>
    match inner.lookup key with
    | none => some (inner ++ [(key, .tables [[]])])
    | some (.tables elements) => some (inner.replace key (.tables (elements ++ [[]])))
    | some _ => none
  entries.within .implied edit path .headed

end Entries

mutual

def Node.toValue : Node → Value
  | .value v => v
  | .table _ entries => .table (entryValues entries)
  | .tables elements => .list (elementValues elements)

/-- The values of the nodes under the keys. -/
def entryValues : List (String × Node) → List (String × Value)
  | [] => []
  | (key, node) :: rest => (key, node.toValue) :: entryValues rest

/-- The values of a list of tables. -/
def elementValues : List (List (String × Node)) → List Value
  | [] => []
  | entries :: rest => .table (entryValues entries) :: elementValues rest

end

end LiveSelect.Toml
