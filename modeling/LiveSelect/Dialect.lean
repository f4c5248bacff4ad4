import LiveSelect.Item
import LiveSelect.Container
import LiveSelect.Text.Case

/-! # Dialects and naming

A statement spells the names of its items and tables through a `Naming`. Every dialect
is one: it spells the pseudo-columns in the engine's way and decides how much of a
table's identity goes into its name. The plain naming spells every name as it is. -/

namespace LiveSelect

/-- How the names of items and tables are spelled. -/
structure Naming where
  item : Item → String
  table : Container → String

/-- The naming that spells every name as it is. -/
def Naming.plain : Naming := ⟨fun i => i.name, fun c => c.name⟩

namespace TableIdentity

/-- The parts of a name with points between them. -/
def joinParts (parts : List String) : String := ".".intercalate parts

/-- Catalog, schema and name; a part that is empty or missing is left out. -/
def fullName (t : TableIdentity) : String :=
  joinParts ([t.catalog, t.schema, some t.name].filterMap Text.nonEmpty?)

/-- Name after a qualifier, unless that is empty or missing. -/
def nameAfter (qualifier : Option String) (name : String) : String :=
  joinParts ((Text.nonEmpty? qualifier).toList ++ [name])

end TableIdentity

/-- The supported dialects of SQL. -/
inductive Dialect where
  | ansi
  | postgres
  | mysql
  | tsql
  | duckdb
deriving DecidableEq, Repr, Inhabited

namespace Dialect

def all : List Dialect := [ansi, postgres, mysql, tsql, duckdb]

def name : Dialect → String
  | ansi => "ansi"
  | postgres => "postgres"
  | mysql => "mysql"
  | tsql => "tsql"
  | duckdb => "duckdb"

/-- The names under which each dialect is known. -/
def names : List (String × Dialect) :=
  all.map (fun d => (d.name, d)) ++
    [("postgresql", postgres), ("mssql", tsql), ("sqlserver", tsql)]

/-- The dialect known under a name, in any case. -/
def ofName? (name : String) : Option Dialect := names.lookup (Text.lowercase name)

/-- The wording for a name under which no dialect is known. -/
def unknownMessage (name : String) : String := "unknown SQL dialect: " ++ name

/-- How each dialect spells the pseudo-columns that it does not take as they are. -/
def spellings : Dialect → List (String × String)
  | ansi => []
  | postgres | duckdb => [("USER", "current_user")]
  | mysql =>
    [("CURRENT_TIME", "CURRENT_TIME()"), ("CURRENT_DATE", "CURRENT_DATE()"),
     ("USER", "CURRENT_USER()")]
  | tsql =>
    [("CURRENT_TIME", "CONVERT(TIME, GETDATE())"), ("CURRENT_DATE", "CONVERT(DATE, GETDATE())"),
     ("USER", "CURRENT_USER")]

/-- The dialect's spelling of a pseudo-column, named in any case. -/
def spelling? (d : Dialect) (constant : String) : Option String :=
  d.spellings.lookup (Text.uppercase constant)

/-- The name of a table. A catalog is a database of its own for PostgreSQL and takes the
place of the schema for MySQL. -/
def tableName (d : Dialect) (t : TableIdentity) : String :=
  match d with
  | postgres => TableIdentity.nameAfter t.schema t.name
  | mysql => TableIdentity.nameAfter t.catalog t.name
  | ansi | tsql | duckdb => t.fullName

/-- Whether the dialect has FULL OUTER JOIN. -/
def hasFullOuterJoin (d : Dialect) : Bool := d ≠ mysql

/-- The naming of a dialect: only constants are spelled anew. -/
def naming (d : Dialect) : Naming where
  item i := if i.kind = .constant then (d.spelling? i.name).getD i.name else i.name
  table c := match c.kind with
    | .table identity => d.tableName identity
    | .constants => c.name

end Dialect

end LiveSelect
