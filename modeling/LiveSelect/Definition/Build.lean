import LiveSelect.Definition.Basic
import LiveSelect.Query.New
import LiveSelect.Query.Joins
import LiveSelect.Query.Properties
import LiveSelect.Query.Statement

/-! # Building a query from its definition

Tables and joins come first, then grouping, then the properties of the columns in the
order of the document, which fixes the order of the selection. -/

namespace LiveSelect

/-- Why a definition describes no query. -/
inductive DefinitionError where
  | invalidReference (reference : String)
  | unknownTable (table : String)
  | unknownColumn (column table : String)
  /-- An operation on the query was refused. -/
  | refused (reason : QueryError)
deriving DecidableEq, Repr

/-- The wording of a fault in a definition. -/
def DefinitionError.message : DefinitionError → String
  | invalidReference r => "Invalid column reference '" ++ r ++ "', expected 'table.column'"
  | unknownTable t => "Unknown table '" ++ t ++ "'"
  | unknownColumn c t => "Unknown column '" ++ c ++ "' in table '" ++ t ++ "'"
  | refused reason => "Invalid query: " ++ reason.message

/-- Splits a reference at its first point into the names of a table and a column. -/
def splitReference? (reference : String) : Option (String × String) :=
  match reference.toList.span (· ≠ '.') with
  | (table, _ :: column) => some (String.ofList table, String.ofList column)
  | (_, []) => none

namespace QueryDefinition

/-- The query after an edit that may have been refused. -/
def accept (e : Except QueryError Edit) : Except DefinitionError Query :=
  match e with
  | .ok e => .ok e.query
  | .error reason => .error (.refused reason)

/-- A query that is being built, with the items made so far and their definitions. -/
structure Draft where
  query : Query
  columns : List (ItemId × ColumnDefinition) := []

namespace Draft

variable (mint : Minting)

/-- Makes an item. Of its properties it has the kind alone, and whether it identifies rows. -/
def addColumn (c : ContainerId) (kind : ItemKind) (d : Draft) (column : ColumnDefinition) :
    Except DefinitionError Draft :=
  let spec : ItemSpec := { name := column.name, kind, rowIdentifier := column.rowIdentifier }
  match d.query.addItem c spec (mint d.query.count) with
  | .ok (id, e) => .ok { query := e.query, columns := d.columns ++ [(id, column)] }
  | .error reason => .error (.refused reason)

/-- Makes a table with its columns and adds it to the statement. -/
def addTable (d : Draft) (table : TableDefinition) : Except DefinitionError Draft := do
  let identity : TableIdentity :=
    { catalog := table.catalog, schema := table.schema, name := table.name }
  let (c, query) := d.query.newTable identity (mint d.query.count)
  let query ← accept (query.setContainerAlias c table.aliasName)
  let d ← table.columns.foldlM (fun d column => addColumn mint c column.kind d column)
    { d with query }
  return { d with query := ← accept (d.query.addTable c) }

/-- Finds the constant that a definition names, or makes it. -/
def addConstant (d : Draft) (constant : ColumnDefinition) : Except DefinitionError Draft :=
  match d.query.findItem? d.query.constants constant.name with
  | some id => .ok { d with columns := d.columns ++ [(id, constant)] }
  | none => addColumn mint d.query.constants .constant d constant

end Draft

/-- The item that a reference names. -/
def resolve (q : Query) (reference : String) : Except DefinitionError ItemId :=
  match splitReference? reference with
  | none => .error (.invalidReference reference)
  | some (table, column) =>
    match q.findTable? table with
    | none => .error (.unknownTable table)
    | some c =>
      match q.findItem? c column with
      | none => .error (.unknownColumn column table)
      | some id => .ok id

/-- Adds a join between two columns; the left reference is judged first. -/
def addJoin (q : Query) (d : JoinDefinition) : Except DefinitionError Query := do
  let left ← resolve q d.left
  let right ← resolve q d.right
  let { comparator, leftOuter, rightOuter, .. } := d
  accept ((q.addJoin { left, right, comparator, leftOuter, rightOuter }).map Prod.snd)

/-- Sets the properties of an item. -/
def setProperties (q : Query) (column : ItemId × ColumnDefinition) :
    Except DefinitionError Query := do
  let (id, d) := column
  let q ← match d.groupRole with
    | some role => accept (q.setGroupRole id role)
    | none => pure q
  let q ← accept (q.setItemAlias id d.aliasName)
  let q ← accept (q.setFilter id d.filter)
  let q ← accept (q.setHaving id d.having)
  let q ← accept (q.setSortOrder id d.sortOrder)
  accept (q.setSelected id d.selected)

/-- The query that a definition describes. -/
def build (d : QueryDefinition) (settings : QuerySettings) (uuid : Uuid) (mint : Minting) :
    Except DefinitionError Query := do
  let start := { Query.createWith settings uuid mint with name := d.name }
  let draft ← d.tables.foldlM (Draft.addTable mint) { query := start.startCompound.query }
  let draft ← d.constants.foldlM (Draft.addConstant mint) draft
  let q ← d.joins.foldlM addJoin draft.query
  let q ← draft.columns.foldlM setProperties (q.setGrouping d.grouping).query
  let q := (q.setGlobalFilter d.globalFilter).query.endCompound.query
  return match d.handWritten with
    | some text => (q.defineHandWritten text).query
    | none => q

end QueryDefinition

end LiveSelect
