import LiveSelect.Document.Entities

/-! # Query definitions

A definition describes a query as a document: its tables with their columns, the joins
between columns, and the properties of the query. Everything but the two columns of a join
may be left out; keys that mean nothing are refused. -/

namespace LiveSelect

open Document

/-- An item of a table, or of the constants, with its properties. -/
structure ColumnDefinition where
  name : String := ""
  kind : ItemKind := .column
  aliasName : Option String := none
  selected : Bool := false
  /-- The role; without one the item has the role of every new item. -/
  groupRole : Option GroupRole := none
  sortOrder : SortOrder := .unsorted
  filter : Option String := none
  having : Option String := none
  rowIdentifier : Bool := false
deriving DecidableEq

/-- A table with its columns. -/
structure TableDefinition where
  name : String := ""
  schema : Option String := none
  catalog : Option String := none
  aliasName : Option String := none
  columns : List ColumnDefinition := []
deriving DecidableEq

/-- A join of two columns, each named by a reference such as `orders.id`. -/
structure JoinDefinition where
  left : String
  right : String
  comparator : String := "="
  leftOuter : Bool := false
  rightOuter : Bool := false
deriving DecidableEq

/-- A whole query. -/
structure QueryDefinition where
  name : Option String := none
  tables : List TableDefinition := []
  /-- Properties of constants, by name; names that are new make new constants. -/
  constants : List ColumnDefinition := []
  joins : List JoinDefinition := []
  grouping : Bool := false
  globalFilter : Option String := none
  handWritten : Option String := none
deriving DecidableEq

/-! ## Documents -/

/-- An optional text that may also be left out of a list. -/
def Document.Record.text? (r : Record) (field : String) : Option (Option String) :=
  r.defaulted field none (Value.nullable? Value.text?)

namespace ColumnDefinition

def fields : List String :=
  ["name", "kind", "alias", "selected", "group_by", "order_by", "where", "having",
   "row_identifier"]

def toValue (d : ColumnDefinition) : Value :=
  .table
    [("name", .text d.name),
     ("kind", .text (nameIn ItemKind.names d.kind)),
     ("alias", .ofText? d.aliasName),
     ("selected", .flag d.selected),
     ("group_by", .ofText? (d.groupRole.map (nameIn GroupRole.names))),
     ("order_by", .text (nameIn SortOrder.names d.sortOrder)),
     ("where", .ofText? d.filter),
     ("having", .ofText? d.having),
     ("row_identifier", .flag d.rowIdentifier)]

def ofValue? (c : Conventions) (v : Value) : Option ColumnDefinition := do
  let r ← Record.ofValue? c true fields v
  return {
    name := ← r.defaulted "name" "" Value.text?
    kind := ← r.defaulted "kind" .column (choice? c ItemKind.names)
    aliasName := ← r.text? "alias"
    selected := ← r.defaulted "selected" false Value.flag?
    groupRole := ← r.defaulted "group_by" none (Value.nullable? (choice? c GroupRole.names))
    sortOrder := ← r.defaulted "order_by" .unsorted (choice? c SortOrder.names)
    filter := ← r.text? "where"
    having := ← r.text? "having"
    rowIdentifier := ← r.defaulted "row_identifier" false Value.flag? }

end ColumnDefinition

namespace TableDefinition

def fields : List String := ["name", "schema", "catalog", "alias", "columns"]

def toValue (d : TableDefinition) : Value :=
  .table
    [("name", .text d.name),
     ("schema", .ofText? d.schema),
     ("catalog", .ofText? d.catalog),
     ("alias", .ofText? d.aliasName),
     ("columns", .list (d.columns.map ColumnDefinition.toValue))]

def ofValue? (c : Conventions) (v : Value) : Option TableDefinition := do
  let r ← Record.ofValue? c true fields v
  return {
    name := ← r.defaulted "name" "" Value.text?
    schema := ← r.text? "schema"
    catalog := ← r.text? "catalog"
    aliasName := ← r.text? "alias"
    columns := ← r.defaulted "columns" [] (Value.list? (ColumnDefinition.ofValue? c)) }

end TableDefinition

namespace JoinDefinition

def fields : List String := ["left", "right", "comparator", "left_outer", "right_outer"]

def toValue (d : JoinDefinition) : Value :=
  .table
    [("left", .text d.left),
     ("right", .text d.right),
     ("comparator", .text d.comparator),
     ("left_outer", .flag d.leftOuter),
     ("right_outer", .flag d.rightOuter)]

def ofValue? (c : Conventions) (v : Value) : Option JoinDefinition := do
  let r ← Record.ofValue? c true fields v
  return {
    left := ← r.required "left" Value.text?
    right := ← r.required "right" Value.text?
    comparator := ← r.defaulted "comparator" "=" Value.text?
    leftOuter := ← r.defaulted "left_outer" false Value.flag?
    rightOuter := ← r.defaulted "right_outer" false Value.flag? }

end JoinDefinition

namespace QueryDefinition

def fields : List String :=
  ["name", "tables", "constants", "joins", "grouping", "global_where", "override"]

def toValue (d : QueryDefinition) : Value :=
  .table
    [("name", .ofText? d.name),
     ("tables", .list (d.tables.map TableDefinition.toValue)),
     ("constants", .list (d.constants.map ColumnDefinition.toValue)),
     ("joins", .list (d.joins.map JoinDefinition.toValue)),
     ("grouping", .flag d.grouping),
     ("global_where", .ofText? d.globalFilter),
     ("override", .ofText? d.handWritten)]

def ofValue? (c : Conventions) (v : Value) : Option QueryDefinition := do
  let r ← Record.ofValue? c true fields v
  return {
    name := ← r.text? "name"
    tables := ← r.defaulted "tables" [] (Value.list? (TableDefinition.ofValue? c))
    constants := ← r.defaulted "constants" [] (Value.list? (ColumnDefinition.ofValue? c))
    joins := ← r.defaulted "joins" [] (Value.list? (JoinDefinition.ofValue? c))
    grouping := ← r.defaulted "grouping" false Value.flag?
    globalFilter := ← r.text? "global_where"
    handWritten := ← r.text? "override" }

end QueryDefinition

end LiveSelect
