import LiveSelect.Document.Record
import LiveSelect.Item
import LiveSelect.Container
import LiveSelect.Join
import LiveSelect.Dialect

/-! # Entities in JSON

How items, containers and joins are written as JSON values and read back. -/

namespace LiveSelect

open Document

/-! ## Names -/

def GroupRole.names : List (String × GroupRole) :=
  [("none", .plain), ("group_by", .grouped), ("sum", .sum), ("count", .count), ("min", .min),
   ("max", .max), ("avg", .avg)]

def SortOrder.names : List (String × SortOrder) :=
  [("asc", .ascending), ("desc", .descending), ("none", .unsorted)]

def ItemKind.names : List (String × ItemKind) :=
  [("column", .column), ("expression", .expression), ("constant", .constant), ("count", .count)]

def Side.names : List (String × Side) := [("left", .left), ("right", .right)]

def Dialect.ownNames : List (String × Dialect) := Dialect.all.map fun d => (d.name, d)

/-! ## Ids and identifiers -/

namespace Id

variable {e : Entity}

def toValue (id : Id e) : Value := .ofWord id.number

def ofValue? (v : Value) : Option (Id e) := v.word?.map Id.mk

@[simp] theorem ofValue?_toValue (id : Id e) : ofValue? id.toValue = some id := by
  simp [ofValue?, toValue, Value.word?_ofWord]

end Id

namespace Uuid

def toValue (u : Uuid) : Value := .text u.text

def ofValue? (v : Value) : Option Uuid := v.text? >>= ofText?

end Uuid

/-! ## Items -/

namespace Item

def fields : List String :=
  ["name", "kind", "alias", "selected", "group_by", "order_by", "where_text", "having",
   "row_identifier", "container", "uuid"]

def toValue (i : Item) : Value :=
  .table
    [("name", .text i.name),
     ("kind", .text (nameIn ItemKind.names i.kind)),
     ("alias", .ofText? i.aliasName),
     ("selected", .flag i.selected),
     ("group_by", .text (nameIn GroupRole.names i.groupRole)),
     ("order_by", .text (nameIn SortOrder.names i.sortOrder)),
     ("where_text", .ofText? i.filter),
     ("having", .ofText? i.having),
     ("row_identifier", .flag i.rowIdentifier),
     ("container", i.container.toValue),
     ("uuid", i.uuid.toValue)]

def ofValue? (c : Conventions) (v : Value) : Option Item := do
  let r ← Record.ofValue? c false fields v
  return {
    name := ← r.required "name" Value.text?
    kind := ← r.required "kind" (choice? c ItemKind.names)
    aliasName := ← r.optional "alias" Value.text?
    selected := ← r.required "selected" Value.flag?
    groupRole := ← r.required "group_by" (choice? c GroupRole.names)
    sortOrder := ← r.required "order_by" (choice? c SortOrder.names)
    filter := ← r.optional "where_text" Value.text?
    having := ← r.optional "having" Value.text?
    rowIdentifier := ← r.required "row_identifier" Value.flag?
    container := ← r.required "container" Id.ofValue?
    uuid := ← r.required "uuid" Uuid.ofValue? }

end Item

/-! ## Containers -/

namespace TableIdentity

def fields : List String := ["catalog", "schema", "name"]

def entries (t : TableIdentity) : List (String × Value) :=
  [("catalog", .ofText? t.catalog), ("schema", .ofText? t.schema), ("name", .text t.name)]

def toValue (t : TableIdentity) : Value := .table t.entries

def ofValue? (c : Conventions) (v : Value) : Option TableIdentity := do
  let r ← Record.ofValue? c false fields v
  return {
    catalog := ← r.optional "catalog" Value.text?
    schema := ← r.optional "schema" Value.text?
    name := ← r.required "name" Value.text? }

end TableIdentity

namespace ContainerKind

/-- A kind is a table that names it under `type` beside the fields of the kind. -/
def toValue : ContainerKind → Value
  | .table t => .table (("type", .text "table") :: t.entries)
  | .constants => .table [("type", .text "constants")]

/-- The deepest nesting of lists and tables that is stored before it is read. -/
def storageDepth : Nat := 127

/-- The kind with the given name and contents. -/
def ofTagged? (c : Conventions) (name : String) (contents : Value) : Option ContainerKind :=
  match name with
  | "table" => (TableIdentity.ofValue? c contents).map .table
  | "constants" => match contents with
    | .list (_ :: _) => none
    | _ => some .constants
  | _ => none

/-- Reads a kind from a table in which `type` stands once, or from a list that starts
with the name. What stands beside the name is stored until the name is known, at the
given depth of nesting. -/
def ofValue? (c : Conventions) (depth : Nat) (v : Value) : Option ContainerKind :=
  if !v.isSound || storageDepth < depth + v.depth then none
  else match v with
    | .table entries =>
      match entries.filter (·.1 = "type") with
      | [(_, .text name)] => ofTagged? c name (.table (entries.filter (·.1 ≠ "type")))
      | _ => none
    | .list (.text name :: rest) => ofTagged? c name (.list rest)
    | _ => none

end ContainerKind

namespace Container

def fields : List String := ["name", "alias", "kind", "items", "uuid"]

def toValue (k : Container) : Value :=
  .table
    [("name", .text k.name),
     ("alias", .ofText? k.aliasName),
     ("kind", k.kind.toValue),
     ("items", .list (k.items.map Id.toValue)),
     ("uuid", k.uuid.toValue)]

def ofValue? (c : Conventions) (v : Value) : Option Container := do
  let r ← Record.ofValue? c false fields v
  return {
    name := ← r.required "name" Value.text?
    aliasName := ← r.optional "alias" Value.text?
    kind := ← r.required "kind" (ContainerKind.ofValue? c 1)
    items := ← r.required "items" (Value.list? Id.ofValue?)
    uuid := ← r.required "uuid" Uuid.ofValue? }

end Container

/-! ## Joins -/

namespace Join

def fields : List String :=
  ["left_column", "right_column", "comparator", "left_column_outer_join",
   "right_column_outer_join", "name"]

def toValue (j : Join) : Value :=
  .table
    [("left_column", j.left.toValue),
     ("right_column", j.right.toValue),
     ("comparator", .text j.comparator),
     ("left_column_outer_join", .flag j.leftOuter),
     ("right_column_outer_join", .flag j.rightOuter),
     ("name", .ofText? j.name)]

def ofValue? (c : Conventions) (v : Value) : Option Join := do
  let r ← Record.ofValue? c false fields v
  return {
    left := ← r.required "left_column" Id.ofValue?
    right := ← r.required "right_column" Id.ofValue?
    comparator := ← r.required "comparator" Value.text?
    leftOuter := ← r.required "left_column_outer_join" Value.flag?
    rightOuter := ← r.required "right_column_outer_join" Value.flag?
    name := ← r.optional "name" Value.text? }

end Join

end LiveSelect
