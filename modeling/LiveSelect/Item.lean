import LiveSelect.Id
import LiveSelect.Uuid
import LiveSelect.Text.Blank

/-! # Items

An item is what a query can select, filter, group and sort by: a column, an expression,
a constant or a count. It belongs to one container for its whole life. -/

namespace LiveSelect

/-- What an item does while grouping is on. -/
inductive GroupRole where
  | plain
  | grouped
  | sum
  | count
  | min
  | max
  | avg
deriving DecidableEq, Repr, Inhabited

namespace GroupRole

/-- The aggregate function of a role, if it has one. -/
def function? : GroupRole → Option String
  | plain | grouped => none
  | sum => some "SUM"
  | count => some "COUNT"
  | min => some "MIN"
  | max => some "MAX"
  | avg => some "AVG"

/-- Whether a role applies an aggregate function. -/
def isAggregate : GroupRole → Bool
  | plain | grouped => false
  | _ => true

/-- The role as it is shown to a reader. -/
def text : GroupRole → String
  | plain => "NONE"
  | grouped => "GROUP BY"
  | sum => "SUM"
  | count => "COUNT"
  | min => "MIN"
  | max => "MAX"
  | avg => "AVG"

theorem isSome_function? (r : GroupRole) : r.function?.isSome = r.isAggregate := by
  cases r <;> rfl

end GroupRole

/-- The direction in which an item sorts the rows. -/
inductive SortOrder where
  | ascending
  | descending
  | unsorted
deriving DecidableEq, Repr, Inhabited

/-- The keyword of a direction. -/
def SortOrder.keyword? : SortOrder → Option String
  | ascending => some "ASC"
  | descending => some "DESC"
  | unsorted => none

/-- What an item stands for. -/
inductive ItemKind where
  /-- A column of a table. -/
  | column
  /-- A derived text, qualified as a column is. -/
  | expression
  /-- A pseudo-column or literal. -/
  | constant
  /-- A counting projection, written as its bare text. -/
  | count
deriving DecidableEq, Repr, Inhabited

/-- The part of an item that its owner describes before it belongs to a container. -/
structure ItemSpec where
  name : String
  kind : ItemKind := .column
  aliasName : Option String := none
  selected : Bool := false
  groupRole : GroupRole := .grouped
  sortOrder : SortOrder := .unsorted
  filter : Option String := none
  having : Option String := none
  rowIdentifier : Bool := false
deriving DecidableEq

/-- A column, expression, constant or count that belongs to a container. -/
structure Item extends ItemSpec where
  container : ContainerId
  uuid : Uuid
deriving DecidableEq

namespace Item

/-- The filter, unless it is blank. -/
def activeFilter? (item : Item) : Option String := Text.nonBlank? item.filter

/-- The condition on groups, unless it is blank. -/
def activeHaving? (item : Item) : Option String := Text.nonBlank? item.having

/-- The alias, unless it is blank. -/
def activeAlias? (item : Item) : Option String := Text.nonBlank? item.aliasName

/-- The heading of the item in a result grid; a row identifier has none. -/
def heading? (item : Item) : Option String :=
  if item.rowIdentifier then none else some (item.activeAlias?.getD item.name)

/-- Whether the item sorts the rows. -/
def isSorted (item : Item) : Bool := item.sortOrder ≠ .unsorted

end Item

end LiveSelect
