import LiveSelect.Item
import LiveSelect.Container
import LiveSelect.Join

/-! # Events

What observers of a query are told: an entity came or went, an item moved within the
selection, a property changed, or the query may be executed again. -/

namespace LiveSelect

/-- The properties whose changes are announced: of items, of joins, of the query. -/
inductive Property where
  | name
  | selected
  | sortOrder
  | groupRole
  | aliasName
  | filter
  | having
  | leftOuter
  | rightOuter
  | comparator
  | grouping
  | globalFilter
  | rowLimit
  | handWritten
deriving DecidableEq, Repr

/-- The value of a property before or after a change. -/
inductive PropertyValue where
  | flag (value : Bool)
  | number (value : Nat)
  | text (value : Option String)
  | groupRole (value : GroupRole)
  | sortOrder (value : SortOrder)
deriving DecidableEq, Repr

/-- A property with its values before and after. -/
structure Change where
  property : Property
  old : PropertyValue
  new : PropertyValue
deriving DecidableEq, Repr

/-- What observers can be told. -/
inductive Event where
  /-- An item became part of the query, because its container is attached. -/
  | itemAdded (item : ItemId)
  /-- An item left the query; `was` is the item at that moment. -/
  | itemRemoved (item : ItemId) (was : Item)
  /-- An item moved within the selection. -/
  | itemMoved (item : ItemId)
  | itemChanged (item : ItemId) (change : Change)
  | tableAdded (container : ContainerId)
  | tableRemoved (container : ContainerId)
  | joinAdded (join : JoinId)
  /-- A join was dropped; `was` is the join at that moment. -/
  | joinRemoved (join : JoinId) (was : Join)
  | joinChanged (join : JoinId) (change : Change)
  | queryChanged (change : Change)
  /-- A compound edit has ended, and the query may be executed again. -/
  | readyToExecute
deriving DecidableEq

end LiveSelect
