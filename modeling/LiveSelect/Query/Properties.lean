import LiveSelect.Query.Edit

/-! # Properties of items and of the query

A change of a property is announced with the values before and after. Setting a property
of an item to the value it has does nothing. -/

namespace LiveSelect

/-! ## Items -/

/-- A property of items: how it is read, and what else follows a change. -/
structure ItemProperty where
  property : Property
  read : Item → PropertyValue
  /-- What a change does to the lists, if the item's container is attached. -/
  follow : Query → ItemId → Query := fun q _ => q

namespace ItemProperty

def selected : ItemProperty := ⟨.selected, fun i => .flag i.selected, Query.syncSelection⟩
def sortOrder : ItemProperty := ⟨.sortOrder, fun i => .sortOrder i.sortOrder, Query.syncSortList⟩
def groupRole : ItemProperty := { property := .groupRole, read := fun i => .groupRole i.groupRole }
def aliasName : ItemProperty := { property := .aliasName, read := fun i => .text i.aliasName }
def filter : ItemProperty := { property := .filter, read := fun i => .text i.filter }
def having : ItemProperty := { property := .having, read := fun i => .text i.having }
def name : ItemProperty := { property := .name, read := fun i => .text (some i.name) }

end ItemProperty

namespace Query

/-- Applies `f` to an item and announces the change of a property, if there is one. -/
def changeItem (q : Query) (id : ItemId) (p : ItemProperty) (f : Item → Item) :
    Except QueryError Edit :=
  match q.item? id with
  | none => .error (.unknownItem id)
  | some item =>
    let old := p.read item
    let new := p.read (f item)
    if old = new then .ok (.start q)
    else
      let q := q.updateItem id f
      let q := if q.isAttached item.container then p.follow q id else q
      .ok ((Edit.start q).announce (.itemChanged id ⟨p.property, old, new⟩))

/-- Selects an item, which puts it at the end of the selection, or drops it. -/
def setSelected (q : Query) (id : ItemId) (selected : Bool) : Except QueryError Edit :=
  q.changeItem id .selected fun i => { i with selected }

/-- Sorts by an item, which makes it the last to sort, or no longer. -/
def setSortOrder (q : Query) (id : ItemId) (sortOrder : SortOrder) : Except QueryError Edit :=
  q.changeItem id .sortOrder fun i => { i with sortOrder }

def setGroupRole (q : Query) (id : ItemId) (groupRole : GroupRole) : Except QueryError Edit :=
  q.changeItem id .groupRole fun i => { i with groupRole }

def setItemAlias (q : Query) (id : ItemId) (aliasName : Option String) : Except QueryError Edit :=
  q.changeItem id .aliasName fun i => { i with aliasName }

/-- Sets the condition on an item alone, such as `> 10`. -/
def setFilter (q : Query) (id : ItemId) (filter : Option String) : Except QueryError Edit :=
  q.changeItem id .filter fun i => { i with filter }

/-- Sets the condition on an item's groups. -/
def setHaving (q : Query) (id : ItemId) (having : Option String) : Except QueryError Edit :=
  q.changeItem id .having fun i => { i with having }

def setItemName (q : Query) (id : ItemId) (name : String) : Except QueryError Edit :=
  q.changeItem id .name fun i => { i with name }

/-! ## The query -/

/-- Starts a compound edit: until it ends the query is not to be executed. -/
def startCompound (q : Query) : Edit := (Edit.start q).setCanExecute false

/-- Ends a compound edit. -/
def endCompound (q : Query) : Edit := (Edit.start q).setCanExecute true

/-- Sets whether the query may be executed. -/
def setCanExecute (q : Query) (value : Bool) : Edit := (Edit.start q).setCanExecute value

/-- The selected columns that do not count yet, with their present roles. -/
def uncountedColumns (q : Query) : List (ItemId × GroupRole) :=
  q.selected.filterMap fun id => do
    let item ← q.item? id
    if item.kind = .column ∧ item.groupRole ≠ .count then return (id, item.groupRole) else none

/-- Gives a column the role of a count and announces it. -/
def countColumn (e : Edit) (column : ItemId × GroupRole) : Edit :=
  (e.update (·.updateItem column.1 fun i => { i with groupRole := .count })).announce
    (.itemChanged column.1 ⟨.groupRole, .groupRole column.2, .groupRole .count⟩)

/-- Turns grouping on or off. Turning it on makes every selected column a count, as one
compound edit. -/
def setGrouping (q : Query) (enabled : Bool) : Edit :=
  let old := q.grouping
  if old = enabled then .start q
  else
    let e := if enabled then
        (q.startCompound.each q.uncountedColumns countColumn).setCanExecute true
      else .start q
    (e.update ({ · with grouping := enabled })).announce
      (.queryChanged ⟨.grouping, .flag old, .flag enabled⟩)

/-- Sets the condition that is added to the filters of the items. -/
def setGlobalFilter (q : Query) (condition : Option String) : Edit :=
  if condition = q.globalFilter then .start q
  else (Edit.start { q with globalFilter := condition }).announce
    (.queryChanged ⟨.globalFilter, .text q.globalFilter, .text condition⟩)

/-- Sets the row limit. It is announced even when it stays the same, because results that
were kept are no longer valid. -/
def setRowLimit (q : Query) (limit : UInt32) : Edit :=
  (Edit.start { q with rowLimit := limit }).announce
    (.queryChanged ⟨.rowLimit, .number q.rowLimit.toNat, .number limit.toNat⟩)

/-- Drops a hand-written text, so that the generated one shows again. -/
def removeHandWritten (q : Query) : Edit :=
  match q.handWritten with
  | none => .start q
  | some text => (Edit.start { q with handWritten := none }).announce
      (.queryChanged ⟨.handWritten, .text (some text), .text none⟩)

end Query

end LiveSelect
