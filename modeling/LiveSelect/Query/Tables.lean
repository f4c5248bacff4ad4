import LiveSelect.Query.Edit

/-! # Tables and items of a query

Containers are made, added to the statement and taken from it; items are made in a
container and removed, and moved within the lists of the query. -/

namespace LiveSelect.Query

/-! ## Containers -/

/-- Makes a container for a table; it is not part of the statement yet. -/
def newTable (q : Query) (identity : TableIdentity) (uuid : Uuid) : ContainerId × Query :=
  let id := q.nextId
  (id, { q.handOut with containers := q.containers.insert id (.ofTable identity uuid) })

/-- Adds a table to the statement. Its items become part of the query as they are. -/
def addTable (q : Query) (c : ContainerId) : Except QueryError Edit :=
  if !q.containers.contains c then .error (.unknownContainer c)
  else if c = q.constants then .error .constantsContainer
  else if q.tables.contains c then .error (.tableAlreadyAdded c)
  else
    let e := Edit.start { q with tables := q.tables ++ [c] }
    .ok ((e.each (q.itemsOf c) Edit.attachItem).announce (.tableAdded c))

/-- Takes a table from the statement, with the joins that touch it. Its container stays
known and can be added again. -/
def removeTable (q : Query) (c : ContainerId) : Except QueryError Edit :=
  if c = q.constants then .error .constantsContainer
  else if !q.tables.contains c then .error (.tableNotInQuery c)
  else
    let e := Edit.start { q with tables := q.tables.erase c }
    let e := e.each (q.joinsOf c) Edit.dropJoin
    .ok ((e.each (q.itemsOf c) Edit.detachItem).announce (.tableRemoved c))

/-- Sets the alias of a container; nobody is told. -/
def setContainerAlias (q : Query) (c : ContainerId) (aliasName : Option String) :
    Except QueryError Edit :=
  if !q.containers.contains c then .error (.unknownContainer c)
  else .ok (.start (q.updateContainer c ({ · with aliasName })))

/-- Removes an item's record after the item has been taken from the lists. -/
def forgetItem (e : Edit) (id : ItemId) : Edit :=
  (e.detachItem id).update fun q => { q with items := q.items.erase id }

/-- Puts an empty container of constants in the place of the present one, whose items
and joins are removed. -/
def newConstants (q : Query) (uuid : Uuid) : ContainerId × Edit :=
  let old := q.constants
  let e := (Edit.start q).each (q.joinsOf old) Edit.dropJoin
  let e := e.update fun q => { q with containers := q.containers.erase old }
  let e := e.each (q.itemsOf old) forgetItem
  let id : ContainerId := e.query.nextId
  (id, e.update fun q =>
    { q.handOut with containers := q.containers.insert id (.ofConstants uuid), constants := id })

/-! ## Items -/

/-- Makes an item at the end of a container that is known. -/
def insertItem (q : Query) (c : ContainerId) (spec : ItemSpec) (uuid : Uuid) : ItemId × Edit :=
  let id : ItemId := q.nextId
  let q := { q.handOut with items := q.items.insert id { spec with container := c, uuid } }
  let e := Edit.start (q.updateContainer c fun k => { k with items := k.items ++ [id] })
  (id, if q.isAttached c then e.attachItem id else e)

/-- Makes an item at the end of a container. -/
def addItem (q : Query) (c : ContainerId) (spec : ItemSpec) (uuid : Uuid) :
    Except QueryError (ItemId × Edit) :=
  if !q.containers.contains c then .error (.unknownContainer c)
  else .ok (q.insertItem c spec uuid)

/-- Removes an item together with the joins that use it, and returns it. -/
def removeItem (q : Query) (id : ItemId) : Except QueryError (Item × Edit) :=
  match q.item? id with
  | none => .error (.unknownItem id)
  | some item =>
    let c := item.container
    let users := (q.joinsOf c).filter fun j => (q.join? j).any (·.uses id)
    let e := (Edit.start q).each users Edit.dropJoin
    let e := if q.isAttached c then e.detachItem id else e
    .ok (item, e.update fun q =>
      { q.updateContainer c fun k => { k with items := k.items.filter (· ≠ id) } with
        items := q.items.erase id })

/-- Moves a selected item to a place within the selection. -/
def moveItem (q : Query) (id : ItemId) (index : Nat) : Except QueryError Edit :=
  if !q.selected.contains id then .error (.itemNotSelected id)
  else if q.selected.length ≤ index then .error (.indexOutOfBounds index q.selected.length)
  else
    let e := Edit.start { q with selected := (q.selected.erase id).insertIdx index id }
    .ok (e.announce (.itemMoved id))

/-- Makes a sorted item the last to sort; nobody is told. -/
def moveSortedItemToEnd (q : Query) (id : ItemId) : Except QueryError Edit :=
  if !q.sortList.contains id then .error (.itemNotSorted id)
  else .ok (.start { q with sortList := q.sortList.erase id ++ [id] })

end LiveSelect.Query
