import LiveSelect.Query.Operation

/-! # Operations step by step

An operation that can be refused is carried out in steps: some look at the query and may refuse
to go on, others change it or send a notice. A refusal takes nothing back. Whatever was changed
before it stays changed, and who was told has been told; that a refused operation leaves no
trace is therefore a matter of the order of its steps. -/

namespace LiveSelect

/-- Steps on an edit under way, which a refusal leaves as it is at that moment. -/
abbrev Procedure := ExceptT QueryError (StateM Edit)

namespace Procedure

variable {α : Type}

/-- A result or a refusal, and the edit as it is then. -/
def runOn (m : Procedure α) (e : Edit) : Except QueryError α × Edit :=
  StateT.run (ExceptT.run m) e

/-! ## Steps -/

/-- Looks at the query. -/
def ask (f : Query → α) : Procedure α := do return f (← get).query

/-- Changes the edit. -/
def act (f : Edit → Edit) : Procedure Unit := modify f

/-- Changes the query without a notice. -/
def change (f : Query → Query) : Procedure Unit := act (·.update f)

/-- Changes the edit if a container is attached. -/
def ifAttached (c : ContainerId) (f : Edit → Edit) : Procedure Unit :=
  act fun e => if e.query.isAttached c then f e else e

/-- Sends a notice. -/
def announce (event : Event) : Procedure Unit := act (·.announce event)

/-- Changes the edit for each member of a list, the first one first. -/
def each (xs : List α) (step : Edit → α → Edit) : Procedure Unit :=
  xs.forM fun x => act (step · x)

/-- Goes on unless a condition holds. -/
def refuseIf (condition : Bool) (err : QueryError) : Procedure Unit :=
  if condition then throw err else return ()

/-- Goes on with a value if there is one. -/
def require (value : Option α) (err : QueryError) : Procedure α :=
  match value with
  | some a => return a
  | none => throw err

/-- Goes on with what is found out about the query, unless that is a refusal. -/
def examine (f : Query → Except QueryError α) : Procedure α := do
  match ← ask f with
  | .ok a => return a
  | .error err => throw err

/-- Carries out a change that cannot be refused. -/
def carryOut (f : Query → α × Edit) : Procedure α := do
  let (a, e) ← ask f
  act fun before => { e with notices := before.notices ++ e.notices }
  return a

/-- Hands out the next number. -/
def newId {e : Entity} : Procedure (Id e) := do
  let id ← ask (·.nextId)
  change (·.handOut)
  return id

/-- Goes on with what is found in the query, if anything is. -/
def lookUp (f : Query → Option α) (err : QueryError) : Procedure α := do require (← ask f) err

def knownItem (i : ItemId) : Procedure Item := lookUp (·.item? i) (.unknownItem i)

def knownContainer (c : ContainerId) : Procedure Container :=
  lookUp (·.container? c) (.unknownContainer c)

def knownJoin (j : JoinId) : Procedure Join := lookUp (·.join? j) (.unknownJoin j)

/-! ## Tables -/

def addTable (c : ContainerId) : Procedure Unit := do
  let _ ← knownContainer c
  refuseIf (← ask fun q => decide (c = q.constants)) .constantsContainer
  refuseIf (← ask (·.tables.contains c)) (.tableAlreadyAdded c)
  change fun q => { q with tables := q.tables ++ [c] }
  each (← ask (·.itemsOf c)) Edit.attachItem
  announce (.tableAdded c)

def removeTable (c : ContainerId) : Procedure Unit := do
  refuseIf (← ask fun q => decide (c = q.constants)) .constantsContainer
  refuseIf (← ask fun q => !q.tables.contains c) (.tableNotInQuery c)
  change fun q => { q with tables := q.tables.erase c }
  each (← ask (·.joinsOf c)) Edit.dropJoin
  each (← ask (·.itemsOf c)) Edit.detachItem
  announce (.tableRemoved c)

def setContainerAlias (c : ContainerId) (aliasName : Option String) : Procedure Unit := do
  let _ ← knownContainer c
  change (·.updateContainer c ({ · with aliasName }))

/-! ## Items -/

def addItem (c : ContainerId) (spec : ItemSpec) (uuid : Uuid) : Procedure ItemId := do
  let _ ← knownContainer c
  let id ← newId
  change fun q => { q with items := q.items.insert id { spec with container := c, uuid } }
  change (·.updateContainer c fun k => { k with items := k.items ++ [id] })
  ifAttached c (·.attachItem id)
  return id

/-- The record of the item is looked up once more when it is erased at the end. -/
def removeItem (i : ItemId) : Procedure Item := do
  let item ← knownItem i
  let c := item.container
  each (← ask fun q => (q.joinsOf c).filter fun j => (q.join? j).any (·.uses i)) Edit.dropJoin
  ifAttached c (·.detachItem i)
  change (·.updateContainer c fun k => { k with items := k.items.filter (· ≠ i) })
  let erased ← ask (·.item? i)
  change fun q => { q with items := q.items.erase i }
  require erased (.unknownItem i)

def moveItem (i : ItemId) (index : Nat) : Procedure Unit := do
  refuseIf (← ask fun q => !q.selected.contains i) (.itemNotSelected i)
  let length ← ask (·.selected.length)
  refuseIf (length ≤ index) (.indexOutOfBounds index length)
  change fun q => { q with selected := (q.selected.erase i).insertIdx index i }
  announce (.itemMoved i)

def moveSortedItemToEnd (i : ItemId) : Procedure Unit := do
  refuseIf (← ask fun q => !q.sortList.contains i) (.itemNotSorted i)
  change fun q => { q with sortList := q.sortList.erase i ++ [i] }

/-- The item is changed first, and only then it is seen whether anything changed. -/
def changeItem (i : ItemId) (p : ItemProperty) (f : Item → Item) : Procedure Unit := do
  let item ← knownItem i
  let changed := f item
  change (·.updateItem i f)
  if p.read item ≠ p.read changed then
    ifAttached changed.container (·.update (p.follow · i))
    announce (.itemChanged i ⟨p.property, p.read item, p.read changed⟩)

/-! ## Joins -/

def addJoin (join : Join) : Procedure JoinId := do
  let left ← knownItem join.left
  let right ← knownItem join.right
  refuseIf (left.container = right.container) (.selfJoin join.left join.right)
  let leftOuter ← examine (·.inheritedOuter left.container)
  let rightOuter ← examine (·.inheritedOuter right.container)
  let join := Query.inherit (Query.inherit join .left leftOuter) .right rightOuter
  let id ← newId
  change fun q => { q with joins := q.joins.insert id join }
  change (·.listJoin left.container id)
  change (·.listJoin right.container id)
  announce (.joinAdded id)
  return id

/-- Drops a join and tells which it was, if it could be dropped. -/
def dropJoin (j : JoinId) : Procedure (Option Join) := do
  let dropped ← ask fun q => (q.ends? j).bind fun _ => q.join? j
  act (·.dropJoin j)
  return dropped

def removeJoin (j : JoinId) : Procedure Join := do
  let _ ← knownJoin j
  require (← dropJoin j) (.unknownJoin j)

/-- Those of some joins of a container whose flag on its side differs from `outer`. -/
def differingJoins (c : ContainerId) (outer : Bool) :
    List JoinId → Procedure (List (JoinId × Side))
  | [] => return []
  | j :: rest => do
    let side ← examine (·.sideOf j c)
    let differs ← ask fun q => (q.join? j).any (·.outer side ≠ outer)
    let others ← differingJoins c outer rest
    return if differs then (j, side) :: others else others

def setOuter (j : JoinId) (side : Side) (outer : Bool) : Procedure Unit := do
  let join ← knownJoin j
  let item ← knownItem (join.column side)
  let changes ← differingJoins item.container outer (← ask (·.joinsOf item.container))
  each changes (Query.flipOuter outer)

def setComparator (j : JoinId) (comparator : String) : Procedure Unit := do
  let join ← knownJoin j
  if join.comparator ≠ comparator then
    change (·.updateJoin j ({ · with comparator }))
    announce (.joinChanged j ⟨.comparator, .text (some join.comparator), .text (some comparator)⟩)

/-! ## Operations -/

/-- The steps of an operation. -/
def perform : Operation → Procedure Reply
  | .newTable identity uuid => carryOut fun q =>
    let (id, q) := q.newTable identity uuid
    (.container id, .start q)
  | .addTable c => do addTable c; return .done
  | .removeTable c => do removeTable c; return .done
  | .setContainerAlias c a => do setContainerAlias c a; return .done
  | .newConstants uuid => carryOut fun q =>
    let (id, e) := q.newConstants uuid
    (.container id, e)
  | .addItem c spec uuid => do return .item (← addItem c spec uuid)
  | .removeItem i => do return .removedItem (← removeItem i)
  | .moveItem i index => do moveItem i index; return .done
  | .moveSortedItemToEnd i => do moveSortedItemToEnd i; return .done
  | .setSelected i selected => do changeItem i .selected ({ · with selected }); return .done
  | .setSortOrder i sortOrder => do changeItem i .sortOrder ({ · with sortOrder }); return .done
  | .setGroupRole i groupRole => do changeItem i .groupRole ({ · with groupRole }); return .done
  | .setItemAlias i aliasName => do changeItem i .aliasName ({ · with aliasName }); return .done
  | .setFilter i filter => do changeItem i .filter ({ · with filter }); return .done
  | .setHaving i having => do changeItem i .having ({ · with having }); return .done
  | .setItemName i name => do changeItem i .name ({ · with name }); return .done
  | .setGrouping v => carryOut fun q => (.done, q.setGrouping v)
  | .addJoin join => do return .join (← addJoin join)
  | .removeJoin j => do return .removedJoin (← removeJoin j)
  | .setOuter j side v => do setOuter j side v; return .done
  | .setComparator j v => do setComparator j v; return .done
  | .setName name => do change ({ · with name }); return .done
  | .setGlobalFilter v => carryOut fun q => (.done, q.setGlobalFilter v)
  | .setZoomLevel zoomLevel => do change ({ · with zoomLevel }); return .done
  | .setRowLimit v => carryOut fun q => (.done, q.setRowLimit v)
  | .setStreamingRowLimit streamingRowLimit => do
    change ({ · with streamingRowLimit }); return .done
  | .setStreaming streaming => do change ({ · with streaming }); return .done
  | .setDialect dialect => do change ({ · with dialect }); return .done
  | .defineHandWritten text => carryOut fun q => (.done, q.defineHandWritten text)
  | .removeHandWritten => carryOut fun q => (.done, q.removeHandWritten)
  | .setCanExecute v => carryOut fun q => (.done, q.setCanExecute v)
  | .startCompound => carryOut fun q => (.done, q.startCompound)
  | .endCompound => carryOut fun q => (.done, q.endCompound)

end Procedure

/-- Carries out the steps of an operation. The observers have been called for every notice that
was sent, and the query is as the last step left it, also when that was a refusal. -/
def ObservedQuery.execute {α : Type} (o : ObservedQuery α) (op : Operation) : Performed α :=
  let (reply, e) := (Procedure.perform op).runOn (.start o.query)
  ⟨reply, o.observers.deliverAll e.notices, { o with query := e.query }⟩

end LiveSelect
