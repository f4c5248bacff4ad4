import LiveSelect.Query.Tables
import LiveSelect.Query.Joins
import LiveSelect.Query.Properties
import LiveSelect.Query.Statement
import LiveSelect.Observer

/-! # Operations

Everything that can be done to a query is an `Operation`. Performing one yields a reply
and an edit, or a refusal; a refusal leaves no trace. An `ObservedQuery` is a query with
registered observers, who are called for every notice of an edit. -/

namespace LiveSelect

/-- Everything that can be done to a query. -/
inductive Operation where
  | newTable (identity : TableIdentity) (uuid : Uuid)
  | addTable (container : ContainerId)
  | removeTable (container : ContainerId)
  | setContainerAlias (container : ContainerId) (aliasName : Option String)
  | newConstants (uuid : Uuid)
  | addItem (container : ContainerId) (spec : ItemSpec) (uuid : Uuid)
  | removeItem (item : ItemId)
  | moveItem (item : ItemId) (index : Nat)
  | moveSortedItemToEnd (item : ItemId)
  | setSelected (item : ItemId) (value : Bool)
  | setSortOrder (item : ItemId) (value : SortOrder)
  | setGroupRole (item : ItemId) (value : GroupRole)
  | setItemAlias (item : ItemId) (value : Option String)
  | setFilter (item : ItemId) (value : Option String)
  | setHaving (item : ItemId) (value : Option String)
  | setItemName (item : ItemId) (value : String)
  | setGrouping (value : Bool)
  | addJoin (join : Join)
  | removeJoin (join : JoinId)
  | setOuter (join : JoinId) (side : Side) (value : Bool)
  | setComparator (join : JoinId) (value : String)
  | setName (value : Option String)
  | setGlobalFilter (value : Option String)
  | setZoomLevel (value : Int32)
  | setRowLimit (value : UInt32)
  | setStreamingRowLimit (value : UInt32)
  | setStreaming (value : Bool)
  | setDialect (value : Dialect)
  | defineHandWritten (text : String)
  | removeHandWritten
  | setCanExecute (value : Bool)
  | startCompound
  | endCompound

/-- What an operation returns. -/
inductive Reply where
  | done
  | container (id : ContainerId)
  | item (id : ItemId)
  | join (id : JoinId)
  | removedItem (item : Item)
  | removedJoin (join : Join)
deriving DecidableEq

/-- A reply and the edit that was made. -/
abbrev Outcome := Except QueryError (Reply × Edit)

namespace Outcome

/-- The outcome of an operation that returns nothing. -/
def ofEdit (e : Except QueryError Edit) : Outcome := e.map fun e => (.done, e)

/-- The outcome of an operation that cannot be refused and returns nothing. -/
def done (e : Edit) : Outcome := .ok (.done, e)

/-- The outcome of a change that is not announced. -/
def quiet (q : Query) : Outcome := done (.start q)

end Outcome

/-- Performs an operation. -/
def Query.perform (q : Query) : Operation → Outcome
  | .newTable identity uuid =>
    let (id, q) := q.newTable identity uuid
    .ok (.container id, .start q)
  | .addTable c => .ofEdit (q.addTable c)
  | .removeTable c => .ofEdit (q.removeTable c)
  | .setContainerAlias c a => .ofEdit (q.setContainerAlias c a)
  | .newConstants uuid =>
    let (id, e) := q.newConstants uuid
    .ok (.container id, e)
  | .addItem c spec uuid => (q.addItem c spec uuid).map fun x => (.item x.1, x.2)
  | .removeItem i => (q.removeItem i).map fun x => (.removedItem x.1, x.2)
  | .moveItem i index => .ofEdit (q.moveItem i index)
  | .moveSortedItemToEnd i => .ofEdit (q.moveSortedItemToEnd i)
  | .setSelected i v => .ofEdit (q.setSelected i v)
  | .setSortOrder i v => .ofEdit (q.setSortOrder i v)
  | .setGroupRole i v => .ofEdit (q.setGroupRole i v)
  | .setItemAlias i v => .ofEdit (q.setItemAlias i v)
  | .setFilter i v => .ofEdit (q.setFilter i v)
  | .setHaving i v => .ofEdit (q.setHaving i v)
  | .setItemName i v => .ofEdit (q.setItemName i v)
  | .setGrouping v => .done (q.setGrouping v)
  | .addJoin j => (q.addJoin j).map fun x => (.join x.1, x.2)
  | .removeJoin j => (q.removeJoin j).map fun x => (.removedJoin x.1, x.2)
  | .setOuter j side v => .ofEdit (q.setOuter j side v)
  | .setComparator j v => .ofEdit (q.setComparator j v)
  | .setName v => .quiet { q with name := v }
  | .setGlobalFilter v => .done (q.setGlobalFilter v)
  | .setZoomLevel v => .quiet { q with zoomLevel := v }
  | .setRowLimit v => .done (q.setRowLimit v)
  | .setStreamingRowLimit v => .quiet { q with streamingRowLimit := v }
  | .setStreaming v => .quiet { q with streaming := v }
  | .setDialect v => .quiet { q with dialect := v }
  | .defineHandWritten text => .done (q.defineHandWritten text)
  | .removeHandWritten => .done q.removeHandWritten
  | .setCanExecute v => .done (q.setCanExecute v)
  | .startCompound => .done q.startCompound
  | .endCompound => .done q.endCompound

/-! ## Observed queries -/

/-- A query with observers of type `α`. -/
structure ObservedQuery (α : Type) where
  query : Query
  observers : Registry α := {}

/-- The reply to an operation or its refusal, the calls of observers on the way, and the
query afterwards. -/
structure Performed (α : Type) where
  reply : Except QueryError Reply
  calls : List (α × Notice)
  after : ObservedQuery α

namespace ObservedQuery

variable {α : Type}

/-- Performs an operation and delivers its notices. -/
def perform (o : ObservedQuery α) (op : Operation) : Performed α :=
  match o.query.perform op with
  | .error err => ⟨.error err, [], o⟩
  | .ok (reply, e) => ⟨.ok reply, o.observers.deliverAll e.notices, { o with query := e.query }⟩

/-- Registers an observer. -/
def observe (o : ObservedQuery α) (observer : α) : ObserverId × ObservedQuery α :=
  let (id, observers) := o.observers.register observer
  (id, { o with observers })

/-- Removes an observer; tells whether it was registered. -/
def unobserve (o : ObservedQuery α) (id : ObserverId) : Bool × ObservedQuery α :=
  let (found, observers) := o.observers.unregister id
  (found, { o with observers })

end ObservedQuery

end LiveSelect
