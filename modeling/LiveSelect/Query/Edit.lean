import LiveSelect.Query.Basic
import LiveSelect.Event

/-! # Edits

An operation changes a query in small steps and announces events between them. An
`Edit` is such a change under way: the query as it is now, and the notices sent so far,
each with the query as it was when the notice was sent. What an observer sees is thus
part of the result of an operation. -/

namespace LiveSelect

/-- An event, and the query as an observer sees it at that moment. -/
structure Notice where
  event : Event
  seen : Query

/-- A query that is being edited and the notices sent on the way, the first one first. -/
structure Edit where
  query : Query
  notices : List Notice := []

namespace Edit

/-- The edit that has not done anything yet. -/
def start (q : Query) : Edit := { query := q }

/-- Changes the query without a notice. -/
def update (e : Edit) (f : Query → Query) : Edit := { e with query := f e.query }

/-- Sends a notice of an event. -/
def announce (e : Edit) (event : Event) : Edit :=
  { e with notices := e.notices ++ [⟨event, e.query⟩] }

/-- Wires an item of an attached container into the query. -/
def attachItem (e : Edit) (id : ItemId) : Edit :=
  (e.update fun q => (q.syncSelection id).enterSortList id).announce (.itemAdded id)

/-- Takes an item out of the lists of the query. -/
def detachItem (e : Edit) (id : ItemId) : Edit :=
  let e := e.update (·.unlistItem id)
  match e.query.item? id with
  | some item => e.announce (.itemRemoved id item)
  | none => e

/-- Drops a join from the query and from the lists of both containers. -/
def dropJoin (e : Edit) (id : JoinId) : Edit :=
  match e.query.ends? id, e.query.join? id with
  | some (left, right), some join =>
    (e.update fun q =>
      ({ q with joins := q.joins.erase id }.unlistJoin id left).unlistJoin id right).announce
        (.joinRemoved id join)
  | _, _ => e

/-- Applies an edit to each member of a list, the first one first. -/
def each {α : Type} (e : Edit) (l : List α) (step : Edit → α → Edit) : Edit := l.foldl step e

/-- Sets whether the query may be executed; that it may again is announced. -/
def setCanExecute (e : Edit) (value : Bool) : Edit :=
  let was := e.query.canExecute
  let e := e.update ({ · with canExecute := value })
  if value && !was then e.announce .readyToExecute else e

end Edit

end LiveSelect
