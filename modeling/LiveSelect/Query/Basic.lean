import LiveSelect.IdMap
import LiveSelect.Item
import LiveSelect.Container
import LiveSelect.Join
import LiveSelect.Error
import LiveSelect.Dialect

/-! # Queries

A query owns items, containers and joins, all numbered from one counter, and keeps four
lists over them: the selected items, the sorted items, the tables of the statement, and
for every container the joins that touch it. A container is attached when it is one of
the tables or holds the constants; only attached containers show in the statement. -/

namespace LiveSelect

/-- Settings that new queries start with. -/
structure QuerySettings where
  rowLimit : UInt32 := 1000
  streamingRowLimit : UInt32 := 1000
  streaming : Bool := false
  dialect : Dialect := .ansi
deriving DecidableEq

/-- A SELECT statement under construction. -/
structure Query where
  uuid : Uuid
  name : Option String := none
  items : IdMap .item Item := ∅
  containers : IdMap .container Container := ∅
  joins : IdMap .join Join := ∅
  /-- How many numbers have been handed out. -/
  count : Nat := 0
  /-- The selected items in the order of the projection. -/
  selected : List ItemId := []
  /-- The sorted items, the first sorting before the others. -/
  sortList : List ItemId := []
  /-- The tables in the order in which they were added. -/
  tables : List ContainerId := []
  /-- The joins that touch a container, in the order in which they were added. -/
  incidence : IdMap .container (List JoinId) := ∅
  constants : ContainerId
  globalFilter : Option String := none
  grouping : Bool := false
  /-- A text that stands in for the generated one. -/
  handWritten : Option String := none
  canExecute : Bool := true
  rowLimit : UInt32 := 1000
  streamingRowLimit : UInt32 := 1000
  streaming : Bool := false
  zoomLevel : Int32 := 0
  dialect : Dialect := .ansi

/-- Supplies the identifier of the entity with a given number. -/
abbrev Minting := Nat → Uuid

namespace Query

/-! ## Look-ups -/

def item? (q : Query) (id : ItemId) : Option Item := q.items.get? id

def container? (q : Query) (id : ContainerId) : Option Container := q.containers.get? id

def join? (q : Query) (id : JoinId) : Option Join := q.joins.get? id

/-- The items that ids stand for; ids without an item are passed over. -/
def resolve (q : Query) (ids : List ItemId) : List Item := ids.filterMap q.item?

/-- The items of a container in its order. -/
def itemsOf (q : Query) (c : ContainerId) : List ItemId :=
  ((q.container? c).map Container.items).getD []

/-- The joins that touch a container, the oldest first. -/
def joinsOf (q : Query) (c : ContainerId) : List JoinId := (q.incidence.get? c).getD []

/-- The containers of the left and right columns of a join. -/
def ends? (q : Query) (j : JoinId) : Option (ContainerId × ContainerId) := do
  let join ← q.join? j
  let left ← q.item? join.left
  let right ← q.item? join.right
  return (left.container, right.container)

/-- Every join, the oldest first. -/
def allJoins (q : Query) : List JoinId := q.joins.keys

/-- Whether a container is one of the tables or holds the constants. -/
def isAttached (q : Query) (c : ContainerId) : Bool := c = q.constants || q.tables.contains c

/-- Whether a container is known and has a property. -/
def containerHas (q : Query) (p : Container → Bool) (c : ContainerId) : Bool :=
  (q.container? c).any p

/-- The first table with the given alias, or else the first with the given name. -/
def findTable? (q : Query) (name : String) : Option ContainerId :=
  (q.tables.find? (q.containerHas fun c => c.aliasName = some name)).or
    (q.tables.find? (q.containerHas fun c => c.name = name))

/-- The first item of a container with the given name. -/
def findItem? (q : Query) (c : ContainerId) (name : String) : Option ItemId :=
  (q.itemsOf c).find? fun i => (q.item? i).any (·.name = name)

/-! ## Numbers -/

/-- The number that is handed out next. -/
def nextId {e : Entity} (q : Query) : Id e := .ofCount q.count

/-- The query after a number has been handed out. -/
def handOut (q : Query) : Query := { q with count := q.count + 1 }

/-! ## Small edits of the state -/

def updateItem (q : Query) (id : ItemId) (f : Item → Item) : Query :=
  { q with items := q.items.modify id f }

def updateContainer (q : Query) (id : ContainerId) (f : Container → Container) : Query :=
  { q with containers := q.containers.modify id f }

def updateJoin (q : Query) (id : JoinId) (f : Join → Join) : Query :=
  { q with joins := q.joins.modify id f }

/-- Lists a join under a container, after the joins listed there. -/
def listJoin (q : Query) (c : ContainerId) (j : JoinId) : Query :=
  { q with incidence := q.incidence.insert c (q.joinsOf c ++ [j]) }

/-- Takes a join from the list of a container; an empty list is dropped. -/
def unlistJoin (q : Query) (j : JoinId) (c : ContainerId) : Query :=
  let rest := (q.joinsOf c).filter (· ≠ j)
  { q with incidence := if rest = [] then q.incidence.erase c else q.incidence.insert c rest }

/-- Makes an item's place in the selection agree with its flag: an item that becomes
selected goes to the end. -/
def syncSelection (q : Query) (id : ItemId) : Query :=
  if (q.item? id).any (·.selected) then
    if q.selected.contains id then q else { q with selected := q.selected ++ [id] }
  else { q with selected := q.selected.filter (· ≠ id) }

/-- Lists a sorted item at the end of the sort list, unless it is listed already. -/
def enterSortList (q : Query) (id : ItemId) : Query :=
  if (q.item? id).any Item.isSorted && !q.sortList.contains id then
    { q with sortList := q.sortList ++ [id] }
  else q

/-- Moves a sorted item to the end of the sort list, and drops one that does not sort. -/
def syncSortList (q : Query) (id : ItemId) : Query :=
  let rest := q.sortList.filter (· ≠ id)
  { q with sortList := if (q.item? id).any Item.isSorted then rest ++ [id] else rest }

/-- Takes an item from the selection and from the sort list. -/
def unlistItem (q : Query) (id : ItemId) : Query :=
  { q with
    selected := q.selected.filter (· ≠ id)
    sortList := q.sortList.filter (· ≠ id) }

end Query

end LiveSelect
