import LiveSelect.Query.Copy
import LiveSelect.Query.Joins
import LiveSelect.Query.Tables

/-! # Indexing the arenas

Some operations take an id that they have checked, or that the query itself has listed, and index
an arena with it without asking whether anything is there. Here these operations are written with
every such access as a step that breaks off at an id that names nothing. Breaking off is not a
refusal: it is the end of the program. -/

namespace LiveSelect

/-- An id at which an arena was indexed and that names nothing. -/
inductive Gap where
  | item (id : ItemId)
  | container (id : ContainerId)
  | join (id : JoinId)
deriving DecidableEq, Repr

/-- A result, unless an arena was indexed at a gap. -/
abbrev Indexing := Except Gap

/-- A result or a refusal, unless an arena was indexed at a gap. -/
abbrev Guarded := ExceptT QueryError Indexing

namespace Query

/-! ## Accesses -/

def itemAt (q : Query) (i : ItemId) : Indexing Item :=
  match q.item? i with
  | some item => .ok item
  | none => .error (.item i)

def containerAt (q : Query) (c : ContainerId) : Indexing Container :=
  match q.container? c with
  | some k => .ok k
  | none => .error (.container c)

def joinAt (q : Query) (j : JoinId) : Indexing Join :=
  match q.join? j with
  | some join => .ok join
  | none => .error (.join j)

end Query

namespace Guarded

/-- What is found without indexing an arena. -/
def ofExcept {α : Type} (x : Except QueryError α) : Guarded α := ExceptT.mk (.ok x)

/-! ## Tables and items -/

/-- The table is on the list before its container is indexed for the items. -/
def addTable (q : Query) (c : ContainerId) : Guarded Edit := do
  if !q.containers.contains c then throw (.unknownContainer c)
  if c = q.constants then throw .constantsContainer
  if q.tables.contains c then throw (.tableAlreadyAdded c)
  let e := Edit.start { q with tables := q.tables ++ [c] }
  let k ← e.query.containerAt c
  return (e.each k.items Edit.attachItem).announce (.tableAdded c)

/-- The container is indexed only after the joins of the table are gone. -/
def removeTable (q : Query) (c : ContainerId) : Guarded Edit := do
  if c = q.constants then throw .constantsContainer
  if !q.tables.contains c then throw (.tableNotInQuery c)
  let e := Edit.start { q with tables := q.tables.erase c }
  let e := e.each (q.joinsOf c) Edit.dropJoin
  let k ← e.query.containerAt c
  return (e.each k.items Edit.detachItem).announce (.tableRemoved c)

/-- The item that is removed is indexed for its name, which goes into a log. -/
def removeItem (q : Query) (i : ItemId) : Guarded (Item × Edit) := do
  if (q.item? i).isNone then throw (.unknownItem i)
  let _logged ← q.itemAt i
  ofExcept (q.removeItem i)

/-! ## Joins -/

/-- Those of some joins of a container whose flag on its side differs from `outer`. -/
def differingJoins (q : Query) (c : ContainerId) (outer : Bool) :
    List JoinId → Guarded (List (JoinId × Side))
  | [] => return []
  | j :: rest => do
    let side ← ofExcept (q.sideOf j c)
    let join ← q.joinAt j
    let others ← differingJoins q c outer rest
    return if join.outer side ≠ outer then (j, side) :: others else others

def setOuter (q : Query) (j : JoinId) (side : Side) (outer : Bool) : Guarded Edit := do
  match q.join? j with
  | none => throw (.unknownJoin j)
  | some join =>
    match q.item? (join.column side) with
    | none => throw (.unknownItem (join.column side))
    | some item =>
      let changes ← differingJoins q item.container outer (q.joinsOf item.container)
      return (Edit.start q).each changes (Query.flipOuter outer)

end Guarded

namespace Indexing

/-! ## Copies -/

/-- Indexes an arena with each old number and puts the value under the new one, changed by `f`. -/
def carry {e : Entity} {α β : Type} (access : Id e → Indexing α) (pairs : List (Id e × Id e))
    (f : Id e → α → Option β) : Indexing (IdMap e β) := do
  let found ← pairs.mapM fun x => do return (x.2, ← access x.1)
  return .ofList (found.filterMap fun x => (f x.1 x.2).map (x.1, ·))

/-- The numbers in a copy: the containers are indexed for their items, and the joins for their
columns. -/
def renumbering (q : Query) : Indexing Renumbering := do
  let containers := numberFrom 0 q.copyOrder
  let owned ← q.copyOrder.mapM fun c => do return (← q.containerAt c).items
  let items := numberFrom containers.length owned.flatten
  let found ← q.allJoins.mapM fun j => do return (j, ← q.joinAt j)
  let kept := found.filter fun x =>
    (items.lookup x.2.left).isSome && (items.lookup x.2.right).isSome
  return { containers, items,
           joins := numberFrom (containers.length + items.length) (kept.map Prod.fst) }

/-- A copy indexes every container, every item and every join that it takes over. -/
def copy (q : Query) (uuid : Uuid) (mint : Minting) : Indexing Copied := do
  let r ← renumbering q
  let containers ← carry q.containerAt r.containers fun id k =>
    some { k with items := renumber r.items k.items, uuid := mint id.toNat }
  let items ← carry q.itemAt r.items fun id item => do
    let container ← r.containers.lookup item.container
    return { item with container, uuid := mint id.toNat }
  let joins ← carry q.joinAt r.joins fun _ join => do
    let left ← r.items.lookup join.left
    let right ← r.items.lookup join.right
    return { join with left, right }
  let query :=
    { q with
      uuid
      containers
      items
      joins
      count := r.containers.length + r.items.length + r.joins.length
      selected := renumber r.items q.selected
      sortList := renumber r.items q.sortList
      tables := renumber r.containers q.tables
      incidence := Query.carry q.incidence r.containers fun _ listed =>
        let listed := renumber r.joins listed
        if listed = [] then none else some listed
      constants := .ofCount 0 }
  return ⟨query, r⟩

end Indexing

end LiveSelect
