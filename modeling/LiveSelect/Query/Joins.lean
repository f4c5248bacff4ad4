import LiveSelect.Query.Edit

/-! # Joins of a query

Whether a table is outer is a property of the table: all joins that touch it carry the
same flag on its side. A new join takes the flags that its containers have, and setting
the flag on one join sets it on all joins of the table. -/

namespace LiveSelect.Query

/-- The side of a join that a container holds. -/
def sideOf (q : Query) (j : JoinId) (c : ContainerId) : Except QueryError Side :=
  match q.ends? j with
  | some (left, right) =>
    if left = c then .ok .left
    else if right = c then .ok .right
    else .error (.inconsistentJoinTopology c j)
  | none => .error (.inconsistentJoinTopology c j)

/-- The flag that a container has in the oldest join that touches it. -/
def inheritedOuter (q : Query) (c : ContainerId) : Except QueryError (Option Bool) :=
  match q.joinsOf c with
  | [] => .ok none
  | first :: _ => do
    let side ← q.sideOf first c
    return (q.join? first).map (·.outer side)

/-- The join with the flag of a side replaced by an inherited one. -/
def inherit (join : Join) (side : Side) : Option Bool → Join
  | some outer => join.withOuter side outer
  | none => join

/-- Adds a join between items of two containers. -/
def addJoin (q : Query) (join : Join) : Except QueryError (JoinId × Edit) :=
  match q.item? join.left, q.item? join.right with
  | none, _ => .error (.unknownItem join.left)
  | _, none => .error (.unknownItem join.right)
  | some l, some r => do
    if l.container = r.container then throw (.selfJoin join.left join.right)
    let left ← q.inheritedOuter l.container
    let right ← q.inheritedOuter r.container
    let join := inherit (inherit join .left left) .right right
    let id : JoinId := q.nextId
    let q := { q.handOut with joins := q.joins.insert id join }
    let q := (q.listJoin l.container id).listJoin r.container id
    return (id, (Edit.start q).announce (.joinAdded id))

/-- Removes a join and returns it. -/
def removeJoin (q : Query) (id : JoinId) : Except QueryError (Join × Edit) :=
  match q.join? id with
  | none => .error (.unknownJoin id)
  | some join =>
    match q.ends? id with
    | none => .error (.unknownJoin id)
    | some _ => .ok (join, (Edit.start q).dropJoin id)

/-- The property that stands for the flag of a side. -/
def outerProperty : Side → Property
  | .left => .leftOuter
  | .right => .rightOuter

/-- The joins of a container whose flag on its side differs from `outer`, each with the
side that the container holds. -/
def differingJoins (q : Query) (c : ContainerId) (outer : Bool) :
    Except QueryError (List (JoinId × Side)) := do
  let sides ← (q.joinsOf c).mapM fun j => do return (j, ← q.sideOf j c)
  return sides.filter fun x => (q.join? x.1).any (·.outer x.2 ≠ outer)

/-- Sets a flag of a join and announces it. -/
def flipOuter (outer : Bool) (e : Edit) (x : JoinId × Side) : Edit :=
  (e.update (·.updateJoin x.1 (·.withOuter x.2 outer))).announce
    (.joinChanged x.1 ⟨outerProperty x.2, .flag (!outer), .flag outer⟩)

/-- Sets the flag of the table that stands on a side of a join. -/
def setOuter (q : Query) (id : JoinId) (side : Side) (outer : Bool) : Except QueryError Edit :=
  match q.join? id with
  | none => .error (.unknownJoin id)
  | some join =>
    match q.item? (join.column side) with
    | none => .error (.unknownItem (join.column side))
    | some item => do
      let changes ← q.differingJoins item.container outer
      return (Edit.start q).each changes (flipOuter outer)

/-- Sets the comparator of a join. -/
def setComparator (q : Query) (id : JoinId) (comparator : String) : Except QueryError Edit :=
  match q.join? id with
  | none => .error (.unknownJoin id)
  | some join =>
    if join.comparator = comparator then .ok (.start q)
    else .ok ((Edit.start (q.updateJoin id ({ · with comparator }))).announce
      (.joinChanged id ⟨.comparator, .text (some join.comparator), .text (some comparator)⟩))

end LiveSelect.Query
