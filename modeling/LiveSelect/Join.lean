import LiveSelect.Id

/-! # Joins

A join compares an item of one container with an item of another. Each side carries a
flag: the table of an outer side keeps its rows that find no partner. -/

namespace LiveSelect

/-- A side of a join. -/
inductive Side where
  | left
  | right
deriving DecidableEq, Repr

/-- How the tables of a join are combined. -/
inductive JoinType where
  | inner
  | leftOuter
  | rightOuter
  | fullOuter
deriving DecidableEq, Repr

namespace JoinType

/-- The combination in which the first table, the second, or both are outer. -/
def ofFlags : Bool → Bool → JoinType
  | false, false => inner
  | true, false => leftOuter
  | false, true => rightOuter
  | true, true => fullOuter

def keyword : JoinType → String
  | inner => "INNER JOIN"
  | leftOuter => "LEFT OUTER JOIN"
  | rightOuter => "RIGHT OUTER JOIN"
  | fullOuter => "FULL OUTER JOIN"

end JoinType

/-- A condition between two items. -/
structure Join where
  left : ItemId
  right : ItemId
  comparator : String := "="
  leftOuter : Bool := false
  rightOuter : Bool := false
  name : Option String := none
deriving DecidableEq

namespace Join

/-- The item on a side. -/
def column (j : Join) : Side → ItemId
  | .left => j.left
  | .right => j.right

/-- The flag of a side. -/
def outer (j : Join) : Side → Bool
  | .left => j.leftOuter
  | .right => j.rightOuter

/-- The join with the flag of a side set. -/
def withOuter (j : Join) (side : Side) (outer : Bool) : Join :=
  match side with
  | .left => { j with leftOuter := outer }
  | .right => { j with rightOuter := outer }

/-- How the join combines its tables when the left one comes first. -/
def type (j : Join) : JoinType := .ofFlags j.leftOuter j.rightOuter

/-- Whether an item is compared by the join. -/
def uses (j : Join) (item : ItemId) : Bool := j.left = item || j.right = item

end Join

end LiveSelect
