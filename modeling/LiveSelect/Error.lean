import LiveSelect.Id

/-! # Refusals

Why an operation on a query is refused. A refused operation leaves the query as it was. -/

namespace LiveSelect

/-- The reasons for which an operation is refused. -/
inductive QueryError where
  /-- A container lists a join that touches none of its items. -/
  | inconsistentJoinTopology (container : ContainerId) (join : JoinId)
  | columnNotDisplayable (name : String)
  | unknownItem (item : ItemId)
  | unknownContainer (container : ContainerId)
  | unknownJoin (join : JoinId)
  /-- Both columns of a join belong to one container. -/
  | selfJoin (left right : ItemId)
  | tableAlreadyAdded (container : ContainerId)
  | tableNotInQuery (container : ContainerId)
  | constantsContainer
  | indexOutOfBounds (index length : Nat)
  | itemNotSelected (item : ItemId)
  | itemNotSorted (item : ItemId)
  | invalidSql (detail : String)
deriving DecidableEq, Repr

namespace QueryError

/-- The wording of a refusal. -/
def message : QueryError → String
  | inconsistentJoinTopology c j =>
    "container " ++ c.text ++ " holds join " ++ j.text ++
      " which is not connected to any of its items"
  | columnNotDisplayable name =>
    "column '" ++ name ++ "' is a row identifier and cannot be displayed"
  | unknownItem i => "unknown item: " ++ i.text
  | unknownContainer c => "unknown container: " ++ c.text
  | unknownJoin j => "unknown join: " ++ j.text
  | selfJoin l r =>
    "join columns " ++ l.text ++ " and " ++ r.text ++ " belong to the same container"
  | tableAlreadyAdded c => "container " ++ c.text ++ " is already in the from list"
  | tableNotInQuery c => "container " ++ c.text ++ " is not in the from list"
  | constantsContainer => "the constants container cannot be added or removed as a table"
  | indexOutOfBounds index length =>
    "index " ++ Nat.repr index ++ " is out of bounds for a list of length " ++ Nat.repr length
  | itemNotSelected i => "item " ++ i.text ++ " is not a selected column"
  | itemNotSorted i => "item " ++ i.text ++ " is not in the order by list"
  | invalidSql detail => "invalid SQL: " ++ detail

/-- Whether a refusal means that the query itself is damaged, and not the call. -/
def isFatal : QueryError → Bool
  | inconsistentJoinTopology .. => true
  | _ => false

end QueryError

end LiveSelect
