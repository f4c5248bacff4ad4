import LiveSelect.Query.Graph
import LiveSelect.Query.Edit

/-! # The text of a query

The clauses of the statement are first decided as lists of items, tables and joins, and
then written with a naming. A clause is a keyword followed by entries with separators
between them, and is absent when it has no entry. -/

namespace LiveSelect

/-- A keyword, then entries with a separator between them; nothing if there is no entry. -/
def clause (keyword separator : String) (entries : List String) : String :=
  match entries with
  | [] => ""
  | _ => keyword ++ separator.intercalate entries

/-- Where a table stands in the FROM clause: how it is combined with the table before it,
and the joins that it shares with any of the earlier tables. -/
structure Placement where
  table : ContainerId
  joinType : JoinType
  conditions : List JoinId
deriving DecidableEq

namespace Query

/-! ## What stands in the clauses -/

/-- The type of a join that links the earlier of two tables with the later one, with the
flags read from the earlier table. -/
def linkType? (q : Query) (earlier later : ContainerId) (j : JoinId) : Option JoinType := do
  let join ← q.join? j
  let (left, right) ← q.ends? j
  if left = earlier ∧ right = later then return .ofFlags join.leftOuter join.rightOuter
  else if right = earlier ∧ left = later then return .ofFlags join.rightOuter join.leftOuter
  else none

/-- How a table is combined with the one before it: as the first join that links the two
says, and plainly if there is none. -/
def joinTypeAfter (q : Query) (previous table : ContainerId) : JoinType :=
  ((q.joinsOf table).findSome? (q.linkType? previous table)).getD .inner

/-- The container at the other end of a join. -/
def partner? (q : Query) (table : ContainerId) (j : JoinId) : Option ContainerId :=
  (q.ends? j).map fun x => if x.1 = table then x.2 else x.1

/-- The joins of a table with any of the earlier ones. -/
def conditionsOn (q : Query) (earlier : List ContainerId) (table : ContainerId) : List JoinId :=
  (q.joinsOf table).filter fun j => (q.partner? table j).any earlier.contains

/-- The tables after the first, each placed after those before it. -/
def placeAfter (q : Query) (earlier : List ContainerId) (previous : ContainerId) :
    List ContainerId → List Placement
  | [] => []
  | table :: rest =>
    { table
      joinType := q.joinTypeAfter previous table
      conditions := q.conditionsOn earlier table } ::
        q.placeAfter (earlier ++ [table]) table rest

/-- The places of all tables but the first. -/
def placements (q : Query) : List Placement :=
  match q.finishOrder with
  | [] => []
  | first :: rest => q.placeAfter [first] first rest

/-- The items that may carry a filter: the constants, then those of the tables. -/
def filterCandidates (q : Query) : List ItemId := (q.constants :: q.tables).flatMap q.itemsOf

/-! ## Names -/

/-- What stands before the name of an item of a container: the container's correlation
name and a point. Constants are not qualified, nor is a container without an alias
outside the statement. -/
def qualifier (q : Query) (c : ContainerId) : String :=
  if c = q.constants then ""
  else match q.container? c with
    | none => ""
    | some k => match k.activeAlias? with
      | some a => a ++ "."
      | none => if q.tables.contains c then k.name ++ "." else ""

/-- The qualified name of an item. -/
def columnText (q : Query) (n : Naming) (item : Item) : String :=
  q.qualifier item.container ++ n.item item

/-- An item in an expression, inside its aggregate function if `wrap` is set. A count is
its bare name. -/
def expression (q : Query) (n : Naming) (wrap : Bool) (item : Item) : String :=
  if item.kind = .count then item.name
  else match item.groupRole.function? with
    | some f => if wrap then f ++ "(" ++ q.columnText n item ++ ")" else q.columnText n item
    | none => q.columnText n item

/-! ## The clauses -/

def selectEntry (q : Query) (n : Naming) (item : Item) : String :=
  q.expression n q.grouping item ++
    match item.activeAlias? with
    | some a => " AS " ++ a
    | none => ""

def selectClause (q : Query) (n : Naming) : String :=
  "SELECT" ++ clause " " ", " ((q.resolve q.selected).map (q.selectEntry n))

/-- A table with the name by which the statement refers to it. -/
def tableText (n : Naming) (k : Container) : String := n.table k ++ " " ++ k.correlationName

/-- The comparison that a join makes. -/
def conditionText? (q : Query) (n : Naming) (j : JoinId) : Option String := do
  let join ← q.join? j
  let leftItem ← q.item? join.left
  let rightItem ← q.item? join.right
  let left ← q.container? leftItem.container
  let right ← q.container? rightItem.container
  return left.correlationName ++ "." ++ n.item leftItem ++ " " ++ join.comparator ++ " " ++
    right.correlationName ++ "." ++ n.item rightItem

/-- The conditions on which a table is joined; a table without any is joined always. -/
def onText (q : Query) (n : Naming) (joins : List JoinId) : String :=
  match joins.filterMap (q.conditionText? n) with
  | [] => "0 = 0"
  | conditions => " \n    AND ".intercalate conditions

/-- A table after the first. -/
def placementText (q : Query) (n : Naming) (p : Placement) : String :=
  match q.container? p.table with
  | none => ""
  | some k =>
    " \n" ++ p.joinType.keyword ++ " " ++ tableText n k ++ " \n  ON " ++ q.onText n p.conditions

/-- The first table. -/
def firstTableText (q : Query) (n : Naming) : String :=
  match q.finishOrder.head?.bind q.container? with
  | none => ""
  | some k => " " ++ tableText n k

def fromClause (q : Query) (n : Naming) : String :=
  if q.tables = [] then ""
  else " \nFROM" ++ q.firstTableText n ++ String.join (q.placements.map (q.placementText n))

/-- The condition that the filter of an item makes. -/
def filterText? (q : Query) (n : Naming) (item : Item) : Option String :=
  item.activeFilter?.map fun condition => q.columnText n item ++ " " ++ condition

/-- The conditions that the filters of the items make. -/
def filterTexts (q : Query) (n : Naming) : List String :=
  (q.resolve q.filterCandidates).filterMap (q.filterText? n)

/-- The filters of the items joined by AND, and then the condition on the whole query,
before which stands one more space. -/
def whereClause (q : Query) (n : Naming) : String :=
  let filters := q.filterTexts n
  clause " \nWHERE " " AND " filters ++
    match Text.nonEmpty? q.globalFilter with
    | none => ""
    | some condition => (if filters = [] then " \nWHERE " else " AND") ++ " " ++ condition

/-- Whether a selected item is listed in the GROUP BY clause. -/
def isGrouped (item : Item) : Bool := item.kind ≠ .count && item.groupRole = .grouped

def groupByClause (q : Query) (n : Naming) : String :=
  clause "\nGROUP BY " ", " (((q.resolve q.selected).filter isGrouped).map (q.columnText n))

/-- The condition on the groups of an item. -/
def havingText? (q : Query) (n : Naming) (item : Item) : Option String :=
  item.activeHaving?.map fun condition => q.expression n true item ++ " " ++ condition

def havingClause (q : Query) (n : Naming) : String :=
  clause "\nHAVING " ", " ((q.resolve q.selected).filterMap (q.havingText? n))

/-- Whether a sorted item is listed in the ORDER BY clause. -/
def isSortable (item : Item) : Bool := item.kind ≠ .constant && item.kind ≠ .count

def orderByEntry (q : Query) (n : Naming) (item : Item) : String :=
  q.expression n q.grouping item ++ " " ++
    match item.sortOrder.keyword? with
    | some k => k ++ " "
    | none => ""

def orderByClause (q : Query) (n : Naming) : String :=
  clause "\nORDER BY " ", " (((q.resolve q.sortList).filter isSortable).map (q.orderByEntry n))

/-! ## The statement -/

/-- The statement of a query that selects something. -/
def statement (q : Query) (n : Naming) : String :=
  q.selectClause n ++ q.fromClause n ++ " " ++ q.whereClause n ++
    (if q.grouping then q.groupByClause n ++ " " ++ q.havingClause n ++ " " else "") ++
    q.orderByClause n

/-- The text that the state of a query yields, empty when nothing is selected. -/
def derivedText (q : Query) (n : Naming) : String :=
  if q.selected = [] then "" else q.statement n

/-- The text of a query: the hand-written one, if there is any. -/
def textWith (q : Query) (n : Naming) : String := q.handWritten.getD (q.derivedText n)

/-- The text of a query in its own dialect. -/
def text (q : Query) : String := q.textWith q.dialect.naming

/-- Puts a hand-written text in the place of the generated one. A text that the query has
anyway is ignored. -/
def defineHandWritten (q : Query) (text : String) : Edit :=
  if q.text = text then .start q
  else (Edit.start { q with handWritten := some text }).announce
    (.queryChanged ⟨.handWritten, .text q.handWritten, .text (some text)⟩)

end Query

end LiveSelect
