import Mathlib.Data.List.Basic
import LiveSelect.Query.Operation

/-! # What edits do to the query

The operations are written as edits, which keep the notices beside the query. Here every
step of an edit is read as a function of the query alone, and every operation gets one
statement that says when it goes through and which query it leaves behind. -/

namespace LiveSelect

namespace Query

variable (q : Query)

/-- Wires an item into the two lists. -/
def attachItem (i : ItemId) : Query := (q.syncSelection i).enterSortList i

/-- Takes a join from the query and from the lists of both containers. -/
def dropJoin (j : JoinId) : Query :=
  match q.ends? j with
  | some (left, right) =>
    ({ q with joins := q.joins.erase j }.unlistJoin j left).unlistJoin j right
  | none => q

/-- Takes several joins from the query, the first one first. -/
def dropJoins (js : List JoinId) : Query := js.foldl dropJoin q

/-- Takes an item from the lists and forgets it. -/
def discardItem (i : ItemId) : Query := { q.unlistItem i with items := q.items.erase i }

/-- Adds a join under the next number and lists it under two containers. -/
def putJoin (left right : ContainerId) (join : Join) : Query :=
  let id : JoinId := q.nextId
  ({ q.handOut with joins := q.joins.insert id join }.listJoin left id).listJoin right id

/-- Sets a flag of a join. -/
def setFlag (outer : Bool) (x : JoinId × Side) : Query :=
  q.updateJoin x.1 (·.withOuter x.2 outer)

/-- Gives a column the role of a count. -/
def countItem (x : ItemId × GroupRole) : Query :=
  q.updateItem x.1 fun i => { i with groupRole := .count }

/-- Whether an item is known and has a property. -/
def itemHas (p : Item → Bool) (i : ItemId) : Bool := (q.item? i).any p

/-- The container of an item. -/
def home? (i : ItemId) : Option ContainerId := (q.item? i).map (·.container)

end Query

/-! ## Steps of edits -/

namespace Edit

variable (e : Edit)

@[simp] theorem query_start (q : Query) : (start q).query = q := rfl

@[simp] theorem query_update (f : Query → Query) : (e.update f).query = f e.query := rfl

@[simp] theorem query_announce (event : Event) : (e.announce event).query = e.query := rfl

@[simp] theorem query_attachItem (i : ItemId) :
    (e.attachItem i).query = e.query.attachItem i := rfl

@[simp] theorem query_detachItem (i : ItemId) :
    (e.detachItem i).query = e.query.unlistItem i := by
  simp only [detachItem]
  split <;> rfl

@[simp] theorem query_dropJoin (j : JoinId) : (e.dropJoin j).query = e.query.dropJoin j := by
  unfold dropJoin Query.dropJoin
  cases hends : e.query.ends? j with
  | none => rfl
  | some ends =>
    cases hjoin : e.query.join? j with
    | none =>
      -- A join with two containers is known.
      simp [Query.ends?, hjoin] at hends
    | some join => rfl

@[simp] theorem query_forgetItem (i : ItemId) :
    (Query.forgetItem e i).query = e.query.discardItem i := by
  simp only [Query.forgetItem, query_update, query_detachItem]
  rfl

@[simp] theorem query_setCanExecute (value : Bool) :
    (e.setCanExecute value).query = { e.query with canExecute := value } := by
  simp only [setCanExecute]
  split <;> rfl

@[simp] theorem query_flipOuter (outer : Bool) (x : JoinId × Side) :
    (Query.flipOuter outer e x).query = e.query.setFlag outer x := rfl

@[simp] theorem query_countColumn (x : ItemId × GroupRole) :
    (Query.countColumn e x).query = e.query.countItem x := rfl

/-- A loop of edits changes the query as the loop of their changes does. -/
theorem query_each {α : Type} {step : Edit → α → Edit} {f : Query → α → Query}
    (h : ∀ e x, (step e x).query = f e.query x) (l : List α) :
    (e.each l step).query = l.foldl f e.query := by
  unfold each
  induction l generalizing e with
  | nil => rfl
  | cons x rest ih =>
    -- The rest of the loop starts from the edit after its first step.
    rw [List.foldl_cons, ih, h]
    rfl

end Edit

/-! ## Operations -/

namespace Query

variable {q : Query} {e : Edit}

theorem newTable_eq (identity : TableIdentity) (uuid : Uuid) :
    q.newTable identity uuid =
      (q.nextId, { q.handOut with
        containers := q.containers.insert q.nextId (.ofTable identity uuid) }) := rfl

theorem addTable_ok {c : ContainerId} (h : q.addTable c = .ok e) :
    q.containers.contains c ∧ c ≠ q.constants ∧ c ∉ q.tables ∧
      e.query = (q.itemsOf c).foldl attachItem { q with tables := q.tables ++ [c] } := by
  unfold addTable at h
  split at h
  · cases h
  · split at h
    · cases h
    · split at h
      · cases h
      · rename_i hknown hconst htable
        cases h
        refine ⟨by simpa using hknown, hconst, by simpa using htable, ?_⟩
        rw [Edit.query_announce, Edit.query_each _ Edit.query_attachItem]
        rfl

theorem removeTable_ok {c : ContainerId} (h : q.removeTable c = .ok e) :
    c ≠ q.constants ∧ c ∈ q.tables ∧
      e.query = (q.itemsOf c).foldl unlistItem
        (dropJoins { q with tables := q.tables.erase c } (q.joinsOf c)) := by
  unfold removeTable at h
  split at h
  · cases h
  · split at h
    · cases h
    · rename_i hconst htable
      cases h
      refine ⟨hconst, by simpa using htable, ?_⟩
      rw [Edit.query_announce, Edit.query_each _ Edit.query_detachItem,
        Edit.query_each _ Edit.query_dropJoin]
      rfl

theorem setContainerAlias_ok {c : ContainerId} {a : Option String}
    (h : q.setContainerAlias c a = .ok e) :
    q.containers.contains c ∧ e.query = q.updateContainer c ({ · with aliasName := a }) := by
  unfold setContainerAlias at h
  split at h
  · cases h
  · rename_i hknown
    cases h
    exact ⟨by simpa using hknown, rfl⟩

/-- The query without its constants: their joins, their container and their items are gone. -/
def withoutConstants (q : Query) : Query :=
  let dropped := q.dropJoins (q.joinsOf q.constants)
  (q.itemsOf q.constants).foldl discardItem
    { dropped with containers := dropped.containers.erase q.constants }

theorem newConstants_query (q : Query) (uuid : Uuid) :
    (q.newConstants uuid).2.query =
      { q.withoutConstants.handOut with
        containers := q.withoutConstants.containers.insert q.withoutConstants.nextId
          (.ofConstants uuid)
        constants := q.withoutConstants.nextId } := by
  unfold newConstants withoutConstants
  simp only [Edit.query_update, Edit.query_each _ Edit.query_forgetItem,
    Edit.query_each _ Edit.query_dropJoin, Edit.query_start, dropJoins]

theorem newConstants_id (q : Query) (uuid : Uuid) :
    (q.newConstants uuid).1 = q.withoutConstants.nextId := by
  unfold newConstants withoutConstants
  simp only [Edit.query_update, Edit.query_each _ Edit.query_forgetItem,
    Edit.query_each _ Edit.query_dropJoin, Edit.query_start, dropJoins]

/-- The query after an item was made in a container, but not yet listed. -/
def putItem (q : Query) (c : ContainerId) (spec : ItemSpec) (uuid : Uuid) : Query :=
  let item : Item := { spec with container := c, uuid }
  { q.handOut with items := q.items.insert q.nextId item }.updateContainer c fun k =>
    { k with items := k.items ++ [q.nextId] }

theorem insertItem_query (q : Query) (c : ContainerId) (spec : ItemSpec) (uuid : Uuid) :
    (q.insertItem c spec uuid).2.query =
      if q.isAttached c then (q.putItem c spec uuid).attachItem q.nextId
      else q.putItem c spec uuid := by
  unfold insertItem putItem
  change (if q.isAttached c then _ else _ : Edit).query = _
  split <;> rfl

theorem addItem_ok {c : ContainerId} {spec : ItemSpec} {uuid : Uuid} {x : ItemId × Edit}
    (h : q.addItem c spec uuid = .ok x) :
    q.containers.contains c ∧ x = q.insertItem c spec uuid := by
  unfold addItem at h
  split at h
  · cases h
  · rename_i hknown
    cases h
    exact ⟨by simpa using hknown, rfl⟩

/-- The joins that compare an item. -/
def usersOf (q : Query) (c : ContainerId) (i : ItemId) : List JoinId :=
  (q.joinsOf c).filter fun j => (q.join? j).any (·.uses i)

/-- The query after an item was taken from its lists and its container. -/
def takeItem (q : Query) (c : ContainerId) (i : ItemId) : Query :=
  { q.updateContainer c fun k => { k with items := k.items.filter (· ≠ i) } with
    items := q.items.erase i }

/-- Only an unknown item cannot be removed. -/
theorem removeItem_of_item? {i : ItemId} {item : Item} (h : q.item? i = some item) :
    ∃ e, q.removeItem i = .ok (item, e) := by
  simp only [removeItem, h]
  exact ⟨_, rfl⟩

theorem removeItem_ok {i : ItemId} {x : Item × Edit} (h : q.removeItem i = .ok x) :
    q.item? i = some x.1 ∧
      x.2.query =
        takeItem (if q.isAttached x.1.container
          then (q.dropJoins (q.usersOf x.1.container i)).unlistItem i
          else q.dropJoins (q.usersOf x.1.container i)) x.1.container i := by
  unfold removeItem at h
  split at h
  · cases h
  · rename_i item hitem
    cases h
    refine ⟨hitem, ?_⟩
    -- The joins go first, then the item, if it is listed at all.
    simp only [Edit.query_update, takeItem]
    split <;>
      simp only [Edit.query_detachItem, Edit.query_each _ Edit.query_dropJoin, Edit.query_start,
        dropJoins, usersOf]

theorem moveItem_ok {i : ItemId} {index : Nat} (h : q.moveItem i index = .ok e) :
    i ∈ q.selected ∧ index < q.selected.length ∧
      e.query = { q with selected := (q.selected.erase i).insertIdx index i } := by
  unfold moveItem at h
  split at h
  · cases h
  · split at h
    · cases h
    · rename_i hmem hlen
      cases h
      exact ⟨by simpa using hmem, by omega, rfl⟩

theorem moveSortedItemToEnd_ok {i : ItemId} (h : q.moveSortedItemToEnd i = .ok e) :
    i ∈ q.sortList ∧ e.query = { q with sortList := q.sortList.erase i ++ [i] } := by
  unfold moveSortedItemToEnd at h
  split at h
  · cases h
  · rename_i hmem
    cases h
    exact ⟨by simpa using hmem, rfl⟩

theorem changeItem_ok {i : ItemId} {p : ItemProperty} {f : Item → Item}
    (h : q.changeItem i p f = .ok e) :
    ∃ item, q.item? i = some item ∧
      ((p.read item = p.read (f item) ∧ e.query = q) ∨
        (p.read item ≠ p.read (f item) ∧
          e.query = if q.isAttached item.container then p.follow (q.updateItem i f) i
            else q.updateItem i f)) := by
  unfold changeItem at h
  split at h
  · cases h
  · rename_i item hitem
    refine ⟨item, hitem, ?_⟩
    simp only at h
    split at h
    · rename_i heq
      cases h
      exact Or.inl ⟨heq, rfl⟩
    · rename_i hne
      cases h
      exact Or.inr ⟨hne, rfl⟩

theorem addJoin_ok {join : Join} {x : JoinId × Edit} (h : q.addJoin join = .ok x) :
    ∃ l r left right, q.item? join.left = some l ∧ q.item? join.right = some r ∧
      l.container ≠ r.container ∧
      q.inheritedOuter l.container = .ok left ∧ q.inheritedOuter r.container = .ok right ∧
      x.1 = q.nextId ∧
      x.2.query = q.putJoin l.container r.container
        (inherit (inherit join .left left) .right right) := by
  unfold addJoin at h
  split at h
  · cases h
  · cases h
  · rename_i l r hl hr
    simp only [bind, Except.bind] at h
    split at h
    · cases h
    · rename_i hne
      -- Both flags are read before the join is made, and either reading may refuse it.
      cases hleft : q.inheritedOuter l.container with
      | error err => simp [hleft] at h
      | ok left =>
        cases hright : q.inheritedOuter r.container with
        | error err => simp [hleft, hright] at h
        | ok right =>
          simp only [hleft, hright] at h
          cases h
          exact ⟨l, r, left, right, hl, hr, by simpa using hne, hleft, hright, rfl, rfl⟩

theorem removeJoin_ok {j : JoinId} {x : Join × Edit} (h : q.removeJoin j = .ok x) :
    q.join? j = some x.1 ∧ x.2.query = q.dropJoin j := by
  unfold removeJoin at h
  split at h
  · cases h
  · rename_i join hjoin
    split at h
    · cases h
    · cases h
      exact ⟨hjoin, Edit.query_dropJoin _ _⟩

theorem setOuter_ok {j : JoinId} {side : Side} {outer : Bool}
    (h : q.setOuter j side outer = .ok e) :
    ∃ join item changes, q.join? j = some join ∧ q.item? (join.column side) = some item ∧
      q.differingJoins item.container outer = .ok changes ∧
      e.query = changes.foldl (·.setFlag outer) q := by
  unfold setOuter at h
  split at h
  · cases h
  · rename_i join hjoin
    split at h
    · cases h
    · rename_i item hitem
      simp only [bind, Except.bind] at h
      cases hch : q.differingJoins item.container outer with
      | error err => simp [hch] at h
      | ok changes =>
        simp only [hch] at h
        cases h
        refine ⟨join, item, changes, hjoin, hitem, hch, ?_⟩
        rw [Edit.query_each (f := (·.setFlag outer)) _ (Edit.query_flipOuter · outer),
          Edit.query_start]

theorem setComparator_ok {j : JoinId} {comparator : String}
    (h : q.setComparator j comparator = .ok e) :
    ∃ join, q.join? j = some join ∧
      ((join.comparator = comparator ∧ e.query = q) ∨
        (join.comparator ≠ comparator ∧ e.query = q.updateJoin j ({ · with comparator }))) := by
  unfold setComparator at h
  split at h
  · cases h
  · rename_i join hjoin
    refine ⟨join, hjoin, ?_⟩
    split at h
    · rename_i heq
      cases h
      exact Or.inl ⟨heq, rfl⟩
    · rename_i hne
      cases h
      exact Or.inr ⟨hne, rfl⟩

/-- Turning grouping on counts the selected columns; else only the flag changes. -/
theorem setGrouping_query (q : Query) (enabled : Bool) :
    (q.setGrouping enabled).query =
      if q.grouping = enabled then q
      else if enabled then
        { q.uncountedColumns.foldl countItem { q with canExecute := false } with
          canExecute := true
          grouping := enabled }
      else { q with grouping := enabled } := by
  unfold setGrouping
  simp only
  split
  · rfl
  · cases enabled with
    | true =>
      simp only [if_true, Edit.query_announce, Edit.query_update, Edit.query_setCanExecute,
        Edit.query_each _ Edit.query_countColumn, startCompound, Edit.query_start]
    | false => rfl

theorem setGlobalFilter_query (q : Query) (condition : Option String) :
    (q.setGlobalFilter condition).query = { q with globalFilter := condition } := by
  unfold setGlobalFilter
  split
  · rename_i heq
    subst heq
    rfl
  · rfl

theorem removeHandWritten_query (q : Query) :
    q.removeHandWritten.query = { q with handWritten := none } := by
  unfold removeHandWritten
  cases q with
  | mk => split <;> simp_all

theorem defineHandWritten_query (q : Query) (text : String) :
    (q.defineHandWritten text).query =
      { q with handWritten := if q.text = text then q.handWritten else some text } := by
  unfold defineHandWritten
  split <;> rfl

end Query

/-! ## Outcomes -/

namespace Outcome

variable {reply : Reply} {e : Edit}

theorem ofEdit_ok {x : Except QueryError Edit} (h : ofEdit x = .ok (reply, e)) :
    reply = .done ∧ x = .ok e := by
  cases x with
  | error err => cases h
  | ok e' =>
    cases h
    exact ⟨rfl, rfl⟩

theorem map_ok {α : Type} {x : Except QueryError (α × Edit)} {f : α → Reply}
    (h : (x.map fun a => (f a.1, a.2)) = .ok (reply, e)) :
    ∃ a, x = .ok a ∧ reply = f a.1 ∧ e = a.2 := by
  cases x with
  | error err => cases h
  | ok a =>
    cases h
    exact ⟨a, rfl, rfl, rfl⟩

end Outcome

end LiveSelect
