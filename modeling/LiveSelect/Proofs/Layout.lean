import Mathlib.Data.List.Induction
import LiveSelect.Proofs.Copies
import LiveSelect.Proofs.References

/-! # Laying out a document

The tables of a document are made first, one after the other, each with its columns and then
put into the statement; after that the constants are looked up or made. The invariant of the
first loop says which numbers the tables made so far have, what is in them, and that everything
made before is as it was; so no step of the loop is refused, as the number that is handed out
next is never in use. -/

namespace LiveSelect

open Query

/-- What an item has when it is made of a column. -/
def ColumnDefinition.made (k : ColumnDefinition) (kind : ItemKind) : ItemSpec :=
  { name := k.name, kind, rowIdentifier := k.rowIdentifier }

/-- What identifies a table of a document. -/
def TableDefinition.identity (t : TableDefinition) : TableIdentity :=
  { catalog := t.catalog, schema := t.schema, name := t.name }

namespace Query

variable {q q' : Query}

/-- An item of a container and what it has. -/
def HasItem (q : Query) (c : ContainerId) (spec : ItemSpec) (i : ItemId) : Prop :=
  ∃ uuid, q.item? i = some { spec with container := c, uuid }

/-- The container of a table of a document and the items in it. -/
def HasTable (q : Query) (t : TableDefinition) (items : List ItemId) (c : ContainerId) : Prop :=
  ∃ uuid, q.container? c =
    some { name := t.name, aliasName := t.aliasName, kind := .table t.identity, items, uuid }

theorem HasItem.home? {c : ContainerId} {spec : ItemSpec} {i : ItemId} (h : q.HasItem c spec i) :
    q.home? i = some c := by
  obtain ⟨uuid, hitem⟩ := h
  exact home?_of_item? hitem

theorem HasItem.itemHas {c : ContainerId} {spec : ItemSpec} {i : ItemId} (h : q.HasItem c spec i)
    {p : Item → Bool} {b : Bool} (hp : ∀ uuid, p { spec with container := c, uuid } = b) :
    q.itemHas p i = b := by
  obtain ⟨uuid, hitem⟩ := h
  rw [itemHas_of_item? hitem, hp]

theorem HasTable.itemsOf {t : TableDefinition} {items : List ItemId} {c : ContainerId}
    (h : q.HasTable t items c) : q.itemsOf c = items := by
  obtain ⟨uuid, hc⟩ := h
  rw [Query.itemsOf, hc, Option.map_some, Option.getD_some]

theorem container?_putItem (c : ContainerId) (spec : ItemSpec) (uuid : Uuid) (k : ContainerId) :
    (q.putItem c spec uuid).container? k =
      if k = c then (q.container? k).map fun x => { x with items := x.items ++ [q.nextId] }
      else q.container? k :=
  IdMap.get?_modify _ _ _ _

/-- A new item in a container changes no other container. -/
theorem item?_putItem_of_known (h : q.Numbered) (hq : q.count < UInt32.size) (c : ContainerId)
    (spec : ItemSpec) (uuid : Uuid) {i : ItemId} {x : Item} (hx : q.item? i = some x) :
    (q.putItem c spec uuid).item? i = some x := by
  rw [item?_putItem, if_neg, hx]
  exact h.ne_nextId hq (e := .item) (IdMap.contains_of_get? hx)

/-- The first item with a name stays the first when another item is put behind it. -/
theorem findItem?_putItem (h : q.WellFormed) (hq : q.count < UInt32.size) {c : ContainerId}
    (hc : q.containers.contains c) (spec : ItemSpec) (uuid : Uuid) (name : String) :
    (q.putItem c spec uuid).findItem? c name =
      (q.findItem? c name).or (if spec.name = name then some q.nextId else none) := by
  have hold : (q.itemsOf c).filter
      (fun i => ((q.putItem c spec uuid).item? i).any (·.name = name)) =
        (q.itemsOf c).filter fun i => (q.item? i).any (·.name = name) := by
    refine List.filter_congr fun i hi => ?_
    obtain ⟨x, hx, -⟩ := h.owned.item?_of_mem hi
    rw [item?_putItem_of_known h.numbered hq c spec uuid hx, hx]
  have hnew : [(q.nextId : ItemId)].find?
      (fun i => ((q.putItem c spec uuid).item? i).any (·.name = name)) =
        if spec.name = name then some q.nextId else none := by
    rw [List.find?_singleton, item?_putItem, if_pos rfl, Option.any_some]
    simp
  rw [findItem?, itemsOf_putItem hc, if_pos rfl, List.find?_append, hnew, findItem?,
    ← List.head?_filter, hold, List.head?_filter]

/-- The name of a query, its hand-written text and its settings. -/
def heading (q : Query) : Option String × Option String × QuerySettings :=
  (q.name, q.handWritten,
    { rowLimit := q.rowLimit, streamingRowLimit := q.streamingRowLimit
      streaming := q.streaming, dialect := q.dialect })

/-- Everything that the first query knows is in the second one as it was. -/
structure Grows (q q' : Query) : Prop where
  item : ∀ i x, q.item? i = some x → q'.item? i = some x
  container : ∀ c k, q.container? c = some k → q'.container? c = some k
  rest : ∃ items containers tables count, q' = { q with items, containers, tables, count }

namespace Grows

theorem refl (q : Query) : q.Grows q :=
  ⟨fun _ _ => id, fun _ _ => id, q.items, q.containers, q.tables, q.count, rfl⟩

theorem trans {q'' : Query} (h : q.Grows q') (h' : q'.Grows q'') : q.Grows q'' := by
  refine ⟨fun i x hx => h'.item i x (h.item i x hx), fun c k hk => h'.container c k
    (h.container c k hk), ?_⟩
  obtain ⟨_, _, _, _, rfl⟩ := h.rest
  obtain ⟨items, containers, tables, count, rfl⟩ := h'.rest
  exact ⟨items, containers, tables, count, rfl⟩

theorem hasItem (h : q.Grows q') {c : ContainerId} {spec : ItemSpec} {i : ItemId}
    (hi : q.HasItem c spec i) : q'.HasItem c spec i := by
  obtain ⟨uuid, hitem⟩ := hi
  exact ⟨uuid, h.item i _ hitem⟩

theorem hasTable (h : q.Grows q') {t : TableDefinition} {items : List ItemId} {c : ContainerId}
    (hc : q.HasTable t items c) : q'.HasTable t items c := by
  obtain ⟨uuid, hk⟩ := hc
  exact ⟨uuid, h.container c _ hk⟩

end Grows

end Query

namespace QueryDefinition

/-- A loop whose steps go through as long as an invariant of the members done so far holds, goes
through, and leaves the invariant of all members. -/
theorem foldlM_runs {α β : Type} {P : List α → β → Prop} {f : β → α → Except DefinitionError β}
    {xs : List α} {b : β} (hb : P [] b)
    (hf : ∀ done x rest b, xs = done ++ x :: rest → P done b →
      ∃ b', f b x = .ok b' ∧ P (done ++ [x]) b') :
    ∃ b', xs.foldlM f b = .ok b' ∧ P xs b' := by
  induction xs using List.reverseRecOn with
  | nil => exact ⟨b, rfl, hb⟩
  | append_singleton done x ih =>
    obtain ⟨b₁, hrun, hdone⟩ := ih fun done' y rest b hsplit =>
      hf done' y (rest ++ [x]) b (by rw [hsplit, List.append_assoc, List.cons_append])
    obtain ⟨b', hstep, hlast⟩ := hf done x [] b₁ rfl hdone
    refine ⟨b', ?_, hlast⟩
    rw [List.foldlM_append, bind_of_ok hrun, List.foldlM_cons, bind_of_ok hstep]
    rfl

/-- The members of a list with one more at its end. -/
theorem getElem?_concat_eq_some {α : Type} {xs : List α} {x y : α} {i : Nat} :
    (xs ++ [x])[i]? = some y ↔ xs[i]? = some y ∨ (i = xs.length ∧ y = x) := by
  rw [List.getElem?_append]
  split
  · rename_i hlt
    exact ⟨Or.inl, fun hor => hor.resolve_right fun heq => by omega⟩
  · rename_i hle
    rw [List.getElem?_eq_none (Nat.le_of_not_lt hle)]
    rcases Nat.eq_or_lt_of_le (Nat.le_of_not_lt hle) with rfl | hlt
    · simp [eq_comm]
    · have hne : i ≠ xs.length := by omega
      simp [hne, List.getElem?_eq_none (show [x].length ≤ i - xs.length by simp; omega)]

variable (D : QueryDefinition)

/-- The container of the table at a position. -/
def tableId (n : Nat) : ContainerId := .ofCount (D.tableNumber n)

/-- The columns of a table with the items that are made of them. -/
def columnsAt (n : Nat) (t : TableDefinition) : List (ItemId × ColumnDefinition) :=
  t.columns.mapIdx fun k column => (D.columnId ⟨n, k⟩, column)

theorem tableNumber_succ {n : Nat} {t : TableDefinition} (h : D.tables[n]? = some t) :
    D.tableNumber (n + 1) = D.tableNumber n + t.size := by
  simp [tableNumber, List.take_add_one, h]
  omega

theorem length_addName (names : List String) (k : ColumnDefinition) :
    names.length ≤ (addName names k).length := by
  unfold addName
  split
  · exact Nat.le_refl _
  · simp

theorem length_foldl_addName (ks : List ColumnDefinition) (names : List String) :
    names.length ≤ (ks.foldl addName names).length := by
  induction ks generalizing names with
  | nil => exact Nat.le_refl _
  | cons k rest ih => exact Nat.le_trans (length_addName names k) (ih _)

theorem tableNumber_le (n : Nat) : D.tableNumber n ≤ D.size := by
  have htables : ((D.tables.take n).map TableDefinition.size).sum ≤
      (D.tables.map TableDefinition.size).sum := by
    have hsplit := congrArg (fun ts => (ts.map TableDefinition.size).sum)
      (List.take_append_drop n D.tables)
    simp only [List.map_append, List.sum_append] at hsplit
    omega
  have hconstants := length_foldl_addName D.constants builtinConstants
  unfold tableNumber size constantNames
  omega

/-- A table and its columns have numbers below the size of the document. -/
theorem tableNumber_add_le {n : Nat} {t : TableDefinition} (h : D.tables[n]? = some t) :
    D.tableNumber n + t.size ≤ D.size :=
  D.tableNumber_succ h ▸ D.tableNumber_le (n + 1)

/-! ## Columns -/

variable {D} {mint : Minting} {d d' : Draft} {n : Nat}

/-- An item without properties is put into its container and nothing else. -/
theorem insertItem_made {q : Query} (h : q.WellFormed) (hq : q.count < UInt32.size)
    (c : ContainerId) (column : ColumnDefinition) (kind : ItemKind) (uuid : Uuid) :
    (q.insertItem c (column.made kind) uuid).2.query = q.putItem c (column.made kind) uuid := by
  have hunlisted : ∀ p l, q.Lists p l → (q.nextId : ItemId) ∉ l := by
    intro p l hl hmem
    obtain ⟨item, hitem, -⟩ := (hl.mem _).1 hmem
    rw [h.numbered.item?_nextId hq] at hitem
    cases hitem
  let q₁ := q.putItem c (column.made kind) uuid
  have hitem : q₁.item? q.nextId = some { column.made kind with container := c, uuid } := by
    rw [item?_putItem, if_pos rfl]
  have hselected : q.nextId ∉ q₁.selected := hunlisted _ _ h.listed.selected
  have hsorted : q.nextId ∉ q₁.sortList := hunlisted _ _ h.listed.sortList
  have hplain : ∀ p : Item → Bool, p { column.made kind with container := c, uuid } = false →
      [q.nextId].filter (q₁.itemHas p) = [] := by
    intro p hp
    rw [List.filter_singleton, itemHas_of_item? hitem, hp]
    rfl
  rw [insertItem_query]
  split
  · rw [attachItem_eq hselected hsorted, hplain _ rfl, hplain _ rfl, List.append_nil,
      List.append_nil]
  · rfl

/-- Making an item in a known container is not refused. -/
theorem addColumn_ok (h : d.query.WellFormed) (hq : d.query.count < UInt32.size) {c : ContainerId}
    (hc : d.query.containers.contains c) (kind : ItemKind) (column : ColumnDefinition) :
    d.addColumn mint c kind column =
      .ok ⟨d.query.putItem c (column.made kind) (mint d.query.count),
        d.columns ++ [(d.query.nextId, column)]⟩ := by
  have hadd : d.query.addItem c
      { name := column.name, kind, rowIdentifier := column.rowIdentifier } (mint d.query.count) =
        .ok (d.query.nextId,
          (d.query.insertItem c (column.made kind) (mint d.query.count)).2) := by
    rw [addItem, hc]
    rfl
  unfold Draft.addColumn
  simp only [hadd]
  rw [insertItem_made h hq]

theorem wellFormed_putItem {q : Query} (h : q.WellFormed) (hq : q.count < UInt32.size)
    {c : ContainerId} (hc : q.containers.contains c) (column : ColumnDefinition) (kind : ItemKind)
    (uuid : Uuid) : (q.putItem c (column.made kind) uuid).WellFormed :=
  insertItem_made h hq c column kind uuid ▸ h.insertItem hq hc _ uuid

/-- What a draft `d` has made of a table by the time some of its columns are done: the table has
been made from the draft `before`, and its container `k` has an item for each column. -/
structure ColumnsMade (D : QueryDefinition) (before : Draft) (n : Nat) (k : Container)
    (done : List ColumnDefinition) (d : Draft) : Prop where
  wellFormed : d.query.WellFormed
  grows : before.query.Grows d.query
  tables : d.query.tables = before.query.tables
  count : d.query.count = D.tableNumber n + 1 + done.length
  container : d.query.container? (D.tableId n) =
    some { k with items := done.mapIdx fun i _ => D.columnId ⟨n, i⟩ }
  items : ∀ i column, done[i]? = some column →
    d.query.HasItem (D.tableId n) (column.made column.kind) (D.columnId ⟨n, i⟩)
  columns : d.columns =
    before.columns ++ done.mapIdx fun i column => (D.columnId ⟨n, i⟩, column)

theorem ColumnsMade.addColumn {before : Draft} {k : Container} {done : List ColumnDefinition}
    (h : ColumnsMade D before n k done d) (hnew : ¬ before.query.containers.contains (D.tableId n))
    (hcount : D.tableNumber n + 1 + done.length < UInt32.size) (column : ColumnDefinition) :
    ∃ d', d.addColumn mint (D.tableId n) column.kind column = .ok d' ∧
      ColumnsMade D before n k (done ++ [column]) d' := by
  have hq : d.query.count < UInt32.size := h.count ▸ hcount
  have hknown : d.query.containers.contains (D.tableId n) := IdMap.contains_of_get? h.container
  have hnext : (d.query.nextId : ItemId) = D.columnId ⟨n, done.length⟩ :=
    congrArg Id.ofCount h.count
  have hitem : ∀ i x, d.query.item? i = some x →
      (d.query.putItem (D.tableId n) (column.made column.kind) (mint d.query.count)).item? i =
        some x :=
    fun i x hx => item?_putItem_of_known h.wellFormed.numbered hq _ _ _ hx
  refine ⟨_, addColumn_ok h.wellFormed hq hknown column.kind column,
    wellFormed_putItem h.wellFormed hq hknown column column.kind _, ⟨?_, ?_, ?_⟩, h.tables, ?_, ?_,
    ?_, ?_⟩
  · exact fun i x hx => hitem i x (h.grows.item i x hx)
  · intro c x hx
    have hne : c ≠ D.tableId n := by
      rintro rfl
      exact hnew (IdMap.contains_of_get? hx)
    rw [container?_putItem, if_neg hne]
    exact h.grows.container c x hx
  · obtain ⟨_, _, _, _, hrest⟩ := h.grows.rest
    rw [hrest]
    exact ⟨_, _, _, _, rfl⟩
  · change d.query.count + 1 = _
    rw [h.count, List.length_append, List.length_singleton]
    rfl
  · rw [container?_putItem, if_pos rfl, h.container, List.mapIdx_concat, hnext]
    rfl
  · intro i k hk
    rcases getElem?_concat_eq_some.1 hk with hk | ⟨rfl, rfl⟩
    · obtain ⟨uuid, hold⟩ := h.items i k hk
      exact ⟨uuid, hitem _ _ hold⟩
    · refine ⟨mint d.query.count, ?_⟩
      rw [item?_putItem, ← hnext, if_pos rfl]
  · rw [List.mapIdx_concat, hnext, h.columns, List.append_assoc]

theorem ColumnsMade.addColumns {before : Draft} {k : Container} (mint : Minting)
    {t : TableDefinition} (h : ColumnsMade D before n k [] d)
    (hnew : ¬ before.query.containers.contains (D.tableId n))
    (hcount : D.tableNumber n + t.size < UInt32.size) :
    ∃ d', t.columns.foldlM (fun d column => d.addColumn mint (D.tableId n) column.kind column) d =
      .ok d' ∧ ColumnsMade D before n k t.columns d' := by
  refine foldlM_runs h fun done column rest d hsplit hdone => hdone.addColumn hnew ?_ column
  have hlength := congrArg List.length hsplit
  simp only [List.length_append, List.length_cons] at hlength
  unfold TableDefinition.size at hcount
  omega

/-! ## Tables -/

/-- The query has the table at a position with its columns, and `spec` says what their items
have. -/
structure Holds (D : QueryDefinition) (q : Query) (spec : ColumnDefinition → ItemSpec) (n : Nat)
    (t : TableDefinition) : Prop where
  table : q.HasTable t (t.columns.mapIdx fun k _ => D.columnId ⟨n, k⟩) (D.tableId n)
  items : ∀ k column, t.columns[k]? = some column →
    q.HasItem (D.tableId n) (spec column) (D.columnId ⟨n, k⟩)

theorem Holds.grow {q q' : Query} {spec : ColumnDefinition → ItemSpec} {t : TableDefinition}
    (h : D.Holds q spec n t) (hgrows : q.Grows q') : D.Holds q' spec n t :=
  ⟨hgrows.hasTable h.table, fun k column hk => hgrows.hasItem (h.items k column hk)⟩

/-- What a draft has by the time some of the tables are done, when it started from a query
without tables. -/
structure TablesMade (D : QueryDefinition) (start : Query) (done : List TableDefinition)
    (d : Draft) : Prop where
  wellFormed : d.query.WellFormed
  grows : start.Grows d.query
  count : d.query.count = D.tableNumber done.length
  tables : d.query.tables = done.mapIdx fun n _ => D.tableId n
  held : ∀ n t, done[n]? = some t → D.Holds d.query (fun k => k.made k.kind) n t
  columns : d.columns = (done.mapIdx D.columnsAt).flatten

/-- The steps of making a table, when none of them is refused. -/
theorem addTable_of_steps {t : TableDefinition} {q₁ q₂ : Query} {d₁ : Draft}
    (hnamed : accept ((d.query.newTable t.identity (mint d.query.count)).2.setContainerAlias
      d.query.nextId t.aliasName) = .ok q₁)
    (hcolumns : t.columns.foldlM
      (fun d' column => d'.addColumn mint d.query.nextId column.kind column)
      { d with query := q₁ } = .ok d₁)
    (hadded : accept (d₁.query.addTable d.query.nextId) = .ok q₂) :
    d.addTable mint t = .ok { d₁ with query := q₂ } := by
  exact (bind_of_ok hnamed _).trans ((bind_of_ok hcolumns _).trans (bind_of_ok hadded _))

/-- A detached container whose items carry no flag is put into the statement and nothing else. -/
theorem accept_addTable {q : Query} (h : q.WellFormed) {c : ContainerId}
    (hknown : q.containers.contains c) (hdetached : ¬ q.isAttached c)
    (hplain : ∀ i ∈ q.itemsOf c,
      q.itemHas (·.selected) i = false ∧ q.itemHas Item.isSorted i = false) :
    accept (q.addTable c) = .ok { q with tables := q.tables ++ [c] } ∧
      WellFormed { q with tables := q.tables ++ [c] } := by
  have hconst : c ≠ q.constants := fun heq => hdetached ((q.isAttached_iff c).2 (Or.inl heq))
  have htable : c ∉ q.tables := fun hmem => hdetached ((q.isAttached_iff c).2 (Or.inr hmem))
  have hquery : (q.itemsOf c).foldl attachItem { q with tables := q.tables ++ [c] } =
      { q with tables := q.tables ++ [c] } := by
    have hselected : (q.itemsOf c).filter (q.itemHas (·.selected)) = [] :=
      List.filter_eq_nil_iff.2 fun i hi => by simp [(hplain i hi).1]
    have hsorted : (q.itemsOf c).filter (q.itemHas Item.isSorted) = [] :=
      List.filter_eq_nil_iff.2 fun i hi => by simp [(hplain i hi).2]
    rw [h.addTable_query hdetached, hselected, hsorted, List.append_nil, List.append_nil]
  refine ⟨?_, hquery ▸ h.addTable hknown hconst htable⟩
  rw [← hquery]
  unfold Query.addTable
  rw [hknown, if_neg (by simp), if_neg hconst, if_neg (by simpa using htable)]
  exact congrArg Except.ok (Edit.query_each _ Edit.query_attachItem _)

/-- A table is made and named; it has no columns yet. -/
theorem newTable_named (mint : Minting) (hw : d.query.WellFormed)
    (hq : d.query.count < UInt32.size) (hcount : d.query.count = D.tableNumber n)
    (t : TableDefinition) :
    ∃ q uuid, accept ((d.query.newTable t.identity (mint d.query.count)).2.setContainerAlias
        d.query.nextId t.aliasName) = .ok q ∧
      ColumnsMade D d n
        { name := t.name, aliasName := t.aliasName, kind := .table t.identity, uuid } []
        { d with query := q } := by
  have hnext : (d.query.nextId : ContainerId) = D.tableId n := congrArg Id.ofCount hcount
  have hnew : ¬ d.query.containers.contains (D.tableId n) :=
    hnext ▸ hw.numbered.fresh hq (e := .container)
  let q₁ := (d.query.newTable t.identity (mint d.query.count)).2
  let q₂ := q₁.updateContainer d.query.nextId ({ · with aliasName := t.aliasName })
  have hmade : q₁.container? d.query.nextId = some (.ofTable t.identity (mint d.query.count)) := by
    rw [container?]
    exact (IdMap.get?_insert _ _ _ _).trans (if_pos rfl)
  have hnamed : accept (q₁.setContainerAlias d.query.nextId t.aliasName) = .ok q₂ := by
    rw [setContainerAlias, IdMap.contains_of_get? hmade]
    rfl
  refine ⟨q₂, mint d.query.count, hnamed, ?_, ⟨fun _ _ => id, fun c x hx => ?_, _, _, _, _, rfl⟩,
    rfl, congrArg (· + 1) hcount, ?_, fun _ _ hk => by simp at hk, (List.append_nil _).symm⟩
  · exact (hw.newTable hq _ _).updateContainer _ fun _ => ⟨rfl, rfl⟩
  · have hne : c ≠ d.query.nextId := by
      rw [hnext]
      rintro rfl
      exact hnew (IdMap.contains_of_get? hx)
    refine (IdMap.get?_modify _ _ _ _).trans ?_
    rw [if_neg hne]
    refine (IdMap.get?_insert _ _ _ _).trans ?_
    rw [if_neg hne]
    exact hx
  · rw [← hnext]
    refine (IdMap.get?_modify _ _ _ _).trans ?_
    rw [if_pos rfl]
    exact congrArg (Option.map _) hmade

theorem TablesMade.addTable {start : Query} {done : List TableDefinition} {t : TableDefinition}
    (h : TablesMade D start done d) (ht : D.tables[done.length]? = some t)
    (hsize : D.size < UInt32.size) :
    ∃ d', d.addTable mint t = .ok d' ∧ TablesMade D start (done ++ [t]) d' := by
  have hbound := D.tableNumber_add_le ht
  have hq : d.query.count < UInt32.size := by
    have := D.tableNumber_le done.length
    have := h.count
    omega
  have hnext : (d.query.nextId : ContainerId) = D.tableId done.length :=
    congrArg Id.ofCount h.count
  have hnew : ¬ d.query.containers.contains (D.tableId done.length) :=
    hnext ▸ h.wellFormed.numbered.fresh hq (e := .container)
  obtain ⟨q, uuid, hnamed, hstart⟩ := newTable_named mint h.wellFormed hq h.count t
  -- It gets its columns.
  obtain ⟨d₁, hcolumns, hlaid⟩ := hstart.addColumns mint hnew (t := t) (by omega)
  have hgrown := hlaid.grows
  have hheld : D.Holds d₁.query (fun k => k.made k.kind) done.length t :=
    ⟨⟨_, hlaid.container⟩, hlaid.items⟩
  -- It is put into the statement.
  have hdetached : ¬ d₁.query.isAttached (D.tableId done.length) := by
    obtain ⟨_, _, _, _, hrest⟩ := hgrown.rest
    have hconst : d₁.query.constants = d.query.constants := by rw [hrest]
    rw [isAttached_iff, hconst, hlaid.tables]
    rintro (heq | hmem)
    · exact hnew (heq ▸ h.wellFormed.owned.knows_constants)
    · exact hnew (h.wellFormed.owned.knows_tables _ hmem)
  have hplain : ∀ i ∈ d₁.query.itemsOf (D.tableId done.length),
      d₁.query.itemHas (·.selected) i = false ∧ d₁.query.itemHas Item.isSorted i = false := by
    intro i hi
    rw [hheld.table.itemsOf] at hi
    obtain ⟨k, hk, rfl⟩ := List.mem_mapIdx.1 hi
    have hitem := hheld.items k _ (List.getElem?_eq_getElem hk)
    exact ⟨hitem.itemHas fun _ => rfl, hitem.itemHas fun _ => rfl⟩
  obtain ⟨hadded, hw₁⟩ := accept_addTable hlaid.wellFormed
    (IdMap.contains_of_get? hlaid.container) hdetached hplain
  have hlast : d₁.query.Grows { d₁.query with tables := d₁.query.tables ++ [d.query.nextId] } :=
    ⟨fun _ _ => id, fun _ _ => id, _, _, _, _, rfl⟩
  rw [← hnext] at hcolumns hadded
  refine ⟨_, addTable_of_steps hnamed hcolumns hadded, hnext ▸ hw₁, ?_, ?_, ?_, ?_, ?_⟩
  · exact h.grows.trans (hgrown.trans hlast)
  · have hcount := hlaid.count
    have hsucc := D.tableNumber_succ ht
    rw [List.length_append, List.length_singleton, hsucc, TableDefinition.size, ← Nat.add_assoc]
    exact hcount
  · rw [List.mapIdx_concat, ← h.tables, ← hlaid.tables, hnext]
  · intro n t' hn
    rcases getElem?_concat_eq_some.1 hn with hn | ⟨rfl, rfl⟩
    · exact (h.held n t' hn).grow (hgrown.trans hlast)
    · exact hheld.grow hlast
  · rw [List.mapIdx_concat, List.flatten_concat, ← h.columns]
    exact hlaid.columns

/-- All tables of a document are made. -/
theorem TablesMade.addTables {start : Query} (mint : Minting) (h : TablesMade D start [] d)
    (hsize : D.size < UInt32.size) :
    ∃ d', D.tables.foldlM (Draft.addTable mint) d = .ok d' ∧ TablesMade D start D.tables d' := by
  refine foldlM_runs h fun done t rest d hsplit hdone => hdone.addTable ?_ hsize
  rw [hsplit, List.getElem?_append_right (Nat.le_refl _), Nat.sub_self]
  rfl

/-! ## Constants -/

end QueryDefinition

namespace Query

variable {q : Query} {names : List String}

/-- A constant with a name and no properties. Those that every query has identify no rows. -/
def IsConstant (q : Query) (name : String) (i : ItemId) : Prop :=
  ∃ row, q.HasItem q.constants { name, kind := .constant, rowIdentifier := row } i ∧
    (name ∈ builtinConstants → row = false)

/-- The constants of a query have these names, in this order, and no properties. -/
def HasConstants (q : Query) (names : List String) : Prop :=
  List.Forall₂ q.IsConstant names (q.itemsOf q.constants)

theorem IsConstant.named {name name' : String} {i : ItemId} (h : q.IsConstant name i) :
    (q.item? i).any (·.name = name') = decide (name = name') := by
  obtain ⟨row, ⟨uuid, hitem⟩, -⟩ := h
  rw [hitem, Option.any_some]

theorem IsConstant.name_unique {name name' : String} {i : ItemId} (h : q.IsConstant name i)
    (h' : q.IsConstant name' i) : name = name' := by
  have hnamed : (q.item? i).any (·.name = name') = decide (name = name') := h.named
  rw [h'.named, decide_eq_true rfl] at hnamed
  exact of_decide_eq_true hnamed.symm

namespace HasConstants

theorem congr {q' : Query} (h : q.HasConstants names) (hitems : q'.items = q.items)
    (hcontainers : q'.containers = q.containers) (hconst : q'.constants = q.constants) :
    q'.HasConstants names := by
  unfold HasConstants IsConstant HasItem itemsOf item? container? at h ⊢
  rw [hitems, hcontainers, hconst]
  exact h

/-- A constant is found by its name just if there is one with this name. -/
theorem findItem?_eq_none_iff (h : q.HasConstants names) {name : String} :
    q.findItem? q.constants name = none ↔ name ∉ names := by
  rw [findItem?, List.find?_eq_none]
  constructor
  · intro hnone hmem
    obtain ⟨i, hi, hconst⟩ : ∃ i ∈ q.itemsOf q.constants, q.IsConstant name i :=
      exists_of_mem h.flip hmem
    exact hnone i hi (by rw [hconst.named, decide_eq_true rfl])
  · intro hno i hi hfound
    obtain ⟨name', hmem, hconst⟩ := exists_of_mem h hi
    rw [hconst.named, decide_eq_true_eq] at hfound
    exact hno (hfound ▸ hmem)

theorem isConstant_of_findItem? (h : q.HasConstants names) {name : String} {i : ItemId}
    (hi : q.findItem? q.constants name = some i) : q.IsConstant name i := by
  obtain ⟨name', -, hconst⟩ := exists_of_mem h (List.mem_of_find?_eq_some hi)
  have hnamed := List.find?_some hi
  rw [hconst.named, decide_eq_true_eq] at hnamed
  exact hnamed ▸ hconst

/-- A new constant comes to the end. -/
theorem putItem (h : q.HasConstants names) (hw : q.WellFormed) (hq : q.count < UInt32.size)
    (column : ColumnDefinition)
    (hrow : column.name ∈ builtinConstants → column.rowIdentifier = false)
    (uuid : Uuid) :
    (q.putItem q.constants (column.made .constant) uuid).HasConstants (names ++ [column.name]) := by
  have hitems := itemsOf_putItem hw.owned.knows_constants (column.made .constant) uuid q.constants
  rw [if_pos rfl] at hitems
  unfold HasConstants
  change List.Forall₂ _ _ ((q.putItem q.constants (column.made .constant) uuid).itemsOf q.constants)
  rw [hitems]
  refine List.rel_append (h.imp ?_) (.cons ?_ .nil)
  · rintro name i ⟨row, ⟨uuid', hitem⟩, hbuiltin⟩
    exact ⟨row, ⟨uuid', item?_putItem_of_known hw.numbered hq _ _ _ hitem⟩, hbuiltin⟩
  · exact ⟨column.rowIdentifier, ⟨uuid, by rw [item?_putItem, if_pos rfl]; rfl⟩, hrow⟩

end HasConstants

end Query

namespace QueryDefinition

variable {D : QueryDefinition} {mint : Minting} {laid d : Draft} {done : List ColumnDefinition}

/-- An item is the first constant of the name that an entry lists. Unless the document lists a
name twice, it has what was made of the entry; a constant of every query identifies no rows. -/
def LookedUp (D : QueryDefinition) (q : Query) (x : ItemId × ColumnDefinition) : Prop :=
  q.findItem? q.constants x.2.name = some x.1 ∧
    ((D.constants.map (·.name)).Nodup → q.HasItem q.constants
      { x.2.made .constant with
        rowIdentifier := x.2.rowIdentifier && x.2.name ∉ builtinConstants } x.1)

/-- What a draft has by the time some of the constants are done, when it started from a draft
with the tables. -/
structure ConstantsMade (D : QueryDefinition) (laid : Draft) (done : List ColumnDefinition)
    (d : Draft) : Prop where
  wellFormed : d.query.WellFormed
  items : ∀ i x, laid.query.item? i = some x → d.query.item? i = some x
  containers : ∀ c, c ≠ laid.query.constants → d.query.container? c = laid.query.container? c
  rest : ∃ items containers count, d.query = { laid.query with items, containers, count }
  count : d.query.count + builtinConstants.length =
    D.tableNumber D.tables.length + (done.foldl addName builtinConstants).length
  constants : d.query.HasConstants (done.foldl addName builtinConstants)
  columns : ∃ made : List (ItemId × ColumnDefinition), d.columns = laid.columns ++ made ∧
    made.map Prod.snd = done ∧ ∀ x ∈ made, D.LookedUp d.query x

theorem mem_foldl_addName {ks : List ColumnDefinition} {names : List String} {name : String} :
    name ∈ ks.foldl addName names ↔ name ∈ names ∨ name ∈ ks.map (·.name) := by
  induction ks generalizing names with
  | nil => simp
  | cons k rest ih =>
    rw [List.foldl_cons, ih, addName]
    split
    · rename_i hmem
      simp only [List.map_cons, List.mem_cons]
      constructor
      · rintro (h | h)
        · exact Or.inl h
        · exact Or.inr (Or.inr h)
      · rintro (h | rfl | h)
        · exact Or.inl h
        · exact Or.inl hmem
        · exact Or.inr h
    · simp [or_assoc]

/-- A constant that exists is looked up. -/
theorem ConstantsMade.find {k : ColumnDefinition} {rest : List ColumnDefinition}
    (h : ConstantsMade D laid done d) (hsplit : D.constants = done ++ k :: rest) {i : ItemId}
    (hfound : d.query.findItem? d.query.constants k.name = some i) :
    ConstantsMade D laid (done ++ [k]) { d with columns := d.columns ++ [(i, k)] } := by
  have hconst := h.constants.isConstant_of_findItem? hfound
  have hmem : k.name ∈ done.foldl addName builtinConstants := by
    by_contra hno
    rw [h.constants.findItem?_eq_none_iff.2 hno] at hfound
    cases hfound
  have hnames : (done ++ [k]).foldl addName builtinConstants =
      done.foldl addName builtinConstants := by
    rw [List.foldl_append, List.foldl_cons, List.foldl_nil, addName, if_pos hmem]
  obtain ⟨made, hcolumns, hdone, hmade⟩ := h.columns
  refine ⟨h.wellFormed, h.items, h.containers, h.rest, hnames ▸ h.count, hnames ▸ h.constants,
    made ++ [(i, k)], ?_, ?_, ?_⟩
  · rw [hcolumns, List.append_assoc]
  · rw [List.map_append, hdone]
    rfl
  · intro x hx
    rcases List.mem_append.1 hx with hx | hx
    · exact hmade x hx
    · obtain rfl := List.mem_singleton.1 hx
      refine ⟨hfound, fun hnodup => ?_⟩
      obtain ⟨row, hitem, hrow⟩ := hconst
      -- The entries have distinct names, so the constant is one that every query has.
      have hbuiltin : k.name ∈ builtinConstants := by
        refine (mem_foldl_addName.1 hmem).resolve_right fun hearlier => ?_
        rw [hsplit, List.map_append, List.map_cons, List.nodup_append] at hnodup
        exact hnodup.2.2 _ hearlier _ List.mem_cons_self rfl
      rw [hrow hbuiltin] at hitem
      simpa [hbuiltin, ColumnDefinition.made] using hitem

/-- A constant that was looked up is found as before when another one is made. -/
theorem LookedUp.putItem {q : Query} {x : ItemId × ColumnDefinition} (h : D.LookedUp q x)
    (hw : q.WellFormed) (hq : q.count < UInt32.size) (k : ColumnDefinition) (uuid : Uuid) :
    D.LookedUp (q.putItem q.constants (k.made .constant) uuid) x := by
  obtain ⟨hfound, hhas⟩ := h
  refine ⟨(findItem?_putItem hw hq hw.owned.knows_constants _ _ _).trans ?_, fun hnodup => ?_⟩
  · rw [hfound, Option.some_or]
  · obtain ⟨uuid', hold⟩ := hhas hnodup
    exact ⟨uuid', item?_putItem_of_known hw.numbered hq _ _ _ hold⟩

/-- A constant of a new name is found once it is made. -/
theorem lookedUp_putItem {q : Query} (hw : q.WellFormed) (hq : q.count < UInt32.size)
    {k : ColumnDefinition} (hnone : q.findItem? q.constants k.name = none)
    (hnew : k.name ∉ builtinConstants) (uuid : Uuid) :
    D.LookedUp (q.putItem q.constants (k.made .constant) uuid) (q.nextId, k) := by
  have hrow : (k.rowIdentifier && decide (k.name ∉ builtinConstants)) = k.rowIdentifier := by
    rw [decide_eq_true hnew, Bool.and_true]
  refine ⟨(findItem?_putItem hw hq hw.owned.knows_constants _ _ _).trans ?_, fun _ => ⟨uuid, ?_⟩⟩
  · exact (congrArg (Option.or · _) hnone).trans (if_pos rfl)
  · refine (item?_putItem _ _ _ _).trans ((if_pos rfl).trans ?_)
    simp only [hrow]
    rfl

/-- There is a number for a constant of a new name. -/
theorem ConstantsMade.count_lt {k : ColumnDefinition} {rest : List ColumnDefinition}
    (h : ConstantsMade D laid done d) (hsplit : D.constants = done ++ k :: rest)
    (hsize : D.size < UInt32.size) (hno : k.name ∉ done.foldl addName builtinConstants) :
    d.query.count < UInt32.size := by
  have hlength := length_foldl_addName rest ((done ++ [k]).foldl addName builtinConstants)
  rw [← List.foldl_append, List.append_assoc, List.singleton_append, ← hsplit, List.foldl_append,
    List.foldl_cons, List.foldl_nil, addName, if_neg hno, List.length_append,
    List.length_singleton] at hlength
  have hcount := h.count
  unfold size constantNames at hsize
  unfold tableNumber at hcount
  rw [List.take_length] at hcount
  omega

/-- A constant that does not exist is made. -/
theorem ConstantsMade.make {k : ColumnDefinition} {rest : List ColumnDefinition}
    (h : ConstantsMade D laid done d) (hsplit : D.constants = done ++ k :: rest)
    (hsize : D.size < UInt32.size)
    (hnone : d.query.findItem? d.query.constants k.name = none) :
    ∃ d', d.addColumn mint d.query.constants .constant k = .ok d' ∧
      ConstantsMade D laid (done ++ [k]) d' := by
  have hno := h.constants.findItem?_eq_none_iff.1 hnone
  have hnew : k.name ∉ builtinConstants := fun hmem => hno (mem_foldl_addName.2 (Or.inl hmem))
  have hnames : (done ++ [k]).foldl addName builtinConstants =
      done.foldl addName builtinConstants ++ [k.name] := by
    rw [List.foldl_append, List.foldl_cons, List.foldl_nil, addName, if_neg hno]
  have hq := h.count_lt hsplit hsize hno
  have hw := h.wellFormed
  have hknown := hw.owned.knows_constants
  obtain ⟨_, _, _, hrest⟩ := h.rest
  have hconst : d.query.constants = laid.query.constants := by rw [hrest]
  obtain ⟨made, hcolumns, hdone, hmade⟩ := h.columns
  refine ⟨_, addColumn_ok hw hq hknown .constant k, wellFormed_putItem hw hq hknown k .constant _,
    fun i x hx => ?_, fun c hc => ?_, ?_, ?_, ?_, made ++ [(d.query.nextId, k)], ?_, ?_,
    fun x hx => ?_⟩
  · exact item?_putItem_of_known hw.numbered hq _ _ _ (h.items i x hx)
  · rw [container?_putItem, if_neg (hconst ▸ hc)]
    exact h.containers c hc
  · rw [hrest]
    exact ⟨_, _, _, rfl⟩
  · have hcount := h.count
    change d.query.count + 1 + _ = _
    rw [hnames, List.length_append, List.length_singleton]
    omega
  · rw [hnames]
    exact h.constants.putItem hw hq k (fun hmem => absurd hmem hnew) _
  · rw [hcolumns, List.append_assoc]
  · rw [List.map_append, hdone]
    rfl
  · rcases List.mem_append.1 hx with hx | hx
    · exact (hmade x hx).putItem hw hq k _
    · obtain rfl := List.mem_singleton.1 hx
      exact lookedUp_putItem hw hq hnone hnew _

/-- All constants of a document are looked up or made. -/
theorem ConstantsMade.addConstants (mint : Minting) (h : ConstantsMade D laid [] d)
    (hsize : D.size < UInt32.size) :
    ∃ d', D.constants.foldlM (Draft.addConstant mint) d = .ok d' ∧
      ConstantsMade D laid D.constants d' := by
  refine foldlM_runs h fun done k rest d hsplit hdone => ?_
  unfold Draft.addConstant
  cases hfound : d.query.findItem? d.query.constants k.name with
  | some i => exact ⟨_, rfl, hdone.find hsplit hfound⟩
  | none => exact hdone.make hsplit hsize hfound

/-! ## The start -/

/-- The constants of a new query are made one after the other. -/
theorem addConstants_spec (mint : Minting) {q : Query} (hw : q.WellFormed) {present : List String}
    (h : q.HasConstants present) (names : List String)
    (hq : q.count + names.length ≤ UInt32.size) :
    (names.foldl (Query.addConstant mint) q).HasConstants (present ++ names) ∧
      ∃ items containers, names.foldl (Query.addConstant mint) q =
        { q with items, containers, count := q.count + names.length } := by
  induction names generalizing q present with
  | nil => exact ⟨(List.append_nil present).symm ▸ h, q.items, q.containers, rfl⟩
  | cons name rest ih =>
    rw [List.length_cons] at hq
    have hlt : q.count < UInt32.size := by omega
    let column : ColumnDefinition := { name }
    have hstep : Query.addConstant mint q name =
        q.putItem q.constants (column.made .constant) (mint q.count) :=
      insertItem_made hw hlt q.constants column .constant (mint q.count)
    have hput := wellFormed_putItem hw hlt hw.owned.knows_constants column .constant (mint q.count)
    have hconst := h.putItem hw hlt column (fun _ => rfl) (mint q.count)
    have hcount : (q.putItem q.constants (column.made .constant) (mint q.count)).count =
        q.count + 1 := rfl
    obtain ⟨hrest, items, containers, heq⟩ := ih hput hconst (by rw [hcount]; omega)
    rw [List.foldl_cons, hstep]
    refine ⟨?_, items, containers, ?_⟩
    · rw [List.append_assoc] at hrest
      exact hrest
    · rw [heq, hcount, List.length_cons, Nat.add_right_comm, Nat.add_assoc]
      rfl

/-- The query that a document is laid out in. -/
def start (D : QueryDefinition) (settings : QuerySettings) (uuid : Uuid) (mint : Minting) : Query :=
  { createWith settings uuid mint with name := D.name }.startCompound.query

theorem startCompound_query (q : Query) (name : Option String) :
    { q with name }.startCompound.query = { q with name, canExecute := false } :=
  Edit.query_setCanExecute _ _

/-- A query has some items and containers, and else nothing but the name of a document and the
settings. -/
def Blank (D : QueryDefinition) (settings : QuerySettings) (q : Query) : Prop :=
  ∃ uuid mint items containers, q =
    { bare uuid mint with
      items, containers, count := D.tableNumber 0, name := D.name, canExecute := false
      rowLimit := settings.rowLimit, streamingRowLimit := settings.streamingRowLimit
      streaming := settings.streaming, dialect := settings.dialect }

namespace Blank

variable {settings : QuerySettings} {q : Query}

theorem count_eq (h : D.Blank settings q) : q.count = D.tableNumber 0 := by
  obtain ⟨_, _, _, _, rfl⟩ := h
  rfl

theorem tables_eq (h : D.Blank settings q) : q.tables = [] := by
  obtain ⟨_, _, _, _, rfl⟩ := h
  rfl

theorem joins_eq (h : D.Blank settings q) : q.joins = ∅ := by
  obtain ⟨_, _, _, _, rfl⟩ := h
  rfl

theorem incidence_eq (h : D.Blank settings q) : q.incidence = ∅ := by
  obtain ⟨_, _, _, _, rfl⟩ := h
  rfl

theorem selected_eq (h : D.Blank settings q) : q.selected = [] := by
  obtain ⟨_, _, _, _, rfl⟩ := h
  rfl

theorem sortList_eq (h : D.Blank settings q) : q.sortList = [] := by
  obtain ⟨_, _, _, _, rfl⟩ := h
  rfl

theorem heading_eq (h : D.Blank settings q) : q.heading = (D.name, none, settings) := by
  obtain ⟨_, _, _, _, rfl⟩ := h
  rfl

end Blank

/-- The query that a document is laid out in has the constants of every query, and else nothing
but settings. -/
theorem start_spec (D : QueryDefinition) (settings : QuerySettings) (uuid : Uuid) (mint : Minting) :
    (D.start settings uuid mint).WellFormed ∧
    (D.start settings uuid mint).HasConstants builtinConstants ∧
    D.Blank settings (D.start settings uuid mint) := by
  obtain ⟨hconst, items, containers, hcreate⟩ : (create uuid mint).HasConstants builtinConstants ∧
      ∃ items containers, create uuid mint =
        { bare uuid mint with
          items, containers, count := (bare uuid mint).count + builtinConstants.length } :=
    addConstants_spec mint (.bare uuid mint) .nil builtinConstants
      (show 1 + builtinConstants.length ≤ UInt32.size by decide)
  have hw := (Reachable.createWith settings uuid mint).wellFormed
  unfold start
  rw [startCompound_query]
  unfold createWith at hw ⊢
  rw [hcreate] at hw hconst ⊢
  exact ⟨hw.congr rfl, hconst.congr rfl rfl rfl, uuid, mint, items, containers, rfl⟩

/-! ## The whole layout -/

/-- What a draft has when the tables and the constants of a document are laid out from a query
that has nothing but the constants of every query. -/
structure LaidOut (D : QueryDefinition) (start : Query) (d : Draft) : Prop where
  wellFormed : d.query.WellFormed
  rest : ∃ items containers count, d.query =
    { start with items, containers, tables := D.tables.mapIdx fun n _ => D.tableId n, count }
  count : d.query.count + D.joins.length = D.size
  held : ∀ n t, D.tables[n]? = some t → D.Holds d.query (fun k => k.made k.kind) n t
  constants : d.query.HasConstants D.constantNames
  columns : ∃ made : List (ItemId × ColumnDefinition),
    d.columns = (D.tables.mapIdx D.columnsAt).flatten ++ made ∧
    made.map Prod.snd = D.constants ∧ ∀ x ∈ made, D.LookedUp d.query x

/-- A document is laid out without a refusal. -/
theorem layOut {q : Query} (hw : q.WellFormed) (hconst : q.HasConstants builtinConstants)
    (hcount : q.count = D.tableNumber 0) (htables : q.tables = []) (mint : Minting)
    (hsize : D.size < UInt32.size) :
    ∃ laid d, D.tables.foldlM (Draft.addTable mint) { query := q } = .ok laid ∧
      D.constants.foldlM (Draft.addConstant mint) laid = .ok d ∧ D.LaidOut q d := by
  have hbegin : TablesMade D q [] { query := q } :=
    ⟨hw, .refl q, hcount, htables, fun n t hn => by simp at hn, rfl⟩
  obtain ⟨laid, hrun, hlaid⟩ := hbegin.addTables mint hsize
  obtain ⟨_, _, _, _, hgrown⟩ := hlaid.grows.rest
  have hsame : laid.query.constants = q.constants := by rw [hgrown]
  -- The constants of every query are there as they were.
  have hconst' : laid.query.HasConstants builtinConstants := by
    obtain ⟨c, hc⟩ := (q.containers.contains_iff _).1 hw.owned.knows_constants
    have hitems : laid.query.itemsOf laid.query.constants = q.itemsOf q.constants := by
      rw [hsame, itemsOf, hlaid.grows.container _ c hc, itemsOf, container?, hc]
    unfold HasConstants at hconst ⊢
    rw [hitems]
    refine hconst.imp ?_
    rintro name i ⟨row, hitem, hrow⟩
    exact ⟨row, hsame ▸ hlaid.grows.hasItem hitem, hrow⟩
  have hmiddle : ConstantsMade D laid [] laid :=
    ⟨hlaid.wellFormed, fun _ _ => id, fun _ _ => rfl, ⟨_, _, _, rfl⟩,
      congrArg (· + builtinConstants.length) hlaid.count, hconst', [], (List.append_nil _).symm,
      rfl, fun x hx => absurd hx List.not_mem_nil⟩
  obtain ⟨d, hconstants, hmade⟩ := hmiddle.addConstants mint hsize
  refine ⟨laid, d, hrun, hconstants, hmade.wellFormed, ?_, ?_, ?_, hmade.constants, ?_⟩
  · obtain ⟨items, containers, count, hrest⟩ := hmade.rest
    refine ⟨items, containers, count, ?_⟩
    rw [hrest, ← hlaid.tables, hgrown]
  · have hcount := hmade.count
    unfold size constantNames
    unfold tableNumber at hcount
    rw [List.take_length] at hcount
    omega
  · intro n t hn
    have hheld := hlaid.held n t hn
    have hmem : D.tableId n ∈ laid.query.tables := by
      rw [hlaid.tables]
      exact List.mem_of_getElem? (by rw [List.getElem?_mapIdx, hn]; rfl)
    have hne : D.tableId n ≠ laid.query.constants := by
      intro heq
      exact hlaid.wellFormed.owned.constants_not_table (heq ▸ hmem)
    refine ⟨?_, fun k column hk => ?_⟩
    · obtain ⟨uuid, hc⟩ := hheld.table
      exact ⟨uuid, (hmade.containers _ hne).trans hc⟩
    · obtain ⟨uuid, hitem⟩ := hheld.items k column hk
      exact ⟨uuid, hmade.items _ _ hitem⟩
  · rw [← hlaid.columns]
    exact hmade.columns

end QueryDefinition

end LiveSelect
