import LiveSelect.Proofs.Describing

/-! # A built query has what its document declares

A build lays the document out, joins its tables, turns grouping on or off and then describes
the columns. As nothing is selected when grouping is turned on, no column becomes a count by it;
and the columns are described in the order of the document, which fixes the order of the
selection. So a query that is built has what the document declares and nothing else. -/

namespace LiveSelect

theorem forall₂_mapIdx {α β : Type} {R : α → β → Prop} {g : Nat → β} {xs : List α}
    (h : ∀ n x, xs[n]? = some x → R x (g n)) : List.Forall₂ R xs (xs.mapIdx fun n _ => g n) := by
  induction xs generalizing g with
  | nil => exact .nil
  | cons x rest ih =>
    rw [List.mapIdx_cons]
    exact .cons (h 0 x rfl) (ih fun n y hy => h (n + 1) y hy)

theorem map_mapIdx {α β γ : Type} (f : Nat → α → β) (g : β → γ) (xs : List α) :
    (xs.mapIdx f).map g = xs.mapIdx fun n x => g (f n x) := by
  refine List.ext_getElem? fun n => ?_
  rw [List.getElem?_map, List.getElem?_mapIdx, List.getElem?_mapIdx, Option.map_map]
  rfl

/-! ## What a document declares -/

namespace Query

/-- A container is that of a table of a document, and its items are those of its columns. -/
structure IsTable (q : Query) (t : TableDefinition) (c : ContainerId) : Prop where
  container : ∃ k, q.container? c = some k ∧ k.kind = .table t.identity ∧ k.name = t.name ∧
    k.aliasName = t.aliasName
  columns : List.Forall₂ (fun k => q.HasItem c (k.declared k.kind)) t.columns (q.itemsOf c)

/-- The item of the column at a place. -/
def columnAt? (q : Query) (p : Place) : Option ItemId :=
  q.tables[p.table]?.bind fun c => (q.itemsOf c)[p.column]?

end Query

namespace QueryDefinition

open Query

/-- A join of a query is that of a join of a document: it has the columns that the references
name and the comparator, and each of its sides has the flag that the earliest join of the
document that touches the table declares for it. -/
def IsJoin (D : QueryDefinition) (q : Query) (j : JoinDefinition) (id : JoinId) : Prop :=
  ∃ join l r, q.join? id = some join ∧ D.Reads j.left (.ok l) ∧ D.Reads j.right (.ok r) ∧
    q.columnAt? l = some join.left ∧ q.columnAt? r = some join.right ∧
    join.comparator = j.comparator ∧
    D.earliestOuter? D.joins l.table = some join.leftOuter ∧
    D.earliestOuter? D.joins r.table = some join.rightOuter

/-- The items of a document in its order: those of the tables, and then the first constants of
the names that it lists. -/
def itemsIn (D : QueryDefinition) (q : Query) : List ItemId :=
  q.tables.flatMap q.itemsOf ++ D.constants.filterMap fun k => q.findItem? q.constants k.name

/-- The query has what a document declares, and what the settings say. -/
structure Represents (D : QueryDefinition) (settings : QuerySettings) (q : Query) : Prop where
  /-- The tables are those of the document, with their columns. -/
  tables : List.Forall₂ q.IsTable D.tables q.tables
  /-- The constants are those of every query, and then those that are new in the document. -/
  constants : List.Forall₂ (fun name i => ∃ item, q.item? i = some item ∧ item.name = name ∧
    item.kind = .constant) D.constantNames (q.itemsOf q.constants)
  /-- A constant that the document lists has the properties that it declares. A constant of
  every query identifies no rows, whatever the document says. -/
  listed : ∀ k ∈ D.constants, ∃ i, q.findItem? q.constants k.name = some i ∧
    q.HasItem q.constants { k.declared .constant with
      rowIdentifier := k.rowIdentifier && k.name ∉ builtinConstants } i
  /-- A constant that the document does not list has no properties. -/
  unlisted : ∀ name ∈ builtinConstants, name ∉ D.constants.map (·.name) →
    ∃ i, q.findItem? q.constants name = some i ∧
      q.HasItem q.constants { name, kind := .constant } i
  selected : q.selected = (D.itemsIn q).filter (q.itemHas (·.selected))
  sortList : q.sortList = (D.itemsIn q).filter (q.itemHas Item.isSorted)
  joins : List.Forall₂ (D.IsJoin q) D.joins q.allJoins
  name : q.name = D.name
  grouping : q.grouping = D.grouping
  globalFilter : q.globalFilter = D.globalFilter
  /-- A hand-written text that the query has anyway is ignored. -/
  handWritten : q.handWritten =
    D.handWritten.filter fun text => { q with handWritten := none }.text ≠ text
  canExecute : q.canExecute = true
  rowLimit : q.rowLimit = settings.rowLimit
  streamingRowLimit : q.streamingRowLimit = settings.streamingRowLimit
  streaming : q.streaming = settings.streaming
  dialect : q.dialect = settings.dialect

/-! ## The steps of a build -/

variable {D : QueryDefinition} {q q₀ q₁ : Query} {d laid : Draft}

/-- The last steps of a build. -/
def finish (D : QueryDefinition) (q : Query) : Query :=
  let q := (q.setGlobalFilter D.globalFilter).query.endCompound.query
  match D.handWritten with
  | some text => (q.defineHandWritten text).query
  | none => q

/-- What is left to do when a document is laid out. -/
theorem build_of_layOut {settings : QuerySettings} {uuid : Uuid} {mint : Minting}
    (htables : D.tables.foldlM (Draft.addTable mint) { query := D.start settings uuid mint } =
      .ok laid)
    (hconstants : D.constants.foldlM (Draft.addConstant mint) laid = .ok d) :
    D.build settings uuid mint = (do
      let q ← D.joins.foldlM addJoin d.query
      let q ← d.columns.foldlM setProperties (q.setGrouping D.grouping).query
      return D.finish q) := by
  exact (bind_of_ok htables _).trans (bind_of_ok hconstants _)

theorem finish_eq (hnone : q.handWritten = none) :
    D.finish q =
      { q with
        globalFilter := D.globalFilter
        canExecute := true
        handWritten := D.handWritten.filter fun text =>
          { q with globalFilter := D.globalFilter, canExecute := true }.text ≠ text } := by
  let closed : Query := { q with globalFilter := D.globalFilter, canExecute := true }
  have hclosed : (q.setGlobalFilter D.globalFilter).query.endCompound.query = closed := by
    rw [setGlobalFilter_query]
    exact Edit.query_setCanExecute _ _
  have hput : ∀ handWritten, closed.handWritten = handWritten →
      closed = { closed with handWritten } := by
    rintro _ rfl
    rfl
  unfold finish
  simp only [hclosed]
  cases D.handWritten with
  | none => exact hput none hnone
  | some text =>
    rw [Option.filter_some]
    by_cases hsame : closed.text = text
    · refine (closed.defineHandWritten_query text).trans ?_
      rw [if_pos hsame, if_neg (by simpa using hsame)]
      exact (hput _ rfl).symm.trans (hput none hnone)
    · refine (closed.defineHandWritten_query text).trans ?_
      rw [if_neg hsame, if_pos (by simpa using hsame)]

/-- As long as nothing is selected, no column becomes a count when grouping is turned on. -/
theorem setGrouping_of_nothing_selected (h : q.selected = []) (enabled : Bool) :
    ∃ canExecute, (q.setGrouping enabled).query = { q with grouping := enabled, canExecute } := by
  have hnone : q.uncountedColumns = [] := by
    rw [uncountedColumns, h]
    rfl
  rw [setGrouping_query, hnone]
  split
  · rename_i heq
    subst heq
    exact ⟨_, rfl⟩
  · split
    · exact ⟨_, rfl⟩
    · exact ⟨_, rfl⟩

/-! ## The columns of a document that is laid out -/

theorem mem_columnsAt {x : ItemId × ColumnDefinition} :
    x ∈ (D.tables.mapIdx D.columnsAt).flatten ↔ ∃ n t m, D.tables[n]? = some t ∧
      t.columns[m]? = some x.2 ∧ D.columnId ⟨n, m⟩ = x.1 := by
  simp only [List.mem_flatten, List.mem_mapIdx]
  constructor
  · rintro ⟨_, ⟨n, hn, rfl⟩, hx⟩
    obtain ⟨m, hm, rfl⟩ := List.mem_mapIdx.1 hx
    exact ⟨n, _, m, List.getElem?_eq_getElem hn, List.getElem?_eq_getElem hm, rfl⟩
  · rintro ⟨n, t, m, ht, hk, hid⟩
    obtain ⟨hn, rfl⟩ := List.getElem?_eq_some_iff.1 ht
    obtain ⟨hm, hcolumn⟩ := List.getElem?_eq_some_iff.1 hk
    refine ⟨_, ⟨n, hn, rfl⟩, List.mem_mapIdx.2 ⟨m, hm, ?_⟩⟩
    rw [hcolumn, hid]

namespace LaidOut

theorem mem_tables (h : D.LaidOut q₀ d) {n : Nat} {t : TableDefinition}
    (ht : D.tables[n]? = some t) : D.tableId n ∈ d.query.tables := by
  rw [h.tables_eq]
  exact List.mem_of_getElem? (by rw [List.getElem?_mapIdx, ht]; rfl)

/-- No item of a column has a flag yet. -/
theorem plain (h : D.LaidOut q₀ d) {x : ItemId × ColumnDefinition} (hx : x ∈ d.columns) :
    Plain d.query x.1 := by
  obtain ⟨made, hcolumns, -, hmade⟩ := h.columns
  rw [hcolumns] at hx
  rcases List.mem_append.1 hx with hx | hx
  · obtain ⟨n, t, m, ht, hk, hid⟩ := mem_columnsAt.1 hx
    obtain ⟨uuid, hitem⟩ := (h.held n t ht).items m x.2 hk
    exact ⟨_, hid ▸ hitem, rfl, rfl, (isAttached_iff _ _).2 (Or.inr (h.mem_tables ht))⟩
  · obtain ⟨hfound, -⟩ := hmade x hx
    obtain ⟨row, ⟨uuid, hitem⟩, -⟩ := h.constants.isConstant_of_findItem? hfound
    exact ⟨_, hitem, rfl, rfl, (isAttached_iff _ _).2 (Or.inl rfl)⟩

theorem flatMap_itemsOf (h : D.LaidOut q₀ d) :
    d.query.tables.flatMap d.query.itemsOf =
      (D.tables.mapIdx D.columnsAt).flatten.map Prod.fst := by
  rw [h.tables_eq, List.flatMap_def, List.map_flatten, map_mapIdx, map_mapIdx]
  congr 1
  refine List.mapIdx_eq_mapIdx_iff.2 fun n hn => ?_
  rw [(h.held n _ (List.getElem?_eq_getElem hn)).table.itemsOf, columnsAt, map_mapIdx]

/-- The columns come with the items of the document in its order. -/
theorem fst_columns (h : D.LaidOut q₀ d) : d.columns.map Prod.fst = D.itemsIn d.query := by
  obtain ⟨made, hcolumns, hall, hmade⟩ := h.columns
  have hconstants : D.constants.filterMap (fun k => d.query.findItem? d.query.constants k.name) =
      made.map Prod.fst := by
    rw [← hall, List.filterMap_map, ← List.filterMap_eq_map]
    exact List.filterMap_congr fun x hx => (hmade x hx).1
  rw [itemsIn, h.flatMap_itemsOf, hconstants, hcolumns, List.map_append]

/-- No item comes twice, as no constant is listed twice. -/
theorem nodup_columns (h : D.LaidOut q₀ d) (hnames : (D.constants.map (·.name)).Nodup) :
    (d.columns.map Prod.fst).Nodup := by
  obtain ⟨made, hcolumns, hall, hmade⟩ := h.columns
  have howned := h.wellFormed.owned
  have hitems : ((d.query.constants :: d.query.tables).flatMap d.query.itemsOf).Nodup :=
    howned.nodup_flatMap_itemsOf
      (List.nodup_cons.2 ⟨howned.constants_not_table, howned.nodup_tables⟩)
  rw [List.flatMap_cons, List.nodup_append] at hitems
  obtain ⟨-, htables, happart⟩ := hitems
  have hmade' : (made.map Prod.fst).Nodup := by
    rw [← hall, List.map_map] at hnames
    refine List.pairwise_map.2 ((List.pairwise_map.1 hnames).imp_of_mem ?_)
    intro x y hx hy hne heq
    have hx' := h.constants.isConstant_of_findItem? (hmade x hx).1
    have hy' := h.constants.isConstant_of_findItem? (hmade y hy).1
    rw [heq] at hx'
    exact hne (hx'.name_unique hy')
  rw [hcolumns, List.map_append, ← h.flatMap_itemsOf]
  refine List.nodup_append.2 ⟨htables, hmade', fun i hi i' hi' => ?_⟩
  obtain ⟨x, hx, rfl⟩ := List.mem_map.1 hi'
  exact (happart _ (List.mem_of_find?_eq_some (hmade x hx).1) i hi).symm

end LaidOut

/-! ## What the query has in the end -/

/-- A query in which the columns of a draft have got their properties. -/
structure Filled (d : Draft) (q : Query) : Prop where
  containers : q.containers = d.query.containers
  tables : q.tables = d.query.tables
  constants : q.constants = d.query.constants
  described : ∀ x ∈ d.columns, q.item? x.1 = (d.query.item? x.1).map x.2.describe
  others : ∀ i, i ∉ d.columns.map Prod.fst → q.item? i = d.query.item? i
  selected : q.selected = itemsWith (·.selected) d.columns
  sortList : q.sortList = itemsWith (·.sortOrder ≠ .unsorted) d.columns

namespace Filled

theorem itemsOf_eq (h : Filled d q) : q.itemsOf = d.query.itemsOf := by
  funext c
  rw [itemsOf, container?, h.containers]
  rfl

/-- Describing an item leaves its name and its kind. -/
theorem item?_eq (h : Filled d q) {i : ItemId} {item : Item} (hitem : d.query.item? i = some item) :
    ∃ item', q.item? i = some item' ∧ item'.name = item.name ∧ item'.kind = item.kind := by
  by_cases hmem : i ∈ d.columns.map Prod.fst
  · obtain ⟨x, hx, rfl⟩ := List.mem_map.1 hmem
    exact ⟨x.2.describe item, by rw [h.described x hx, hitem]; rfl, rfl, rfl⟩
  · exact ⟨item, (h.others i hmem).trans hitem, rfl, rfl⟩

theorem findItem?_eq (h : Filled d q) (hw : d.query.WellFormed) (c : ContainerId) (name : String) :
    q.findItem? c name = d.query.findItem? c name := by
  rw [findItem?, findItem?, h.itemsOf_eq, ← List.head?_filter, ← List.head?_filter]
  congr 1
  refine List.filter_congr fun i hi => ?_
  obtain ⟨item, hitem, -⟩ := hw.owned.item?_of_mem hi
  obtain ⟨item', hitem', hname, -⟩ := h.item?_eq hitem
  rw [hitem, hitem', Option.any_some, Option.any_some, hname]

theorem itemsIn_eq (h : Filled d q) (hw : d.query.WellFormed) :
    D.itemsIn q = D.itemsIn d.query := by
  unfold itemsIn
  rw [h.tables, h.itemsOf_eq, h.constants]
  simp only [h.findItem?_eq hw]

/-- An item that is made of a column has what the column declares. -/
theorem hasItem (h : Filled d q) {x : ItemId × ColumnDefinition} (hx : x ∈ d.columns)
    {c : ContainerId} {kind : ItemKind} {row : Bool}
    (hmade : d.query.HasItem c { x.2.made kind with rowIdentifier := row } x.1) :
    q.HasItem c { x.2.declared kind with rowIdentifier := row } x.1 := by
  obtain ⟨uuid, hitem⟩ := hmade
  refine ⟨uuid, ?_⟩
  rw [h.described x hx, hitem]
  rfl

theorem isTable (h : Filled d q) (hlaid : D.LaidOut q₀ d) :
    List.Forall₂ q.IsTable D.tables q.tables := by
  rw [h.tables, hlaid.tables_eq]
  refine forall₂_mapIdx fun n t ht => ?_
  have hheld := hlaid.held n t ht
  obtain ⟨uuid, hcontainer⟩ := hheld.table
  have hknown : q.container? (D.tableId n) = d.query.container? (D.tableId n) := by
    rw [container?, h.containers]
    rfl
  refine ⟨⟨_, hknown.trans hcontainer, rfl, rfl, rfl⟩, ?_⟩
  rw [h.itemsOf_eq, hheld.table.itemsOf]
  refine forall₂_mapIdx fun m k hk => ?_
  obtain ⟨made, hcolumns, -⟩ := hlaid.columns
  have hx : (D.columnId ⟨n, m⟩, k) ∈ d.columns := by
    rw [hcolumns]
    exact List.mem_append_left _ (mem_columnsAt.2 ⟨n, t, m, ht, hk, rfl⟩)
  exact h.hasItem hx (hheld.items m k hk)

/-- A list of flagged items is the flagged part of the items of the document. -/
theorem itemsWith_eq (h : Filled d q) (hlaid : D.LaidOut q₀ d) {p : ColumnDefinition → Bool}
    {p' : Item → Bool} (hp : ∀ k item, p' (ColumnDefinition.describe k item) = p k) :
    itemsWith p d.columns = (D.itemsIn q).filter (q.itemHas p') := by
  rw [h.itemsIn_eq hlaid.wellFormed, ← hlaid.fst_columns, List.filter_map, itemsWith]
  congr 1
  refine List.filter_congr fun x hx => ?_
  obtain ⟨item, hitem, -⟩ := hlaid.plain hx
  have hdescribed : q.item? x.1 = some (x.2.describe item) := by
    rw [h.described x hx, hitem]
    rfl
  rw [Function.comp_apply, itemHas_of_item? hdescribed, hp]

/-- A reference finds the item of the column that it names. -/
theorem columnAt?_eq (h : Filled d q) (hlaid : D.LaidOut q₀ d) {reference : String} {p : Place}
    (hp : D.Reads reference (.ok p)) : q.columnAt? p = some (D.columnId p) := by
  obtain ⟨t, k, ht, hk⟩ := exists_of_reads hp
  rw [columnAt?, h.tables, hlaid.tables_eq, List.getElem?_mapIdx, ht, Option.map_some,
    Option.bind_some, h.itemsOf_eq, (hlaid.held p.table t ht).table.itemsOf, List.getElem?_mapIdx,
    hk, Option.map_some]

theorem constants_named (h : Filled d q) (hlaid : D.LaidOut q₀ d) :
    List.Forall₂ (fun name i => ∃ item, q.item? i = some item ∧ item.name = name ∧
      item.kind = .constant) D.constantNames (q.itemsOf q.constants) := by
  rw [h.itemsOf_eq, h.constants]
  refine hlaid.constants.imp ?_
  rintro name i ⟨row, ⟨uuid, hitem⟩, -⟩
  exact h.item?_eq hitem

theorem listed (h : Filled d q) (hlaid : D.LaidOut q₀ d)
    (hnames : (D.constants.map (·.name)).Nodup) {k : ColumnDefinition} (hk : k ∈ D.constants) :
    ∃ i, q.findItem? q.constants k.name = some i ∧
      q.HasItem q.constants { k.declared .constant with
        rowIdentifier := k.rowIdentifier && k.name ∉ builtinConstants } i := by
  obtain ⟨made, hcolumns, hall, hmade⟩ := hlaid.columns
  rw [← hall] at hk
  obtain ⟨x, hx, rfl⟩ := List.mem_map.1 hk
  obtain ⟨hfound, hhas⟩ := hmade x hx
  rw [h.constants]
  refine ⟨x.1, (h.findItem?_eq hlaid.wellFormed _ _).trans hfound, h.hasItem ?_ (hhas hnames)⟩
  rw [hcolumns]
  exact List.mem_append_right _ hx

theorem unlisted (h : Filled d q) (hlaid : D.LaidOut q₀ d) {name : String}
    (hname : name ∈ builtinConstants) (hno : name ∉ D.constants.map (·.name)) :
    ∃ i, q.findItem? q.constants name = some i ∧
      q.HasItem q.constants { name, kind := .constant } i := by
  rw [h.constants]
  simp only [h.findItem?_eq hlaid.wellFormed]
  cases hfound : d.query.findItem? d.query.constants name with
  | none =>
    have hlisted : name ∈ D.constantNames := mem_foldl_addName.2 (Or.inl hname)
    exact absurd hlisted (hlaid.constants.findItem?_eq_none_iff.1 hfound)
  | some i =>
    have hconst := hlaid.constants.isConstant_of_findItem? hfound
    have huntouched : i ∉ d.columns.map Prod.fst := by
      intro hmem
      obtain ⟨x, hx, rfl⟩ := List.mem_map.1 hmem
      obtain ⟨made, hcolumns, hall, hmade⟩ := hlaid.columns
      rw [hcolumns] at hx
      rcases List.mem_append.1 hx with hx | hx
      · -- An item of a table is no constant.
        obtain ⟨n, t, m, ht, hk, hid⟩ := mem_columnsAt.1 hx
        obtain ⟨row, hitem, -⟩ := hconst
        have hhome := ((hlaid.held n t ht).items m x.2 hk).home?
        rw [hid, hitem.home?, Option.some.injEq] at hhome
        exact hlaid.wellFormed.owned.constants_not_table (hhome ▸ hlaid.mem_tables ht)
      · have hsame := hconst.name_unique (hlaid.constants.isConstant_of_findItem? (hmade x hx).1)
        refine hno (hsame ▸ ?_)
        rw [← hall, List.map_map]
        exact List.mem_map_of_mem hx
    obtain ⟨row, ⟨uuid, hitem⟩, hrow⟩ := hconst
    rw [hrow hname] at hitem
    exact ⟨i, rfl, uuid, (h.others i huntouched).trans hitem⟩

end Filled

/-! ## The whole build -/

/-- A build lays the document out in a query that has no tables, joins or selected items. -/
theorem exists_laidOut (D : QueryDefinition) (settings : QuerySettings) (uuid : Uuid)
    (mint : Minting) (hsize : D.size < UInt32.size) :
    ∃ q₀ d, D.Blank settings q₀ ∧ D.LaidOut q₀ d ∧
      D.build settings uuid mint = (do
        let q ← D.joins.foldlM addJoin d.query
        let q ← d.columns.foldlM setProperties (q.setGrouping D.grouping).query
        return D.finish q) := by
  obtain ⟨hw, hconst, hblank⟩ := D.start_spec settings uuid mint
  obtain ⟨laid, d, hlay, hlay', hlaid⟩ :=
    layOut hw hconst hblank.count_eq hblank.tables_eq mint hsize
  exact ⟨_, d, hblank, hlaid, build_of_layOut hlay hlay'⟩

/-- When the joins are made, nothing is selected or sorted by yet, so turning grouping on or off
changes no item. -/
theorem LaidOut.group {settings : QuerySettings} (h : D.LaidOut q₀ d) (hblank : D.Blank settings q₀)
    (hjoined : D.JoinsMade d D.joins q₁) :
    (∃ canExecute, (q₁.setGrouping D.grouping).query =
      { q₁ with grouping := D.grouping, canExecute }) ∧
    q₁.selected = [] ∧ q₁.sortList = [] ∧ ∀ x ∈ d.columns, Plain q₁ x.1 := by
  obtain ⟨_, _, _, hrest⟩ := h.rest
  obtain ⟨_, _, hrest₁⟩ := hjoined.rest
  have hselected : q₁.selected = [] := by
    rw [hrest₁, hrest]
    exact hblank.selected_eq
  have hsortList : q₁.sortList = [] := by
    rw [hrest₁, hrest]
    exact hblank.sortList_eq
  refine ⟨setGrouping_of_nothing_selected hselected D.grouping, hselected, hsortList,
    fun x hx => ?_⟩
  rw [hrest₁]
  exact h.plain hx

/-- A query in which everything is done that a document asks for, before it is closed. -/
structure Done (D : QueryDefinition) (d : Draft) (q₁ q : Query) : Prop where
  joined : D.JoinsMade d D.joins q₁
  described : ∃ canExecute, Described { q₁ with grouping := D.grouping, canExecute } d.columns q

/-- When the joins are made, the columns are described without a refusal. -/
theorem LaidOut.fill {settings : QuerySettings} (h : D.LaidOut q₀ d) (hblank : D.Blank settings q₀)
    (hnames : (D.constants.map (·.name)).Nodup) (hjoined : D.JoinsMade d D.joins q₁) :
    ∃ q, d.columns.foldlM setProperties (q₁.setGrouping D.grouping).query = .ok q ∧
      Done D d q₁ q := by
  obtain ⟨⟨canExecute, hgrouping⟩, hselected, hsortList, hplain⟩ := h.group hblank hjoined
  have hbase : ∀ x ∈ d.columns, Plain { q₁ with grouping := D.grouping, canExecute } x.1 := hplain
  obtain ⟨q, hrun, hdescribed⟩ :=
    describe_all (h.nodup_columns hnames) hbase hselected hsortList
  exact ⟨q, hgrouping ▸ hrun, hjoined, canExecute, hdescribed⟩

theorem Done.filled (h : Done D d q₁ q) : Filled d q := by
  obtain ⟨canExecute, hdescribed⟩ := h.described
  obtain ⟨_, _, hrest₁⟩ := h.joined.rest
  obtain ⟨_, hrest⟩ := hdescribed.rest
  have hitem : ∀ i, ({ q₁ with grouping := D.grouping, canExecute } : Query).item? i =
      d.query.item? i := by
    intro i
    rw [hrest₁]
    rfl
  refine ⟨?_, ?_, ?_, ?_, ?_, ?_, ?_⟩
  · rw [hrest, hrest₁]
  · rw [hrest, hrest₁]
  · rw [hrest, hrest₁]
  · intro x hx
    rw [hdescribed.described x hx, hitem]
  · intro i hi
    rw [hdescribed.others i hi, hitem]
  · rw [hrest]
  · rw [hrest]

theorem Done.isJoin (h : Done D d q₁ q) (hlaid : D.LaidOut q₀ d) :
    List.Forall₂ (D.IsJoin q) D.joins q.allJoins := by
  obtain ⟨canExecute, hdescribed⟩ := h.described
  obtain ⟨_, hrest⟩ := hdescribed.rest
  have hjoins : q.joins = q₁.joins := by rw [hrest]
  unfold allJoins
  rw [hjoins]
  refine h.joined.joins.imp ?_
  rintro j id ⟨join, l, r, hjoin, hl, hr, hleft, hright, hcomparator, houter⟩
  refine ⟨join, l, r, ?_, hl, hr, ?_, ?_, hcomparator, houter⟩
  · rw [join?, hjoins]
    exact hjoin
  · rw [h.filled.columnAt?_eq hlaid hl, hleft]
  · rw [h.filled.columnAt?_eq hlaid hr, hright]

/-- When the query is closed, it has what the document declares. -/
theorem Done.represents {settings : QuerySettings} (h : Done D d q₁ q) (hlaid : D.LaidOut q₀ d)
    (hblank : D.Blank settings q₀) (hnames : (D.constants.map (·.name)).Nodup) :
    D.Represents settings (D.finish q) := by
  obtain ⟨_, _, _, hrest⟩ := hlaid.rest
  obtain ⟨_, _, hrest₁⟩ := h.joined.rest
  obtain ⟨_, hdescribed⟩ := h.described
  obtain ⟨_, hrest₂⟩ := hdescribed.rest
  -- The name and the settings are those of the beginning.
  have hheading : q.heading = (D.name, none, settings) := by
    rw [hrest₂, ← hblank.heading_eq]
    calc q₁.heading = d.query.heading := by rw [hrest₁]; rfl
      _ = q₀.heading := by rw [hrest]; rfl
  obtain ⟨hname, hlast⟩ := Prod.mk.inj hheading
  obtain ⟨hnone, rfl⟩ := Prod.mk.inj hlast
  obtain ⟨closed, hclosed⟩ : ∃ closed, closed = D.finish q := ⟨_, rfl⟩
  have heq := hclosed.trans (finish_eq hnone)
  have hfilled : Filled d closed := by
    obtain ⟨hcontainers, htables, hconstants, hitems, hothers, hselected, hsortList⟩ := h.filled
    rw [heq]
    exact ⟨hcontainers, htables, hconstants, hitems, hothers, hselected, hsortList⟩
  have hjoins : List.Forall₂ (D.IsJoin closed) D.joins closed.allJoins := by
    rw [heq]
    exact h.isJoin hlaid
  rw [← hclosed]
  refine
    { tables := hfilled.isTable hlaid
      constants := hfilled.constants_named hlaid
      listed := fun k hk => hfilled.listed hlaid hnames hk
      unlisted := fun name => hfilled.unlisted hlaid
      selected := ?_, sortList := ?_, joins := hjoins, name := ?_, grouping := ?_
      globalFilter := ?_, handWritten := ?_, canExecute := ?_, rowLimit := ?_
      streamingRowLimit := ?_, streaming := ?_, dialect := ?_ }
  · rw [hfilled.selected]
    exact hfilled.itemsWith_eq hlaid fun _ _ => rfl
  · rw [hfilled.sortList]
    exact hfilled.itemsWith_eq hlaid fun _ _ => rfl
  · rw [heq, ← hname]
  · rw [heq, hrest₂]
  · rw [heq]
  · rw [heq, ← hnone]
  · rw [heq]
  · rw [heq]
  · rw [heq]
  · rw [heq]
  · rw [heq]

/-- A query that is built from a document has what the document declares, and what the settings
say. The document is small enough for the counter of a query, which has 32 bits. -/
theorem build_represents (D : QueryDefinition) (settings : QuerySettings) (uuid : Uuid)
    (mint : Minting) (hnames : (D.constants.map (·.name)).Nodup) (hsize : D.size < UInt32.size)
    (h : D.build settings uuid mint = .ok q) : D.Represents settings q := by
  obtain ⟨q₀, d, hblank, hlaid, hbuild⟩ := D.exists_laidOut settings uuid mint hsize
  rw [hbuild] at h
  rcases D.sound_or_first_fault with hsound | ⟨before, j, after, err, hsplit, hsound, hfault⟩
  · obtain ⟨q₁, hjoin, hjoined⟩ := hlaid.addJoins hblank.joins_eq hblank.incidence_eq hsize
      (List.append_nil D.joins).symm hsound
    obtain ⟨q₂, hfill, hdone⟩ := hlaid.fill hblank hnames hjoined
    rw [bind_of_ok hjoin, bind_of_ok hfill] at h
    cases h
    exact hdone.represents hlaid hblank hnames
  · -- A document with a fault is refused.
    rw [hlaid.addJoins_error hblank.joins_eq hblank.incidence_eq hsize hsplit hsound hfault] at h
    cases h

/-- The totals of the orders of each customer, with the name of the user who asks for them. -/
def customerTotals : QueryDefinition :=
  { name := some "Customer totals"
    tables := [
      { name := "CUSTOMER", columns := [{ name := "ID" }, { name := "NAME", selected := true }] },
      { name := "ORDERS", columns := [
        { name := "CUSTOMER_ID" },
        { name := "TOTAL", selected := true, groupRole := some .sum, sortOrder := .descending }] }]
    constants := [{ name := "user", selected := true, groupRole := some .plain }]
    joins := [{ left := "CUSTOMER.ID", right := "ORDERS.CUSTOMER_ID", leftOuter := true }]
    grouping := true }

/-- The query of the document has the names of the customers, the totals and the user, in this
order. -/
theorem customerTotals_represented :
    ∃ q, customerTotals.build {} (.ofNat 0) .ofNat = .ok q ∧ customerTotals.Represents {} q := by
  have hnames : (customerTotals.constants.map (·.name)).Nodup := by decide +kernel
  have hsize : customerTotals.size < UInt32.size := by decide +kernel
  have hbuilt : (customerTotals.build {} (.ofNat 0) .ofNat).toOption.isSome := by decide +kernel
  cases h : customerTotals.build {} (.ofNat 0) .ofNat with
  | ok q => exact ⟨q, rfl, customerTotals.build_represents {} _ _ hnames hsize h⟩
  | error err =>
    rw [h] at hbuilt
    cases hbuilt

end QueryDefinition

end LiveSelect
