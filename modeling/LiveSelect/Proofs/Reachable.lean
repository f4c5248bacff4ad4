import Mathlib.Logic.Relation
import LiveSelect.Definition.Build
import LiveSelect.Query.Copy
import LiveSelect.Proofs.WellFormed

/-! # Reachable queries

The queries that a caller can hold: new ones, those built from a definition, copies, and
what operations make of them, as long as the counter of numbers stays within 32 bits. An
operation that is refused leaves the query as it was. A new query and a query built from a
definition are themselves reached by operations, from a query that holds nothing but an
empty container of constants; so a property of all reachable queries needs to be shown of
that one, of operations and of copies only. -/

namespace LiveSelect

namespace Query

/-- The query after an operation; a refusal leaves it as it was. -/
def after (q : Query) (op : Operation) : Query :=
  match q.perform op with
  | .ok (_, e) => e.query
  | .error _ => q

/-- The queries that a caller can hold while the counter does not overflow. -/
inductive Reachable : Query → Prop where
  | create (uuid : Uuid) (mint : Minting) : Reachable (create uuid mint)
  | createWith (settings : QuerySettings) (uuid : Uuid) (mint : Minting) :
    Reachable (createWith settings uuid mint)
  | build {d : QueryDefinition} {settings : QuerySettings} {uuid : Uuid} {mint : Minting}
    {q : Query} (hbuild : d.build settings uuid mint = .ok q) (hcount : q.count < UInt32.size) :
    Reachable q
  | copy {q : Query} (h : Reachable q) (uuid : Uuid) (mint : Minting) :
    Reachable (q.copy uuid mint)
  | after {q : Query} (h : Reachable q) (op : Operation)
    (hcount : (q.after op).count < UInt32.size) : Reachable (q.after op)

variable {q q' : Query} {op : Operation} {reply : Reply} {e : Edit}

theorem after_ok (h : q.perform op = .ok (reply, e)) : q.after op = e.query := by
  rw [after, h]

theorem after_error {err : QueryError} (h : q.perform op = .error err) : q.after op = q := by
  rw [after, h]

theorem WellFormed.after (h : q.WellFormed) (hq : q.count < UInt32.size) (op : Operation) :
    (q.after op).WellFormed := by
  cases hp : q.perform op with
  | error err => rwa [after_error hp]
  | ok x =>
    rw [after_ok hp]
    exact h.perform hq hp

/-! ## The counter -/

theorem count_foldl {α : Type} {f : Query → α → Query} (hf : ∀ q x, (f q x).count = q.count)
    (xs : List α) (q : Query) : (xs.foldl f q).count = q.count := by
  induction xs generalizing q with
  | nil => rfl
  | cons x rest ih => rw [List.foldl_cons, ih, hf]

/-- Wiring an item in changes the two lists and nothing else. -/
theorem attachItem_lists (q : Query) (i : ItemId) :
    ∃ selected sortList, q.attachItem i = { q with selected, sortList } := by
  unfold attachItem enterSortList syncSelection
  split_ifs <;> exact ⟨_, _, rfl⟩

theorem foldl_attachItem_lists (xs : List ItemId) (q : Query) :
    ∃ selected sortList, xs.foldl attachItem q = { q with selected, sortList } := by
  induction xs generalizing q with
  | nil => exact ⟨q.selected, q.sortList, rfl⟩
  | cons i rest ih =>
    rcases q.attachItem_lists i with ⟨s, t, hstep⟩
    rcases ih (q.attachItem i) with ⟨s', t', hrest⟩
    exact ⟨s', t', by rw [List.foldl_cons, hrest, hstep]⟩

theorem count_changeItem {i : ItemId} {p : ItemProperty} {f : Item → Item}
    (h : q.changeItem i p f = .ok e) (hp : ∀ q, (p.follow q i).count = q.count) :
    e.query.count = q.count := by
  rcases changeItem_ok h with ⟨item, -, ⟨-, heq⟩ | ⟨-, heq⟩⟩
  · rw [heq]
  · rw [heq]
    split
    · exact hp _
    · rfl

/-- Numbers are handed out, never taken back. -/
theorem count_perform (h : q.perform op = .ok (reply, e)) : q.count ≤ e.query.count := by
  cases op with
  | newTable identity uuid =>
    cases h
    exact Nat.le_succ q.count
  | addTable c =>
    rcases addTable_ok (Outcome.ofEdit_ok h).2 with ⟨-, -, -, heq⟩
    rcases foldl_attachItem_lists (q.itemsOf c) { q with tables := q.tables ++ [c] } with
      ⟨s, t, hlists⟩
    refine Nat.le_of_eq ?_
    rw [heq, hlists]
  | removeTable c =>
    rcases removeTable_ok (Outcome.ofEdit_ok h).2 with ⟨-, -, heq⟩
    refine Nat.le_of_eq ?_
    rw [heq, count_foldl (f := unlistItem) fun _ _ => rfl, count_dropJoins]
  | setContainerAlias c a =>
    rcases setContainerAlias_ok (Outcome.ofEdit_ok h).2 with ⟨-, heq⟩
    exact heq ▸ Nat.le_refl q.count
  | newConstants uuid =>
    cases h
    change q.count ≤ (q.newConstants uuid).2.query.count
    rw [newConstants_query, ← count_withoutConstants q]
    exact Nat.le_succ _
  | addItem c spec uuid =>
    rcases Outcome.map_ok h with ⟨x, hx, -, rfl⟩
    rcases addItem_ok hx with ⟨-, rfl⟩
    rw [insertItem_query]
    split
    · rcases (q.putItem c spec uuid).attachItem_lists q.nextId with ⟨s, t, hlists⟩
      rw [hlists]
      exact Nat.le_succ q.count
    · exact Nat.le_succ q.count
  | removeItem i =>
    rcases Outcome.map_ok h with ⟨x, hx, -, rfl⟩
    rw [(removeItem_ok hx).2]
    split
    · exact Nat.le_of_eq (count_dropJoins q _).symm
    · exact Nat.le_of_eq (count_dropJoins q _).symm
  | moveItem i index =>
    rcases moveItem_ok (Outcome.ofEdit_ok h).2 with ⟨-, -, heq⟩
    exact heq ▸ Nat.le_refl q.count
  | moveSortedItemToEnd i =>
    rcases moveSortedItemToEnd_ok (Outcome.ofEdit_ok h).2 with ⟨-, heq⟩
    exact heq ▸ Nat.le_refl q.count
  | setSelected i v =>
    refine Nat.le_of_eq (count_changeItem (Outcome.ofEdit_ok h).2 ?_).symm
    intro q
    simp only [ItemProperty.selected, syncSelection]
    split_ifs <;> rfl
  | setSortOrder i v | setGroupRole i v | setItemAlias i v | setFilter i v | setHaving i v
  | setItemName i v =>
    exact Nat.le_of_eq (count_changeItem (Outcome.ofEdit_ok h).2 fun _ => rfl).symm
  | setGrouping v =>
    cases h
    rw [setGrouping_query]
    split_ifs
    · exact Nat.le_refl _
    · exact Nat.le_of_eq
        (count_foldl (f := countItem) (fun _ _ => rfl) _ { q with canExecute := false }).symm
    · exact Nat.le_refl q.count
  | addJoin join =>
    rcases Outcome.map_ok h with ⟨x, hx, -, rfl⟩
    rcases addJoin_ok hx with ⟨l, r, _, _, -, -, -, -, -, -, heq⟩
    rw [heq]
    exact Nat.le_succ q.count
  | removeJoin j =>
    rcases Outcome.map_ok h with ⟨x, hx, -, rfl⟩
    rw [(removeJoin_ok hx).2]
    exact Nat.le_of_eq (count_dropJoins q [j]).symm
  | setOuter j side v =>
    rcases setOuter_ok (Outcome.ofEdit_ok h).2 with ⟨_, _, changes, -, -, -, heq⟩
    refine Nat.le_of_eq ?_
    rw [heq, count_foldl (f := (·.setFlag v)) fun _ _ => rfl]
  | setComparator j v =>
    rcases setComparator_ok (Outcome.ofEdit_ok h).2 with ⟨_, -, ⟨-, heq⟩ | ⟨-, heq⟩⟩
    · exact heq ▸ Nat.le_refl q.count
    · exact heq ▸ Nat.le_refl q.count
  | setName v | setZoomLevel v | setStreamingRowLimit v | setStreaming v | setDialect v
  | setRowLimit v =>
    cases h
    exact Nat.le_refl _
  | setGlobalFilter v =>
    cases h
    refine Nat.le_of_eq ?_
    rw [setGlobalFilter_query]
  | defineHandWritten text =>
    cases h
    refine Nat.le_of_eq ?_
    rw [defineHandWritten_query]
  | removeHandWritten =>
    cases h
    refine Nat.le_of_eq ?_
    rw [removeHandWritten_query]
  | setCanExecute v | startCompound | endCompound =>
    cases h
    exact (Edit.query_setCanExecute _ _).symm ▸ Nat.le_refl q.count

theorem count_le_after (q : Query) (op : Operation) : q.count ≤ (q.after op).count := by
  cases hp : q.perform op with
  | error err => exact (after_error hp).symm ▸ Nat.le_refl q.count
  | ok x =>
    rw [after_ok hp]
    exact count_perform hp

theorem count_le_foldl_after (ops : List Operation) (q : Query) :
    q.count ≤ (ops.foldl after q).count := by
  induction ops generalizing q with
  | nil => exact Nat.le_refl q.count
  | cons op rest ih => exact Nat.le_trans (count_le_after q op) (ih (q.after op))

/-- A run of operations that keeps the counter within 32 bits keeps a query reachable. -/
theorem Reachable.foldl_after (h : q.Reachable) (ops : List Operation)
    (hcount : (ops.foldl Query.after q).count < UInt32.size) :
    (ops.foldl Query.after q).Reachable := by
  induction ops generalizing q with
  | nil => exact h
  | cons op rest ih =>
    -- If the counter fits at the end of the run, it fits after its first operation.
    have hle := count_le_foldl_after rest (q.after op)
    exact ih (h.after op (Nat.lt_of_le_of_lt hle hcount)) hcount

/-! ## Runs of operations -/

/-- Operations lead from the first query to the second. -/
def Leads : Query → Query → Prop := Relation.ReflTransGen fun q q' => ∃ op, q' = q.after op

namespace Leads

theorem after (q : Query) (op : Operation) : Leads q (q.after op) := .single ⟨op, rfl⟩

theorem perform (op : Operation) (reply : Reply) (h : q.perform op = .ok (reply, e)) :
    Leads q e.query :=
  after_ok h ▸ after q op

/-- What every operation keeps, a run keeps, if the counter does not overflow on the way. -/
theorem induction {P : Query → Prop} (h : Leads q q')
    (hafter : ∀ q op, P q → (q.after op).count < UInt32.size → P (q.after op)) (hq : P q)
    (hcount : q'.count < UInt32.size) : P q' := by
  induction h with
  | refl => exact hq
  | tail _ hstep ih =>
    rcases hstep with ⟨op, rfl⟩
    exact hafter _ op (ih (Nat.lt_of_le_of_lt (count_le_after _ op) hcount)) hcount

end Leads

/-- Operations lead from the first query to the second, and containers stay known. -/
structure Extends (q q' : Query) : Prop where
  leads : Leads q q'
  constants : q'.constants = q.constants
  knows : ∀ c, q.containers.contains c → q'.containers.contains c

namespace Extends

theorem refl (q : Query) : Extends q q := ⟨.refl, rfl, fun _ => id⟩

theorem trans {q'' : Query} (h : Extends q q') (h' : Extends q' q'') : Extends q q'' :=
  ⟨h.leads.trans h'.leads, h'.constants.trans h.constants, fun c hc => h'.knows c (h.knows c hc)⟩

theorem newTable (q : Query) (identity : TableIdentity) (uuid : Uuid) :
    Extends q (q.newTable identity uuid).2 where
  leads := .perform (.newTable identity uuid) (.container q.nextId) rfl
  constants := rfl
  knows _ hc := (IdMap.contains_insert _ _ _ _).2 (Or.inr hc)

theorem setContainerAlias {c : ContainerId} {a : Option String}
    (h : q.setContainerAlias c a = .ok e) : Extends q e.query where
  leads := .perform (.setContainerAlias c a) .done (by rw [perform, h]; rfl)
  constants := by
    rw [(setContainerAlias_ok h).2]
    rfl
  knows k hk := by
    rw [(setContainerAlias_ok h).2]
    exact (IdMap.contains_modify _ _ _ _).2 hk

theorem addTable {c : ContainerId} (h : q.addTable c = .ok e) : Extends q e.query := by
  rcases addTable_ok h with ⟨-, -, -, heq⟩
  rcases foldl_attachItem_lists (q.itemsOf c) { q with tables := q.tables ++ [c] } with
    ⟨s, t, hlists⟩
  refine ⟨.perform (.addTable c) .done (by rw [perform, h]; rfl), ?_, ?_⟩
  · rw [heq, hlists]
  · rw [heq, hlists]
    exact fun _ => id

theorem insertItem {c : ContainerId} (hc : q.containers.contains c) (spec : ItemSpec)
    (uuid : Uuid) : Extends q (q.insertItem c spec uuid).2.query := by
  have hadd : q.addItem c spec uuid = .ok (q.insertItem c spec uuid) := by
    rw [addItem, hc]
    rfl
  rcases (q.putItem c spec uuid).attachItem_lists q.nextId with ⟨s, t, hlists⟩
  have hput : ∀ k, q.containers.contains k → (q.putItem c spec uuid).containers.contains k :=
    fun k => (IdMap.contains_modify _ _ _ _).2
  refine ⟨.perform (.addItem c spec uuid) _ (by rw [perform, hadd]; rfl), ?_, ?_⟩
  · rw [insertItem_query]
    split
    · rw [hlists]
      rfl
    · rfl
  · rw [insertItem_query]
    split
    · rw [hlists]
      exact hput
    · exact hput

end Extends

/-! ## New queries and definitions -/

theorem extends_addConstant (mint : Minting) (hc : q.containers.contains q.constants)
    (names : List String) : Extends q (names.foldl (addConstant mint) q) := by
  induction names generalizing q with
  | nil => exact .refl q
  | cons name rest ih =>
    have hstep : Extends q (addConstant mint q name) := .insertItem hc _ _
    -- The constants stay where they are for the rest of the names.
    refine hstep.trans (ih ?_)
    rw [hstep.constants]
    exact hstep.knows _ hc

theorem bare_knows_constants (uuid : Uuid) (mint : Minting) :
    (bare uuid mint).containers.contains (bare uuid mint).constants := by
  exact (IdMap.contains_insert _ _ _ _).2 (Or.inl rfl)

/-- A new query is reached by operations. -/
theorem extends_create (uuid : Uuid) (mint : Minting) :
    Extends (bare uuid mint) (create uuid mint) :=
  extends_addConstant mint (bare_knows_constants uuid mint) builtinConstants

theorem extends_settings (q : Query) (settings : QuerySettings) :
    Extends q { q with
      rowLimit := settings.rowLimit
      streamingRowLimit := settings.streamingRowLimit
      streaming := settings.streaming
      dialect := settings.dialect } := by
  refine ⟨?_, rfl, fun _ => id⟩
  refine (Leads.after q (.setRowLimit settings.rowLimit)).trans ?_
  refine (Leads.after _ (.setStreamingRowLimit settings.streamingRowLimit)).trans ?_
  refine (Leads.after _ (.setStreaming settings.streaming)).trans ?_
  exact Leads.after _ (.setDialect settings.dialect)

theorem extends_createWith (settings : QuerySettings) (uuid : Uuid) (mint : Minting) :
    Extends (bare uuid mint) (createWith settings uuid mint) :=
  (extends_create uuid mint).trans (extends_settings _ settings)

end Query

namespace QueryDefinition

open Query (Leads Extends)

variable {q q' : Query}

theorem bind_ok {ε α β : Type} {x : Except ε α} {f : α → Except ε β} {b : β}
    (h : x >>= f = .ok b) : ∃ a, x = .ok a ∧ f a = .ok b := by
  cases x with
  | error err => cases h
  | ok a => exact ⟨a, rfl, h⟩

theorem bind_of_ok {ε α β : Type} {x : Except ε α} {a : α} (h : x = .ok a) (f : α → Except ε β) :
    x >>= f = f a := by
  rw [h]
  rfl

/-- What each accepted step of a loop keeps, the whole loop keeps. -/
theorem foldlM_ok {α β : Type} {P : β → Prop} {f : β → α → Except DefinitionError β}
    (hf : ∀ b a b', P b → f b a = .ok b' → P b') {xs : List α} {b b' : β} (hb : P b)
    (h : xs.foldlM f b = .ok b') : P b' := by
  induction xs generalizing b with
  | nil =>
    cases h
    exact hb
  | cons x rest ih =>
    rw [List.foldlM_cons] at h
    rcases bind_ok h with ⟨c, hc, hrest⟩
    exact ih (hf b x c hb hc) hrest

theorem accept_ok {x : Except QueryError Edit} (h : accept x = .ok q) :
    ∃ e, x = .ok e ∧ q = e.query := by
  cases x with
  | error err => cases h
  | ok e =>
    cases h
    exact ⟨e, rfl, rfl⟩

theorem extends_addColumn {mint : Minting} {c : ContainerId} {kind : ItemKind} {d d' : Draft}
    {column : ColumnDefinition} (h : d.addColumn mint c kind column = .ok d') :
    Extends d.query d'.query := by
  unfold Draft.addColumn at h
  simp only at h
  split at h
  · rename_i id e hadd
    obtain ⟨hknown, heq⟩ := Query.addItem_ok hadd
    cases h
    cases heq
    exact .insertItem hknown _ _
  · cases h

theorem extends_addTable {mint : Minting} {d d' : Draft} {table : TableDefinition}
    (h : d.addTable mint table = .ok d') : Extends d.query d'.query := by
  unfold Draft.addTable at h
  rcases bind_ok h with ⟨q₁, hq₁, h⟩
  rcases bind_ok h with ⟨d₂, hd₂, h⟩
  rcases bind_ok h with ⟨q₃, hq₃, h⟩
  rcases accept_ok hq₁ with ⟨e₁, he₁, rfl⟩
  rcases accept_ok hq₃ with ⟨e₃, he₃, rfl⟩
  cases h
  -- A table is made and named, gets its columns, and is put into the statement.
  have hnew := (Extends.newTable _ _ _).trans (.setContainerAlias he₁)
  have hcolumns : Extends e₁.query d₂.query :=
    foldlM_ok (P := fun d => Extends e₁.query d.query)
      (fun _ _ _ hd hstep => hd.trans (extends_addColumn hstep)) (.refl _) hd₂
  exact (hnew.trans hcolumns).trans (.addTable he₃)

theorem extends_addConstant {mint : Minting} {d d' : Draft} {constant : ColumnDefinition}
    (h : d.addConstant mint constant = .ok d') : Extends d.query d'.query := by
  unfold Draft.addConstant at h
  split at h
  · cases h
    exact .refl _
  · exact extends_addColumn h

theorem leads_addJoin {join : JoinDefinition} (h : addJoin q join = .ok q') : Leads q q' := by
  unfold addJoin at h
  rcases bind_ok h with ⟨left, -, h⟩
  rcases bind_ok h with ⟨right, -, h⟩
  rcases accept_ok h with ⟨e, he, rfl⟩
  let { comparator, leftOuter, rightOuter, .. } := join
  -- The join of a definition is made by one operation, whose reply is not looked at.
  let new : Join := { left, right, comparator, leftOuter, rightOuter }
  cases hadd : q.addJoin new with
  | error err =>
    rw [hadd] at he
    cases he
  | ok x =>
    rw [hadd] at he
    cases he
    exact .perform (.addJoin new) (.join x.1) (by rw [Query.perform, hadd]; rfl)

/-- An accepted edit is an operation that went through. -/
theorem leads_accept (op : Operation) {x : Except QueryError Edit}
    (h : accept x = .ok q') (hop : q.perform op = .ofEdit x) : Leads q q' := by
  rcases accept_ok h with ⟨e, rfl, rfl⟩
  exact .perform op .done hop

theorem leads_setProperties {column : ItemId × ColumnDefinition}
    (h : setProperties q column = .ok q') : Leads q q' := by
  rcases column with ⟨i, d⟩
  -- What follows the role is the same with a role and without.
  have hrest : ∀ q₁ : Query, (do
      let q ← accept (q₁.setItemAlias i d.aliasName)
      let q ← accept (q.setFilter i d.filter)
      let q ← accept (q.setHaving i d.having)
      let q ← accept (q.setSortOrder i d.sortOrder)
      accept (q.setSelected i d.selected)) = .ok q' → Leads q₁ q' := by
    intro q₁ h
    rcases bind_ok h with ⟨q₂, hname, h⟩
    rcases bind_ok h with ⟨q₃, hfilter, h⟩
    rcases bind_ok h with ⟨q₄, hhaving, h⟩
    rcases bind_ok h with ⟨q₅, hsort, hselected⟩
    refine (leads_accept (.setItemAlias i d.aliasName) hname rfl).trans ?_
    refine (leads_accept (.setFilter i d.filter) hfilter rfl).trans ?_
    refine (leads_accept (.setHaving i d.having) hhaving rfl).trans ?_
    refine (leads_accept (.setSortOrder i d.sortOrder) hsort rfl).trans ?_
    exact leads_accept (.setSelected i d.selected) hselected rfl
  unfold setProperties at h
  simp only at h
  split at h
  · rename_i role _
    rcases bind_ok h with ⟨q₁, hrole, h⟩
    exact (leads_accept (.setGroupRole i role) hrole rfl).trans (hrest q₁ h)
  · exact hrest q h

theorem extends_start (q : Query) (name : Option String) :
    Extends q { q with name }.startCompound.query := by
  refine ⟨(Leads.after q (.setName name)).trans (Leads.after _ .startCompound), ?_, ?_⟩
  · exact (Edit.query_setCanExecute _ _).symm ▸ rfl
  · exact (Edit.query_setCanExecute _ _).symm ▸ fun _ => id

/-- A query that is built from a definition is reached by operations from a bare one. -/
theorem leads_build {d : QueryDefinition} {settings : QuerySettings} {uuid : Uuid}
    {mint : Minting} (h : d.build settings uuid mint = .ok q) : Leads (Query.bare uuid mint) q := by
  unfold build at h
  rcases bind_ok h with ⟨laid, htables, h⟩
  rcases bind_ok h with ⟨draft, hconstants, h⟩
  rcases bind_ok h with ⟨q₁, hjoins, h⟩
  rcases bind_ok h with ⟨q₂, hcolumns, h⟩
  -- Tables and constants extend the new query; from the joins on operations are enough.
  have hstart := (Query.extends_createWith settings uuid mint).trans (extends_start _ d.name)
  have htables' : Extends (Query.bare uuid mint) laid.query :=
    foldlM_ok (P := fun d => Extends (Query.bare uuid mint) d.query)
      (fun _ _ _ hd hstep => hd.trans (extends_addTable hstep)) hstart htables
  have hconstants' : Extends (Query.bare uuid mint) draft.query :=
    foldlM_ok (P := fun d => Extends (Query.bare uuid mint) d.query)
      (fun _ _ _ hd hstep => hd.trans (extends_addConstant hstep)) htables' hconstants
  have hjoins' : Leads _ q₁ :=
    foldlM_ok (P := Leads _) (fun _ _ _ hq hstep => hq.trans (leads_addJoin hstep)) .refl hjoins
  have hgrouping : Leads q₁ (q₁.setGrouping d.grouping).query := .after q₁ (.setGrouping d.grouping)
  have hcolumns' : Leads _ q₂ :=
    foldlM_ok (P := Leads _) (fun _ _ _ hq hstep => hq.trans (leads_setProperties hstep)) .refl
      hcolumns
  let q₃ := (q₂.setGlobalFilter d.globalFilter).query.endCompound.query
  have hend : Leads q₂ q₃ :=
    (Leads.after q₂ (.setGlobalFilter d.globalFilter)).trans (Leads.after _ .endCompound)
  have hlast : Leads q₃ q := by
    simp only [pure, Except.pure] at h
    cases h
    split
    · rename_i text _
      exact .after q₃ (.defineHandWritten text)
    · exact .refl
  exact hconstants'.leads.trans
    (hjoins'.trans (hgrouping.trans (hcolumns'.trans (hend.trans hlast))))

end QueryDefinition

namespace Query

theorem count_insertItem (q : Query) (c : ContainerId) (spec : ItemSpec) (uuid : Uuid) :
    (q.insertItem c spec uuid).2.query.count = q.count + 1 := by
  rw [insertItem_query]
  split
  · rcases (q.putItem c spec uuid).attachItem_lists q.nextId with ⟨s, t, hlists⟩
    rw [hlists]
    rfl
  · rfl

theorem count_create (uuid : Uuid) (mint : Minting) : (create uuid mint).count = 4 := by
  simp only [create, builtinConstants, List.foldl, addConstant, count_insertItem]
  rfl

theorem count_createWith (settings : QuerySettings) (uuid : Uuid) (mint : Minting) :
    (createWith settings uuid mint).count = 4 := by
  simp only [createWith, count_create]

namespace Reachable

/-- What a bare query has, and operations and copies keep, every reachable query has. -/
theorem induction {P : Query → Prop} (hbare : ∀ uuid mint, P (bare uuid mint))
    (hafter : ∀ q op, P q → (q.after op).count < UInt32.size → P (q.after op))
    (hcopy : ∀ q uuid mint, P q → P (q.copy uuid mint)) {q : Query} (h : q.Reachable) : P q := by
  induction h with
  | create uuid mint =>
    refine (extends_create uuid mint).leads.induction hafter (hbare uuid mint) ?_
    rw [count_create]
    decide
  | createWith settings uuid mint =>
    refine (extends_createWith settings uuid mint).leads.induction hafter (hbare uuid mint) ?_
    rw [count_createWith]
    decide
  | @build d settings uuid mint q hbuild hcount =>
    exact (QueryDefinition.leads_build hbuild).induction hafter (hbare uuid mint) hcount
  | copy _ uuid mint ih => exact hcopy _ uuid mint ih
  | after _ op hcount ih => exact hafter _ op ih hcount

end Reachable

end Query

end LiveSelect
