import LiveSelect.Proofs.Notices

/-! # What an observer can keep up to date

An observer may keep a mirror of a query: the items of its attached containers, its tables,
its joins and its settings. It takes new entities from the query that it sees when they are
announced, and everything else from the events alone. Here every step of an edit is shown
to send notices that fit the mirror, and to leave behind the mirror of the changed query. -/

namespace LiveSelect

/-! ## Parts of a map -/

namespace IdMap

variable {s : Entity} {α : Type} {m : IdMap s α} {p p' : Id s → Bool} {i : Id s} {a : α}

/-- The part of a map whose ids have a property. -/
def restrict (m : IdMap s α) (p : Id s → Bool) : IdMap s α :=
  ⟨m.entries.filter fun x => p x.1, m.ascending.filter _⟩

theorem get?_restrict (m : IdMap s α) (p : Id s → Bool) (k : Id s) :
    (m.restrict p).get? k = if p k then m.get? k else none := by
  simp only [get?, restrict]
  induction m.entries with
  | nil => simp
  | cons x rest ih =>
    obtain ⟨i, a⟩ := x
    by_cases hi : p i <;> by_cases hk : k = i <;> simp_all [List.lookup_cons] <;> grind

theorem restrict_congr (h : ∀ k, m.contains k → p k = p' k) : m.restrict p = m.restrict p' := by
  apply ext_get?
  intro k
  rw [get?_restrict, get?_restrict]
  by_cases hk : m.contains k
  · rw [h k hk]
  · rw [get?_eq_none hk, ite_self, ite_self]

theorem insert_restrict (h : m.get? i = some a) :
    (m.restrict p).insert i a = m.restrict fun k => p k || k = i := by
  apply ext_get?
  intro k
  rw [get?_insert, get?_restrict, get?_restrict]
  by_cases hk : k = i
  · rw [if_pos hk, hk, h]
    simp
  · simp [hk]

theorem erase_restrict : (m.restrict p).erase i = m.restrict fun k => p k && k ≠ i := by
  apply ext_get?
  intro k
  rw [get?_erase, get?_restrict, get?_restrict]
  by_cases hk : k = i <;> simp [hk]

theorem restrict_erase : (m.erase i).restrict p = (m.restrict p).erase i := by
  apply ext_get?
  intro k
  simp only [get?_erase, get?_restrict]
  by_cases hk : k = i <;> simp [hk]

theorem restrict_insert (h : p i = false) : (m.insert i a).restrict p = m.restrict p := by
  apply ext_get?
  intro k
  rw [get?_restrict, get?_restrict, get?_insert]
  by_cases hk : k = i
  · rw [hk, h]
    rfl
  · rw [if_neg hk]

theorem restrict_modify (f : α → α) :
    (m.modify i f).restrict p = (m.restrict p).modify i f := by
  apply ext_get?
  intro k
  simp only [get?_modify, get?_restrict]
  by_cases hk : k = i <;> by_cases hp : p k <;> simp_all

/-- Modifying an entry depends on what happens to its value alone. -/
theorem modify_congr {f g : α → α} (h : ∀ a, m.get? i = some a → f a = g a) :
    m.modify i f = m.modify i g := by
  apply ext_get?
  intro k
  simp only [get?_modify]
  split
  · rename_i hk
    subst hk
    cases hget : m.get? k with
    | none => rfl
    | some a => rw [Option.map_some, Option.map_some, h a hget]
  · rfl

end IdMap

/-! ## Values of properties -/

/-- The value of a property that items have. -/
def Item.value? (item : Item) : Property → Option PropertyValue
  | .name => some (.text (some item.name))
  | .selected => some (.flag item.selected)
  | .sortOrder => some (.sortOrder item.sortOrder)
  | .groupRole => some (.groupRole item.groupRole)
  | .aliasName => some (.text item.aliasName)
  | .filter => some (.text item.filter)
  | .having => some (.text item.having)
  | _ => none

/-- The item with a property set. -/
def Item.withValue (item : Item) : Property → PropertyValue → Item
  | .name, .text (some name) => { item with name }
  | .selected, .flag selected => { item with selected }
  | .sortOrder, .sortOrder sortOrder => { item with sortOrder }
  | .groupRole, .groupRole groupRole => { item with groupRole }
  | .aliasName, .text aliasName => { item with aliasName }
  | .filter, .text filter => { item with filter }
  | .having, .text having => { item with having }
  | _, _ => item

/-- The value of a property that joins have. -/
def Join.value? (join : Join) : Property → Option PropertyValue
  | .comparator => some (.text (some join.comparator))
  | .leftOuter => some (.flag join.leftOuter)
  | .rightOuter => some (.flag join.rightOuter)
  | _ => none

/-- The join with a property set. -/
def Join.withValue (join : Join) : Property → PropertyValue → Join
  | .comparator, .text (some comparator) => { join with comparator }
  | .leftOuter, .flag leftOuter => { join with leftOuter }
  | .rightOuter, .flag rightOuter => { join with rightOuter }
  | _, _ => join

theorem Join.value?_outerProperty (join : Join) (side : Side) :
    join.value? (Query.outerProperty side) = some (.flag (join.outer side)) := by
  cases side <;> rfl

theorem Join.withValue_outerProperty (join : Join) (side : Side) (outer : Bool) :
    join.withValue (Query.outerProperty side) (.flag outer) = join.withOuter side outer := by
  cases side <;> rfl

/-! ## Mirrors -/

/-- Whether an item belongs to an attached container. -/
def Query.isPart (q : Query) (i : ItemId) : Bool := (q.home? i).any q.isAttached

/-- What an observer knows of a query. -/
structure Mirror where
  items : IdMap .item Item
  tables : List ContainerId
  joins : IdMap .join Join
  grouping : Bool
  globalFilter : Option String
  rowLimit : Nat
  handWritten : Option String

namespace Mirror

/-- A mirror of a query that shows some of its items and the given tables. -/
def showing (q : Query) (shown : ItemId → Bool) (tables : List ContainerId) : Mirror where
  items := q.items.restrict shown
  tables := tables
  joins := q.joins
  grouping := q.grouping
  globalFilter := q.globalFilter
  rowLimit := q.rowLimit.toNat
  handWritten := q.handWritten

/-- The mirror of a query: the items of its attached containers, its tables, its joins and
its settings. -/
def of (q : Query) : Mirror := showing q q.isPart q.tables

/-- The value of a property that the query itself has. -/
def value? (m : Mirror) : Property → Option PropertyValue
  | .grouping => some (.flag m.grouping)
  | .globalFilter => some (.text m.globalFilter)
  | .rowLimit => some (.number m.rowLimit)
  | .handWritten => some (.text m.handWritten)
  | _ => none

/-- The mirror with a property of the query itself set. -/
def withValue (m : Mirror) : Property → PropertyValue → Mirror
  | .grouping, .flag grouping => { m with grouping }
  | .globalFilter, .text globalFilter => { m with globalFilter }
  | .rowLimit, .number rowLimit => { m with rowLimit }
  | .handWritten, .text handWritten => { m with handWritten }
  | _, _ => m

/-- The mirror after a notice. What an added item or join is like is read from the query as
it is seen at that moment. -/
def hear (m : Mirror) (n : Notice) : Mirror :=
  match n.event with
  | .itemAdded i =>
    match n.seen.item? i with
    | some item => { m with items := m.items.insert i item }
    | none => m
  | .itemRemoved i _ => { m with items := m.items.erase i }
  | .itemChanged i change =>
    { m with items := m.items.modify i (·.withValue change.property change.new) }
  | .tableAdded c => { m with tables := m.tables ++ [c] }
  | .tableRemoved c => { m with tables := m.tables.erase c }
  | .joinAdded j =>
    match n.seen.join? j with
    | some join => { m with joins := m.joins.insert j join }
    | none => m
  | .joinRemoved j _ => { m with joins := m.joins.erase j }
  | .joinChanged j change =>
    { m with joins := m.joins.modify j (·.withValue change.property change.new) }
  | .queryChanged change => m.withValue change.property change.new
  | .itemMoved _ | .readyToExecute => m

/-- A notice fits a mirror: what is added is new and can be seen, what is removed is there
and is as it was said to be, and what is changed had the old value. A change may also be
that of an item which is not mirrored because its container is not attached. -/
def Fits (m : Mirror) (n : Notice) : Prop :=
  match n.event with
  | .itemAdded i => m.items.get? i = none ∧ ∃ item, n.seen.item? i = some item
  | .itemRemoved i was => m.items.get? i = some was
  | .itemMoved i => ∃ item, m.items.get? i = some item
  | .itemChanged i change =>
    (∃ item, m.items.get? i = some item ∧ item.value? change.property = some change.old) ∨
      m.items.get? i = none ∧
        ∃ item, n.seen.item? i = some item ∧ n.seen.isAttached item.container = false
  | .tableAdded c => c ∉ m.tables
  | .tableRemoved c => c ∈ m.tables
  | .joinAdded j => m.joins.get? j = none ∧ ∃ join, n.seen.join? j = some join
  | .joinRemoved j was => m.joins.get? j = some was
  | .joinChanged j change =>
    ∃ join, m.joins.get? j = some join ∧ join.value? change.property = some change.old
  | .queryChanged change => m.value? change.property = some change.old
  | .readyToExecute => True

/-- The mirror after several notices. -/
def hearAll (m : Mirror) (ns : List Notice) : Mirror := ns.foldl hear m

/-- Every notice fits the mirror that has heard those before it. -/
def Accepts (m : Mirror) : List Notice → Prop
  | [] => True
  | n :: rest => m.Fits n ∧ (m.hear n).Accepts rest

variable {m m' m'' : Mirror} {q q' : Query} {shown shown' : ItemId → Bool}
  {ts : List ContainerId}

theorem accepts_append {ns ns' : List Notice} :
    m.Accepts (ns ++ ns') ↔ m.Accepts ns ∧ (m.hearAll ns).Accepts ns' := by
  induction ns generalizing m with
  | nil => exact (iff_of_eq (true_and _)).symm
  | cons n rest ih =>
    simp only [List.cons_append, Accepts, ih, and_assoc]
    rfl

/-- Notices fit one after the other, and lead from one mirror to the other. -/
structure Follows (m : Mirror) (ns : List Notice) (m' : Mirror) : Prop where
  accepts : m.Accepts ns
  hears : m.hearAll ns = m'

namespace Follows

theorem refl (m : Mirror) : m.Follows [] m := ⟨trivial, rfl⟩

theorem trans {ns ns' : List Notice} (h : m.Follows ns m') (h' : m'.Follows ns' m'') :
    m.Follows (ns ++ ns') m'' where
  accepts := accepts_append.2 ⟨h.accepts, h.hears ▸ h'.accepts⟩
  hears := by
    rw [← h'.hears, ← h.hears]
    exact List.foldl_append

theorem single {n : Notice} (h : m.Fits n) : m.Follows [n] (m.hear n) := ⟨⟨h, trivial⟩, rfl⟩

end Follows

/-! ## What mirrors show -/

theorem showing_item? (i : ItemId) :
    (showing q shown ts).items.get? i = if shown i then q.item? i else none :=
  IdMap.get?_restrict q.items shown i

theorem showing_congr (h : ∀ i, q.items.contains i → shown i = shown' i) :
    showing q shown ts = showing q shown' ts := by
  unfold showing
  rw [IdMap.restrict_congr h]

/-- Exactly the items of attached containers are mirrored. -/
theorem of_item? (i : ItemId) (item : Item) :
    (of q).items.get? i = some item ↔
      q.item? i = some item ∧ q.isAttached item.container = true := by
  rw [of, showing_item?]
  cases hitem : q.item? i with
  | none => simp
  | some item' =>
    rw [Query.isPart, Query.home?_of_item? hitem, Option.any_some, Option.ite_none_right_eq_some,
      Option.some.injEq]
    constructor
    · rintro ⟨hattached, rfl⟩
      exact ⟨rfl, hattached⟩
    · rintro ⟨rfl, hattached⟩
      exact ⟨hattached, rfl⟩

/-- A mirror that shows the right items and tables is the mirror of the query. -/
theorem showing_eq_of (h : ∀ i item, q.item? i = some item →
    shown i = q.isAttached item.container) : showing q shown q.tables = of q := by
  refine showing_congr fun i hi => ?_
  obtain ⟨item, hitem⟩ := (IdMap.contains_iff _ i).1 hi
  rw [h i item hitem, Query.isPart, Query.home?_of_item? hitem, Option.any_some]

end Mirror

/-! ## Steps -/

namespace Edit

open Mirror (showing Fits Follows)

variable {m : Mirror} {e : Edit} {shown shown' : ItemId → Bool} {ts ts' : List ContainerId}
  {i : ItemId} {j : JoinId}

/-- The notices so far have made a given mirror show these items and tables of the query as
it is now. -/
def Mirrored (m : Mirror) (shown : ItemId → Bool) (ts : List ContainerId) (e : Edit) : Prop :=
  m.Follows e.notices (showing e.query shown ts)

namespace Mirrored

theorem start (q : Query) (shown : ItemId → Bool) (ts : List ContainerId) :
    Mirrored (showing q shown ts) shown ts (start q) :=
  .refl _

/-- Quiet changes may concern only what is not shown. -/
theorem update (h : Mirrored m shown ts e) {f : Query → Query}
    (hf : showing (f e.query) shown' ts' = showing e.query shown ts) :
    Mirrored m shown' ts' (e.update f) := by
  unfold Mirrored
  rw [query_update, hf]
  exact h

/-- A change and its notice. -/
theorem step (h : Mirrored m shown ts e) {f : Query → Query} {event : Event}
    (hfits : (showing e.query shown ts).Fits ⟨event, f e.query⟩)
    (hears : (showing e.query shown ts).hear ⟨event, f e.query⟩ =
      showing (f e.query) shown' ts') :
    Mirrored m shown' ts' ((e.update f).announce event) := by
  unfold Mirrored
  rw [query_announce, query_update, ← hears]
  exact h.trans (.single hfits)

theorem congr (h : Mirrored m shown ts e)
    (hshown : ∀ i, e.query.items.contains i → shown i = shown' i) : Mirrored m shown' ts e := by
  unfold Mirrored
  rw [← Mirror.showing_congr hshown]
  exact h

end Mirrored

end Edit

namespace Edit.Mirrored

open Mirror (showing Fits)

variable {m : Mirror} {e : Edit} {shown : ItemId → Bool} {ts : List ContainerId}
  {i : ItemId} {j : JoinId} {item : Item} {l : List ItemId}

/-- An item that comes has to be known, and not to be shown yet. -/
theorem attachItem (h : Mirrored m shown ts e) (hitem : e.query.item? i = some item)
    (hi : shown i = false) :
    Mirrored m (fun k => shown k || k = i) ts (e.attachItem i) := by
  obtain ⟨selected, sortList, hlists⟩ := e.query.attachItem_lists i
  have hseen : (e.query.attachItem i).item? i = some item := by
    rw [hlists]
    exact hitem
  rw [attachItem_eq]
  refine h.step ⟨?_, item, hseen⟩ ?_
  · rw [Mirror.showing_item?, hi]
    rfl
  · simp only [Mirror.hear, hseen]
    rw [hlists]
    simp only [showing, Mirror.mk.injEq, and_true]
    exact IdMap.insert_restrict hitem

/-- An item that goes has to be shown. -/
theorem detachItem (h : Mirrored m shown ts e) (hitem : e.query.item? i = some item)
    (hi : shown i = true) :
    Mirrored m (fun k => shown k && k ≠ i) ts (e.detachItem i) := by
  rw [detachItem_eq hitem]
  refine h.step ?_ ?_
  · change (showing e.query shown ts).items.get? i = some item
    rw [Mirror.showing_item?, hi]
    exact hitem
  · simp only [Mirror.hear, Query.unlistItem, showing, Mirror.mk.injEq, and_true]
    exact IdMap.erase_restrict

theorem dropJoin (h : Mirrored m shown ts e) (j : JoinId) :
    Mirrored m shown ts (e.dropJoin j) := by
  rcases e.dropJoin_cases j with ⟨join, hjoin, hjoins, heq⟩ | ⟨-, heq⟩
  · rw [heq]
    refine h.step hjoin ?_
    rw [Query.dropJoin_eq, hjoins]
    rfl
  · rw [heq]
    exact h

/-- What is forgotten need not be shown any more, nor hidden. -/
theorem forgetItem (h : Mirrored m shown ts e) (hitem : e.query.item? i = some item)
    (hi : shown i = true) : Mirrored m shown ts (Query.forgetItem e i) := by
  rw [forgetItem_eq]
  refine (h.detachItem hitem hi).update ?_
  rw [query_detachItem]
  simp only [showing, Query.unlistItem, Mirror.mk.injEq, and_true]
  rw [IdMap.restrict_erase, IdMap.erase_restrict]

theorem countColumn (h : Mirrored m shown ts e) (hitem : e.query.item? i = some item)
    (hi : shown i = true) :
    Mirrored m shown ts (Query.countColumn e (i, item.groupRole)) := by
  refine h.step (f := (·.countItem (i, item.groupRole))) (Or.inl ⟨item, ?_, rfl⟩) ?_
  · rw [Mirror.showing_item?, hi]
    exact hitem
  · simp only [Mirror.hear, showing, Query.countItem, Query.updateItem, Mirror.mk.injEq, and_true]
    exact (IdMap.restrict_modify _).symm

theorem flipOuter (h : Mirrored m shown ts e) {join : Join} {side : Side} {outer : Bool}
    (hjoin : e.query.join? j = some join) (hside : join.outer side = !outer) :
    Mirrored m shown ts (Query.flipOuter outer e (j, side)) := by
  refine h.step (f := (·.setFlag outer (j, side))) ⟨join, hjoin, ?_⟩ ?_
  · rw [Join.value?_outerProperty, hside]
  · simp only [Mirror.hear, Join.withValue_outerProperty]
    rfl

theorem setCanExecute (h : Mirrored m shown ts e) (value : Bool) :
    Mirrored m shown ts (e.setCanExecute value) := by
  rcases e.setCanExecute_cases value with heq | heq
  · rw [heq]
    exact h.update rfl
  · rw [heq]
    exact h.step trivial rfl

/-! ## Loops -/

theorem each_dropJoin (h : Mirrored m shown ts e) (js : List JoinId) :
    Mirrored m shown ts (e.each js Edit.dropJoin) :=
  each_induction (fun _ j _ he => he.dropJoin j) h

theorem each_attachItem (h : Mirrored m shown ts e) (hl : l.Nodup)
    (hknown : ∀ i ∈ l, ∃ item, e.query.item? i = some item) (hnew : ∀ i ∈ l, shown i = false) :
    Mirrored m (fun k => shown k || l.contains k) ts (e.each l Edit.attachItem) := by
  refine (each_done (M := fun done e' => e'.query.items = e.query.items ∧
    Mirrored m (fun k => shown k || done.contains k) ts e') hl ?_ ⟨rfl, ?_⟩).2
  · rintro done e' i hi hdone ⟨hitems, he⟩
    obtain ⟨item, hitem⟩ := hknown i hi
    obtain ⟨selected, sortList, hlists⟩ := e'.query.attachItem_lists i
    have hitem' : e'.query.item? i = some item := by
      rw [Query.item?, hitems]
      exact hitem
    have hni : i ∉ done := fun hmem => hdone i hmem rfl
    refine ⟨by rw [query_attachItem, hlists]; exact hitems, ?_⟩
    refine (he.attachItem hitem' (by simp [hnew i hi, hni])).congr fun k _ => ?_
    simp [Bool.or_assoc]
  · exact h.congr fun k _ => by simp

theorem each_detachItem (h : Mirrored m shown ts e) (hl : l.Nodup)
    (hknown : ∀ i ∈ l, ∃ item, e.query.item? i = some item) (hshown : ∀ i ∈ l, shown i = true) :
    Mirrored m (fun k => shown k && !l.contains k) ts (e.each l Edit.detachItem) := by
  refine (each_done (M := fun done e' => e'.query.items = e.query.items ∧
    Mirrored m (fun k => shown k && !done.contains k) ts e') hl ?_ ⟨rfl, ?_⟩).2
  · rintro done e' i hi hdone ⟨hitems, he⟩
    obtain ⟨item, hitem⟩ := hknown i hi
    have hitem' : e'.query.item? i = some item := by
      rw [Query.item?, hitems]
      exact hitem
    have hni : i ∉ done := fun hmem => hdone i hmem rfl
    refine ⟨by rw [query_detachItem]; exact hitems, ?_⟩
    refine (he.detachItem hitem' (by simp [hshown i hi, hni])).congr fun k _ => ?_
    simp [Bool.and_assoc]
  · exact h.congr fun k _ => by simp

theorem each_forgetItem (h : Mirrored m shown ts e) (hl : l.Nodup)
    (hknown : ∀ i ∈ l, ∃ item, e.query.item? i = some item) (hshown : ∀ i ∈ l, shown i = true) :
    Mirrored m shown ts (e.each l Query.forgetItem) := by
  refine (each_done (M := fun done e' => (∀ k, k ∉ done → e'.query.item? k = e.query.item? k) ∧
    Mirrored m shown ts e') hl ?_ ⟨fun _ _ => rfl, h⟩).2
  rintro done e' i hi hdone ⟨hitems, he⟩
  obtain ⟨item, hitem⟩ := hknown i hi
  have hitem' : e'.query.item? i = some item := by
    rw [hitems i fun hmem => hdone i hmem rfl]
    exact hitem
  refine ⟨fun k hk => ?_, he.forgetItem hitem' (hshown i hi)⟩
  rw [List.mem_append, List.mem_singleton, not_or] at hk
  rw [query_forgetItem, ← hitems k hk.1]
  simp only [Query.discardItem, Query.unlistItem, Query.item?, IdMap.get?_erase, if_neg hk.2]

/-- Each column still has the role that was read before the loop when its turn comes. -/
theorem each_countColumn (h : Mirrored m shown ts e) {columns : List (ItemId × GroupRole)}
    (hl : columns.Pairwise fun x y => x.1 ≠ y.1)
    (hroles : ∀ x ∈ columns, ∃ item, e.query.item? x.1 = some item ∧ item.groupRole = x.2)
    (hshown : ∀ x ∈ columns, shown x.1 = true) :
    Mirrored m shown ts (e.each columns Query.countColumn) := by
  refine (each_done (M := fun done e' =>
    (∀ k, (∀ y ∈ done, y.1 ≠ k) → e'.query.item? k = e.query.item? k) ∧
      Mirrored m shown ts e') hl ?_ ⟨fun _ _ => rfl, h⟩).2
  rintro done e' ⟨i, role⟩ hx hdone ⟨hitems, he⟩
  obtain ⟨item, hitem, rfl⟩ := hroles _ hx
  refine ⟨fun k hk => ?_, he.countColumn (by rw [hitems i hdone]; exact hitem) (hshown _ hx)⟩
  have hki : k ≠ i := (hk (i, item.groupRole) (by simp)).symm
  rw [query_countColumn, ← hitems k fun y hy => hk y (List.mem_append_left _ hy)]
  simp only [Query.countItem, Query.updateItem, Query.item?, IdMap.get?_modify, if_neg hki]

/-- Each flag still has the value that was read before the loop when its turn comes. -/
theorem each_flipOuter (h : Mirrored m shown ts e) {outer : Bool} {changes : List (JoinId × Side)}
    (hl : changes.Pairwise fun x y => x.1 ≠ y.1)
    (hflags : ∀ x ∈ changes, ∃ join, e.query.join? x.1 = some join ∧ join.outer x.2 = !outer) :
    Mirrored m shown ts (e.each changes (Query.flipOuter outer)) := by
  refine (each_done (M := fun done e' =>
    (∀ k, (∀ y ∈ done, y.1 ≠ k) → e'.query.join? k = e.query.join? k) ∧
      Mirrored m shown ts e') hl ?_ ⟨fun _ _ => rfl, h⟩).2
  rintro done e' ⟨j, side⟩ hx hdone ⟨hjoins, he⟩
  obtain ⟨join, hjoin, hside⟩ := hflags _ hx
  refine ⟨fun k hk => ?_, he.flipOuter (by rw [hjoins j hdone]; exact hjoin) hside⟩
  have hkj : k ≠ j := (hk (j, side) (by simp)).symm
  rw [query_flipOuter, ← hjoins k fun y hy => hk y (List.mem_append_left _ hy)]
  simp only [Query.setFlag, Query.updateJoin, Query.join?, IdMap.get?_modify, if_neg hkj]

end Edit.Mirrored

end LiveSelect
