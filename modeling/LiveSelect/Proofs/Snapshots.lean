import LiveSelect.Proofs.Notices

/-! # What observers see

In the middle of an operation a query need not be well-formed: when a table is removed, its
items stay listed until their turn comes, and those that have had their turn are missing
from the lists though their flags are set. What observers can rely on at every moment is
less. The index of joins is exact; tables are known; and the two lists hold, each once,
items that carry the flag. Every single step keeps that. Properties that no single step destroys
are called robust, and what observers see is established for all of them at once. -/

namespace LiveSelect

namespace Query

variable {q q' : Query} {p : Item → Bool} {l : List ItemId} {i : ItemId} {j : JoinId}

/-! ## Lists of flagged items -/

/-- A list holds, each once, items that carry a flag. -/
structure Flags (q : Query) (p : Item → Bool) (l : List ItemId) : Prop where
  nodup : l.Nodup
  has : ∀ i ∈ l, q.itemHas p i

namespace Flags

theorem congr (h : q.Flags p l) (hhas : ∀ i ∈ l, q'.itemHas p i = q.itemHas p i) :
    q'.Flags p l where
  nodup := h.nodup
  has i hi := (hhas i hi).trans (h.has i hi)

theorem filter (h : q.Flags p l) (f : ItemId → Bool) : q.Flags p (l.filter f) where
  nodup := h.nodup.filter f
  has i hi := h.has i (List.mem_of_mem_filter hi)

theorem concat (h : q.Flags p l) (hi : i ∉ l) (hp : q.itemHas p i) : q.Flags p (l ++ [i]) where
  nodup := h.nodup.append (List.nodup_singleton i) (List.disjoint_singleton.2 hi)
  has k hk := by
    rcases List.mem_append.1 hk with hk | hk
    · exact h.has k hk
    · rw [List.mem_singleton.1 hk]
      exact hp

end Flags

theorem Lists.flags (h : q.Lists p l) : q.Flags p l where
  nodup := h.nodup
  has i hi := by
    obtain ⟨item, hitem, hp, -⟩ := (h.mem i).1 hi
    rw [itemHas_of_item? hitem]
    exact hp

theorem itemHas_iff : q.itemHas p i ↔ ∃ item, q.item? i = some item ∧ p item := by
  simp only [itemHas, Option.any_eq_true]

/-! ## Joins that are gone -/

theorem WellFormed.unused_dropUsers (h : q.WellFormed) {item : Item}
    (hitem : q.item? i = some item) : (q.dropJoins (q.usersOf item.container i)).Unused i :=
  h.indexed.unused_dropJoins (home?_of_item? hitem) fun _ hj huses =>
    List.mem_filter.2 ⟨hj, huses⟩

theorem WellFormed.unused_constants (h : q.WellFormed) (hi : i ∈ q.itemsOf q.constants) :
    (q.dropJoins (q.joinsOf q.constants)).Unused i :=
  h.indexed.unused_dropJoins ((h.owned.mem_itemsOf _ _).1 hi) fun _ hj _ => hj

/-! ## What every step keeps -/

/-- No small step within an operation destroys the property. -/
structure Robust (P : Query → Prop) : Prop where
  attachItem : ∀ {q i c}, P q → q.home? i = some c → q.isAttached c → P (q.attachItem i)
  unlistItem : ∀ {q} i, P q → P (q.unlistItem i)
  dropJoin : ∀ {q} j, P q → P (q.dropJoin j)
  setFlag : ∀ {q} outer x, P q → P (q.setFlag outer x)
  countItem : ∀ {q} x, P q → P (q.countItem x)
  setCanExecute : ∀ {q} value, P q → P { q with canExecute := value }
  setGrouping : ∀ {q} value, P q → P { q with grouping := value }

namespace Robust

open Edit (Throughout)

variable {P : Query → Prop} {e : Edit} {c : ContainerId} (hP : Robust P)

include hP

theorem dropJoins (h : Throughout P e) (js : List JoinId) :
    Throughout P (e.each js Edit.dropJoin) :=
  Edit.each_induction (fun _ j _ he => he.dropJoin (hP.dropJoin j he.now)) h

theorem addTable (ho : q.Owned) (hstart : P { q with tables := q.tables ++ [c] })
    (he : q.addTable c = .ok e) : Throughout P e := by
  rw [addTable_edit he]
  let e₀ := Edit.start { q with tables := q.tables ++ [c] }
  -- Only the two lists change while the items of the new table are wired in.
  have hitems : Throughout P (e₀.each (q.itemsOf c) Edit.attachItem) ∧ ∃ selected sortList,
      (e₀.each (q.itemsOf c) Edit.attachItem).query =
        { q with tables := q.tables ++ [c], selected, sortList } := by
    refine Edit.each_induction (M := fun e => Throughout P e ∧ ∃ selected sortList,
      e.query = { q with tables := q.tables ++ [c], selected, sortList }) ?_
      ⟨.start hstart, q.selected, q.sortList, rfl⟩
    rintro e i hi ⟨he, selected, sortList, hquery⟩
    have hhome : e.query.home? i = some c := by
      rw [hquery]
      exact (ho.mem_itemsOf c i).1 hi
    have hattached : e.query.isAttached c := by
      rw [hquery, isAttached_iff]
      exact Or.inr (List.mem_append_right _ List.mem_cons_self)
    obtain ⟨selected', sortList', hattach⟩ := e.query.attachItem_lists i
    refine ⟨(he.update (hP.attachItem he.now hhome hattached)).announce _, selected', sortList', ?_⟩
    rw [Edit.query_attachItem, hattach, hquery]
  exact hitems.1.announce _

theorem removeTable (hstart : P { q with tables := q.tables.erase c })
    (he : q.removeTable c = .ok e) : Throughout P e := by
  rw [removeTable_edit he]
  refine Throughout.announce (Edit.each_induction ?_ (hP.dropJoins (.start hstart) _)) _
  exact fun e i _ he => he.detachItem (hP.unlistItem i he.now)

theorem releaseItem (h : P q) (c : ContainerId) (i : ItemId) :
    Throughout P (q.releaseItem c i) := by
  have hjoins := hP.dropJoins (.start h) (q.usersOf c i)
  unfold Query.releaseItem
  simp only
  split
  · exact hjoins.detachItem (hP.unlistItem i hjoins.now)
  · exact hjoins

theorem countColumns (h : P q) : Throughout P q.countColumns := by
  have hcount : Throughout P (q.startCompound.each q.uncountedColumns countColumn) := by
    refine Edit.each_induction ?_ ((Throughout.start h).setCanExecute (hP.setCanExecute _ h))
    exact fun e x _ he => (he.update (hP.countItem x he.now)).announce _
  exact hcount.setCanExecute (hP.setCanExecute _ hcount.now)

theorem throughout_setGrouping (h : P q) (enabled : Bool) :
    Throughout P (q.setGrouping enabled) := by
  have hcounted := hP.countColumns h
  rcases q.setGrouping_edit enabled with heq | ⟨-, heq⟩
  · rw [heq]
    exact .start h
  · rw [heq]
    refine Throughout.announce ?_ _
    split
    · exact hcounted.update (hP.setGrouping _ hcounted.now)
    · exact (Throughout.start h).update (hP.setGrouping _ h)

theorem setOuter (h : P q) {side : Side} {outer : Bool} (he : q.setOuter j side outer = .ok e) :
    Throughout P e := by
  obtain ⟨k, changes, -, rfl⟩ := setOuter_edit he
  refine Edit.each_induction ?_ (.start h)
  exact fun e x _ he => (he.update (hP.setFlag outer x he.now)).announce _

/-- What no step destroys and what holds before and after an operation is seen in every notice of
it, if it holds when a table has just been listed or taken from the list, and while the constants
are dropped. -/
theorem notices (ho : q.Owned) {op : Operation} (h : P q) (hafter : P (q.after op))
    (hadd : ∀ c, op = .addTable c → q.containers.contains c → c ≠ q.constants → c ∉ q.tables →
      P { q with tables := q.tables ++ [c] })
    (hremove : ∀ c, op = .removeTable c → P { q with tables := q.tables.erase c })
    (hdrop : ∀ uuid, op = .newConstants uuid → Throughout P q.dropConstants) :
    ∀ n ∈ q.notices op, P n.seen := by
  intro n hn
  obtain ⟨reply, e, hp, hn⟩ := edit_of_mem_notices hn
  rw [after_ok hp] at hafter
  refine Throughout.seen (P := P) ?_ n hn
  cases hop : op.isCascade with
  | false => exact (perform_atOnce hp hop).throughout hafter
  | true =>
    cases op with
    | addTable c =>
      have he := (Outcome.ofEdit_ok hp).2
      obtain ⟨hknown, hconst, htable, -⟩ := addTable_ok he
      exact hP.addTable ho (hadd c rfl hknown hconst htable) he
    | removeTable c => exact hP.removeTable (hremove c rfl) (Outcome.ofEdit_ok hp).2
    | newConstants uuid =>
      cases hp
      -- What comes after the old constants is not announced.
      exact ⟨hafter, (hdrop uuid rfl).seen⟩
    | removeItem i =>
      obtain ⟨x, hx, -, rfl⟩ := Outcome.map_ok hp
      rw [removeItem_edit hx] at hafter ⊢
      exact (hP.releaseItem h _ i).update hafter
    | setGrouping v =>
      cases hp
      exact hP.throughout_setGrouping h v
    | setOuter j side v => exact hP.setOuter h (Outcome.ofEdit_ok hp).2
    | _ => cases hop

end Robust

/-! ## At every moment -/

/-- What observers can rely on whenever they are called. -/
structure Presentable (q : Query) : Prop where
  indexed : q.Indexed
  nodup_tables : q.tables.Nodup
  knows_tables : ∀ c ∈ q.tables, q.containers.contains c
  selected : q.Flags (·.selected) q.selected
  sortList : q.Flags Item.isSorted q.sortList

theorem WellFormed.presentable (h : q.WellFormed) : q.Presentable where
  indexed := h.indexed
  nodup_tables := h.owned.nodup_tables
  knows_tables := h.owned.knows_tables
  selected := h.listed.selected.flags
  sortList := h.listed.sortList.flags

namespace Presentable

/-- Settings do not matter. -/
theorem congr (h : q.Presentable) (hparts : q'.parts = q.parts) : q'.Presentable := by
  simp only [parts, Prod.mk.injEq] at hparts
  obtain ⟨hitems, hcontainers, hjoins, -, hselected, hsort, htables, hincidence, -⟩ := hparts
  have hhome : ∀ i, q'.home? i = q.home? i := by
    intro i
    rw [home?, item?, hitems, home?, item?]
  have hhas : ∀ p i, q'.itemHas p i = q.itemHas p i := by
    intro p i
    rw [itemHas, item?, hitems, itemHas, item?]
  constructor
  · exact h.indexed.of_home hjoins hincidence fun _ _ _ => ⟨hhome _, hhome _⟩
  · rw [htables]
    exact h.nodup_tables
  · rw [htables, hcontainers]
    exact h.knows_tables
  · rw [hselected]
    exact h.selected.congr fun i _ => hhas _ i
  · rw [hsort]
    exact h.sortList.congr fun i _ => hhas _ i

/-- The lists may be replaced by others that hold flagged items. -/
theorem withLists (h : q.Presentable) {selected sortList : List ItemId}
    (hs : q.Flags (·.selected) selected) (ht : q.Flags Item.isSorted sortList) :
    Presentable { q with selected, sortList } where
  indexed := h.indexed.of_home rfl rfl fun _ _ _ => ⟨rfl, rfl⟩
  nodup_tables := h.nodup_tables
  knows_tables := h.knows_tables
  selected := hs.congr fun _ _ => rfl
  sortList := ht.congr fun _ _ => rfl

theorem withTables (h : q.Presentable) {ts : List ContainerId} (hnodup : ts.Nodup)
    (hknows : ∀ c ∈ ts, q.containers.contains c) : Presentable { q with tables := ts } where
  indexed := h.indexed.of_home rfl rfl fun _ _ _ => ⟨rfl, rfl⟩
  nodup_tables := hnodup
  knows_tables := hknows
  selected := h.selected.congr fun _ _ => rfl
  sortList := h.sortList.congr fun _ _ => rfl

/-- Whatever is attached goes on a list only with the flag, and only once. -/
theorem attachItem (h : q.Presentable) (i : ItemId) : (q.attachItem i).Presentable := by
  have hselection : (q.syncSelection i).Presentable := by
    unfold syncSelection
    split_ifs with hflag hmem
    · exact h
    · exact h.withLists (h.selected.concat (by simpa using hmem) hflag) h.sortList
    · exact h.withLists (h.selected.filter _) h.sortList
  unfold Query.attachItem enterSortList
  split_ifs with henter
  · simp only [Bool.and_eq_true, Bool.not_eq_true', List.contains_eq_mem,
      decide_eq_false_iff_not] at henter
    exact hselection.withLists hselection.selected
      (hselection.sortList.concat henter.2 henter.1)
  · exact hselection

theorem unlistItem (h : q.Presentable) (i : ItemId) : (q.unlistItem i).Presentable :=
  h.withLists (h.selected.filter _) (h.sortList.filter _)

theorem dropJoin (h : q.Presentable) (j : JoinId) : (q.dropJoin j).Presentable := by
  have hindexed := h.indexed.dropJoin j
  rw [dropJoin_eq] at hindexed ⊢
  exact ⟨hindexed, h.nodup_tables, h.knows_tables, h.selected.congr fun _ _ => rfl,
    h.sortList.congr fun _ _ => rfl⟩

/-- An item may be forgotten when no join uses it and neither list holds it. -/
theorem eraseItem (h : q.Presentable) (hunused : q.Unused i) (hs : i ∉ q.selected)
    (ht : i ∉ q.sortList) : Presentable { q with items := q.items.erase i } := by
  have hitem : ∀ k, k ≠ i → item? { q with items := q.items.erase i } k = q.item? k := by
    intro k hk
    simp only [item?, IdMap.get?_erase, if_neg hk]
  have hflags : ∀ {p l}, q.Flags p l → i ∉ l →
      Flags { q with items := q.items.erase i } p l := by
    intro p l hl hi
    refine hl.congr fun k hk => ?_
    rw [itemHas, hitem k fun heq => hi (heq ▸ hk), itemHas]
  refine ⟨h.indexed.of_home rfl rfl ?_, h.nodup_tables, h.knows_tables, hflags h.selected hs,
    hflags h.sortList ht⟩
  intro j join hj
  obtain ⟨hl, hr⟩ := hunused j join hj
  simp only [home?, hitem _ hl, hitem _ hr, and_self]

/-- A change of an item that spares its flags and its container is not seen here. -/
theorem updateItem (h : q.Presentable) {f : Item → Item}
    (hf : ∀ x, (f x).container = x.container) (hsel : ∀ x, (f x).selected = x.selected)
    (hsort : ∀ x, (f x).sortOrder = x.sortOrder) : (q.updateItem i f).Presentable := by
  have hhas : ∀ {p : Item → Bool}, (∀ x, p (f x) = p x) → ∀ k,
      (q.updateItem i f).itemHas p k = q.itemHas p k := by
    intro p hp k
    rw [itemHas, WellFormed.item?_updateItem, itemHas]
    split
    · cases q.item? k <;> simp [hp]
    · rfl
  refine ⟨h.indexed.of_home rfl rfl fun _ _ _ => ⟨home?_updateItem hf _ _, home?_updateItem hf _ _⟩,
    h.nodup_tables, h.knows_tables, h.selected.congr fun k _ => hhas hsel k,
    h.sortList.congr fun k _ => hhas ?_ k⟩
  intro x
  simp only [Item.isSorted, hsort]

theorem updateJoin (h : q.Presentable) (j : JoinId) {f : Join → Join}
    (hf : ∀ x, (f x).left = x.left ∧ (f x).right = x.right) : (q.updateJoin j f).Presentable where
  indexed := h.indexed.updateJoin j hf
  nodup_tables := h.nodup_tables
  knows_tables := h.knows_tables
  selected := h.selected.congr fun _ _ => rfl
  sortList := h.sortList.congr fun _ _ => rfl

end Presentable

theorem presentable_robust : Robust Presentable where
  attachItem h _ _ := h.attachItem _
  unlistItem i h := h.unlistItem i
  dropJoin j h := h.dropJoin j
  setFlag outer x h := h.updateJoin x.1 fun _ => by cases x.2 <;> exact ⟨rfl, rfl⟩
  countItem x h := h.updateItem (fun _ => rfl) (fun _ => rfl) fun _ => rfl
  setCanExecute _ h := h.congr rfl
  setGrouping _ h := h.congr rfl

namespace WellFormed

open Edit (Throughout)

/-- The items of the constants are forgotten one by one, when their joins are gone. -/
theorem throughout_dropConstants (h : q.WellFormed) :
    Throughout Presentable q.dropConstants := by
  let d := q.dropJoins (q.joinsOf q.constants)
  have hquery : ((Edit.start q).each (q.joinsOf q.constants) Edit.dropJoin).query = d :=
    Edit.query_each _ Edit.query_dropJoin _
  have hd : d.WellFormed := h.dropJoins _
  have hconst : d.constants = q.constants := by
    rw [show d = _ from dropJoins_eq q _]
  have hbare : Presentable { d with containers := d.containers.erase q.constants } := by
    refine ⟨hd.indexed.of_home rfl rfl fun _ _ _ => ⟨rfl, rfl⟩, hd.owned.nodup_tables, ?_,
      hd.presentable.selected.congr fun _ _ => rfl, hd.presentable.sortList.congr fun _ _ => rfl⟩
    intro k hk
    rw [IdMap.contains_erase, ← hconst]
    exact ⟨fun heq => hd.owned.constants_not_table (heq ▸ hk), hd.owned.knows_tables k hk⟩
  have hjoins := presentable_robust.dropJoins (.start h.presentable) (q.joinsOf q.constants)
  unfold dropConstants dropConstantsUpTo
  -- Which joins there are does not change any more.
  refine (Edit.each_induction (M := fun e => Throughout Presentable e ∧ e.query.joins = d.joins)
    ?_ ⟨hjoins.update (hquery ▸ hbare), by rw [Edit.query_update, hquery]⟩).1
  rintro e i hi ⟨he, heq⟩
  have hunused : e.query.Unused i := by
    intro j join hj
    rw [join?, heq] at hj
    exact h.unused_constants hi j join hj
  rw [Edit.forgetItem_eq]
  refine ⟨(he.detachItem (he.now.unlistItem i)).update ?_, ?_⟩
  · rw [Edit.query_detachItem]
    exact (he.now.unlistItem i).eraseItem hunused (by simp [Query.unlistItem])
      (by simp [Query.unlistItem])
  · rw [Edit.query_update, Edit.query_detachItem]
    exact heq

/-- Whatever an operation does, observers always see a query that is presentable. -/
theorem notices_presentable (h : q.WellFormed) (hq : q.count < UInt32.size) (op : Operation) :
    ∀ n ∈ q.notices op, n.seen.Presentable := by
  refine presentable_robust.notices h.owned h.presentable (h.after hq op).presentable ?_ ?_ ?_
  · intro c _ hknown _ htable
    refine h.presentable.withTables ?_ ?_
    · exact h.owned.nodup_tables.append (List.nodup_singleton c) (List.disjoint_singleton.2 htable)
    · intro k hk
      rcases List.mem_append.1 hk with hk | hk
      · exact h.owned.knows_tables k hk
      · rw [List.mem_singleton.1 hk]
        exact hknown
  · intro c _
    exact h.presentable.withTables (h.owned.nodup_tables.erase c) fun k hk =>
      h.owned.knows_tables k (List.mem_of_mem_erase hk)
  · exact fun _ _ => h.throughout_dropConstants

end WellFormed

/-- A join is listed once under each of its containers, of which there are two. -/
theorem Indexed.count_joinsOf (h : q.Indexed) {join : Join} (hj : q.join? j = some join) :
    ∃ left right, q.item? join.left = some left ∧ q.item? join.right = some right ∧
      left.container ≠ right.container ∧
      (q.joinsOf left.container).count j = 1 ∧ (q.joinsOf right.container).count j = 1 := by
  obtain ⟨l, r, hl, hr, hne⟩ := h.home_of_join hj
  have hcount : ∀ c, q.home? join.left = some c ∨ q.home? join.right = some c →
      (q.joinsOf c).count j = 1 := fun c hc =>
    List.count_eq_one_of_mem (h.nodup_joinsOf c) (h.mem_joinsOf_iff.2 ⟨join, hj, hc⟩)
  obtain ⟨left, hleft, rfl⟩ := home?_eq_some.1 hl
  obtain ⟨right, hright, rfl⟩ := home?_eq_some.1 hr
  exact ⟨left, right, hleft, hright, hne, hcount _ (Or.inl hl), hcount _ (Or.inr hr)⟩

end Query

namespace ObservedQuery

variable {α : Type}

/-- In every call that an operation makes on a reachable query, the observer sees an exact index
of joins, known tables, and lists of known items that carry the flag, all without duplicates. -/
theorem calls_see_consistent_query (o : ObservedQuery α) (h : o.query.Reachable) (op : Operation)
    (x : α × Notice) (hx : x ∈ (o.execute op).calls) :
    let q := x.2.seen
    (∀ c j, j ∈ q.joinsOf c ↔ ∃ join, q.join? j = some join ∧
      (q.home? join.left = some c ∨ q.home? join.right = some c)) ∧
    (∀ j join, q.join? j = some join → ∃ left right,
      q.item? join.left = some left ∧ q.item? join.right = some right ∧
      left.container ≠ right.container ∧
      (q.joinsOf left.container).count j = 1 ∧ (q.joinsOf right.container).count j = 1) ∧
    (∀ c, q.incidence.get? c ≠ some []) ∧
    q.tables.Nodup ∧ (∀ c ∈ q.tables, ∃ k, q.container? c = some k) ∧
    q.selected.Nodup ∧ (∀ i ∈ q.selected, ∃ item, q.item? i = some item ∧ item.selected = true) ∧
    q.sortList.Nodup ∧
    (∀ i ∈ q.sortList, ∃ item, q.item? i = some item ∧ item.sortOrder ≠ .unsorted) := by
  rw [calls_execute, Registry.mem_deliverAll] at hx
  have hseen := h.wellFormed.notices_presentable h.count_lt op x.2 hx.2
  refine ⟨fun c j => hseen.indexed.mem_joinsOf_iff, fun j join => hseen.indexed.count_joinsOf,
    hseen.indexed.no_empty, hseen.nodup_tables, ?_, hseen.selected.nodup, ?_,
    hseen.sortList.nodup, ?_⟩
  · intro c hc
    exact (IdMap.contains_iff _ c).1 (hseen.knows_tables c hc)
  · intro i hi
    exact Query.itemHas_iff.1 (hseen.selected.has i hi)
  · intro i hi
    obtain ⟨item, hitem, hsorted⟩ := Query.itemHas_iff.1 (hseen.sortList.has i hi)
    exact ⟨item, hitem, by simpa [Item.isSorted] using hsorted⟩

/-- While a joined table is removed, the observer sees the sorted item of the other one. -/
theorem observedTables_sees_consistent_query :
    let op := Operation.removeTable (.ofCount 4)
    observedTables.query.Reachable ∧ ∃ x ∈ (observedTables.execute op).calls,
      x.2.seen.sortList = [.ofCount 7] ∧
        ∃ item, x.2.seen.item? (.ofCount 7) = some item ∧ item.sortOrder ≠ .unsorted := by
  intro op
  have hsecond : ((observedTables.execute op).calls[1]?).map (·.2.seen.sortList) =
      some [.ofCount 7] := by decide +kernel
  obtain ⟨x, hx, hsorted⟩ := Option.map_eq_some_iff.1 hsecond
  have hmem := List.mem_of_getElem? hx
  refine ⟨Query.joinedTables_reachable, x, hmem, hsorted, ?_⟩
  obtain ⟨-, -, -, -, -, -, -, -, hlisted⟩ :=
    observedTables.calls_see_consistent_query Query.joinedTables_reachable op x hmem
  refine hlisted _ ?_
  rw [hsorted]
  exact List.mem_singleton_self _

end ObservedQuery

end LiveSelect
