import Mathlib.Data.List.Nodup
import LiveSelect.Proofs.Edits
import LiveSelect.Proofs.Numbering

/-! # Which container owns which items

The items of a container and the containers of the items are two views of one relation.
The invariant says that they agree, that the tables of the statement are known, and that
the container of constants is the only one of its kind and never a table. -/

namespace LiveSelect.Query

variable {q q' : Query}

/-- Containers and items agree on who owns whom, and tables and constants are known. -/
structure Owned (q : Query) : Prop where
  nodup_itemsOf : ∀ c, (q.itemsOf c).Nodup
  mem_itemsOf : ∀ c i, i ∈ q.itemsOf c ↔ q.home? i = some c
  nodup_tables : q.tables.Nodup
  knows_tables : ∀ c ∈ q.tables, q.containers.contains c
  knows_constants : q.containers.contains q.constants
  constants_not_table : q.constants ∉ q.tables
  isConstants_iff : ∀ c k, q.container? c = some k → (k.isConstants ↔ c = q.constants)

/-! ## Look-ups -/

theorem home?_eq_some {i : ItemId} {c : ContainerId} :
    q.home? i = some c ↔ ∃ item, q.item? i = some item ∧ item.container = c := by
  simp [home?]

theorem home?_of_item? {i : ItemId} {item : Item} (h : q.item? i = some item) :
    q.home? i = some item.container := by
  simp [home?, h]

theorem home?_congr {i : ItemId} (h : q'.item? i = q.item? i) : q'.home? i = q.home? i :=
  congrArg (Option.map Item.container) h

theorem itemsOf_of_absent {c : ContainerId} (h : ¬ q.containers.contains c) :
    q.itemsOf c = [] := by
  simp [itemsOf, container?, IdMap.get?_eq_none h]

theorem knows_of_mem_itemsOf {c : ContainerId} {i : ItemId} (h : i ∈ q.itemsOf c) :
    q.containers.contains c := by
  by_contra hc
  rw [itemsOf_of_absent hc] at h
  exact List.not_mem_nil h

theorem isAttached_iff (q : Query) (c : ContainerId) :
    q.isAttached c ↔ c = q.constants ∨ c ∈ q.tables := by
  simp [isAttached]

theorem Owned.knows_home (h : q.Owned) {i : ItemId} {c : ContainerId} (hi : q.home? i = some c) :
    q.containers.contains c :=
  knows_of_mem_itemsOf ((h.mem_itemsOf c i).2 hi)

theorem Owned.knows_of_item? (h : q.Owned) {i : ItemId} {item : Item}
    (hi : q.item? i = some item) : q.containers.contains item.container :=
  h.knows_home (home?_of_item? hi)

theorem Owned.mem_itemsOf_home (h : q.Owned) {i : ItemId} {item : Item}
    (hi : q.item? i = some item) : i ∈ q.itemsOf item.container :=
  (h.mem_itemsOf _ _).2 (home?_of_item? hi)

theorem Owned.item?_of_mem (h : q.Owned) {c : ContainerId} {i : ItemId} (hi : i ∈ q.itemsOf c) :
    ∃ item, q.item? i = some item ∧ item.container = c :=
  home?_eq_some.1 ((h.mem_itemsOf c i).1 hi)

/-! ## Small edits -/

/-- An item belongs to one container, so containers one after the other list it once. -/
theorem Owned.nodup_flatMap_itemsOf (h : q.Owned) {cs : List ContainerId} (hcs : cs.Nodup) :
    (cs.flatMap q.itemsOf).Nodup := by
  refine List.nodup_flatMap.2 ⟨fun c _ => h.nodup_itemsOf c, hcs.imp ?_⟩
  intro c k hne i hc hk
  have hhome := ((h.mem_itemsOf c i).1 hc).symm.trans ((h.mem_itemsOf k i).1 hk)
  exact hne (Option.some.inj hhome)

theorem home?_updateItem {f : Item → Item} (hf : ∀ x, (f x).container = x.container)
    (i k : ItemId) : (q.updateItem i f).home? k = q.home? k := by
  simp only [home?, item?, updateItem, IdMap.get?_modify]
  split
  · cases q.items.get? k with
    | none => rfl
    | some x => simp [hf]
  · rfl

theorem home?_countItem (x : ItemId × GroupRole) (k : ItemId) :
    (q.countItem x).home? k = q.home? k :=
  home?_updateItem (f := fun i => { i with groupRole := .count }) (fun _ => rfl) x.1 k

theorem itemsOf_updateContainer {f : Container → Container} (c k : ContainerId) :
    (q.updateContainer c f).itemsOf k =
      if k = c then ((q.container? c).map fun x => (f x).items).getD [] else q.itemsOf k := by
  simp only [itemsOf, container?, updateContainer, IdMap.get?_modify]
  split
  · rename_i hk
    subst hk
    cases q.containers.get? k <;> rfl
  · rfl

theorem item?_putItem (c : ContainerId) (spec : ItemSpec) (uuid : Uuid) (k : ItemId) :
    (q.putItem c spec uuid).item? k =
      if k = q.nextId then some { spec with container := c, uuid } else q.item? k := by
  simp only [putItem, updateContainer, item?, IdMap.get?_insert]

theorem itemsOf_putItem {c : ContainerId} (hc : q.containers.contains c) (spec : ItemSpec)
    (uuid : Uuid) (k : ContainerId) :
    (q.putItem c spec uuid).itemsOf k =
      if k = c then q.itemsOf c ++ [q.nextId] else q.itemsOf k := by
  rcases (q.containers.contains_iff c).1 hc with ⟨x, hx⟩
  unfold putItem
  rw [itemsOf_updateContainer]
  split
  · simp [container?, itemsOf, handOut, hx]
  · rfl

theorem itemsOf_takeItem (c : ContainerId) (i : ItemId) (k : ContainerId) :
    (q.takeItem c i).itemsOf k =
      if k = c then (q.itemsOf c).filter (· ≠ i) else q.itemsOf k := by
  unfold takeItem
  change (q.updateContainer c _).itemsOf k = _
  rw [itemsOf_updateContainer]
  split
  · cases hx : q.container? c <;> simp [itemsOf, hx]
  · rfl

theorem item?_takeItem (c : ContainerId) (i k : ItemId) :
    (q.takeItem c i).item? k = if k = i then none else q.item? k := by
  simp only [takeItem, item?, IdMap.get?_erase]

/-! ## What keeps ownership -/

namespace Owned

/-- Ownership depends on item lists, homes, tables, constants and kinds alone. -/
theorem congr (h : q.Owned) (hitems : ∀ c, q'.itemsOf c = q.itemsOf c)
    (hhome : ∀ i, q'.home? i = q.home? i) (htables : q'.tables = q.tables)
    (hconst : q'.constants = q.constants)
    (hkind : ∀ c, (q'.container? c).map (·.isConstants) = (q.container? c).map (·.isConstants)) :
    q'.Owned := by
  have hknows : ∀ c, q'.containers.contains c = q.containers.contains c := by
    intro c
    have hsome := congrArg Option.isSome (hkind c)
    simpa [IdMap.contains, container?] using hsome
  constructor
  · intro c
    rw [hitems]
    exact h.nodup_itemsOf c
  · intro c i
    rw [hitems, hhome]
    exact h.mem_itemsOf c i
  · rw [htables]
    exact h.nodup_tables
  · intro c hc
    rw [hknows]
    exact h.knows_tables c (htables ▸ hc)
  · rw [hknows, hconst]
    exact h.knows_constants
  · rw [htables, hconst]
    exact h.constants_not_table
  · intro c k hk
    have hm := hkind c
    rw [hk] at hm
    cases hq : q.container? c with
    | none => simp [hq] at hm
    | some k₀ =>
      have heq : k.isConstants = k₀.isConstants := by simpa [hq] using hm
      rw [heq, hconst]
      exact h.isConstants_iff c k₀ hq

/-- Lists, joins and settings do not bear on ownership. -/
theorem of_arenas (h : q.Owned) (hitems : q'.items = q.items)
    (hcontainers : q'.containers = q.containers) (htables : q'.tables = q.tables)
    (hconst : q'.constants = q.constants) : q'.Owned := by
  refine h.congr (fun c => ?_) (fun i => ?_) htables hconst fun c => ?_
  · rw [itemsOf, container?, hcontainers, itemsOf, container?]
  · rw [home?, item?, hitems, home?, item?]
  · rw [container?, hcontainers, container?]

/-- Tables may be chosen among the known containers other than the constants. -/
theorem withTables (h : q.Owned) {ts : List ContainerId} (hnodup : ts.Nodup)
    (hknows : ∀ c ∈ ts, q.containers.contains c) (hconst : q.constants ∉ ts) :
    Owned { q with tables := ts } where
  nodup_itemsOf := h.nodup_itemsOf
  mem_itemsOf := h.mem_itemsOf
  nodup_tables := hnodup
  knows_tables := hknows
  knows_constants := h.knows_constants
  constants_not_table := hconst
  isConstants_iff := h.isConstants_iff

/-- A new container under the next number owns nothing yet. -/
theorem itemsOf_nextId (h : q.Owned) (hn : q.Numbered) (hq : q.count < UInt32.size) (i : ItemId) :
    q.home? i ≠ some q.nextId :=
  fun hi => hn.fresh hq (e := .container) (h.knows_home hi)

/-- A change of a container other than in its kind does not make or unmake constants. -/
theorem isConstants_modify (h : q.Owned) {c k : ContainerId} {f : Container → Container}
    {x : Container} (hx : (q.containers.modify c f).get? k = some x)
    (hf : ∀ x, (f x).isConstants = x.isConstants) : x.isConstants ↔ k = q.constants := by
  rw [IdMap.get?_modify] at hx
  split at hx
  · cases hy : q.containers.get? k with
    | none => simp [hy] at hx
    | some y =>
      rw [hy, Option.map_some, Option.some.injEq] at hx
      rw [← hx, hf]
      exact h.isConstants_iff k y hy
  · exact h.isConstants_iff k x hx

theorem itemsOf_insert {c k : ContainerId} {x : Container} :
    itemsOf { q with containers := q.containers.insert c x } k =
      if k = c then x.items else q.itemsOf k := by
  simp only [itemsOf, container?, IdMap.get?_insert]
  split <;> rfl

theorem newTable (h : q.Owned) (hn : q.Numbered) (hq : q.count < UInt32.size)
    (identity : TableIdentity) (uuid : Uuid) : (q.newTable identity uuid).2.Owned := by
  have hitems : ∀ k, (q.newTable identity uuid).2.itemsOf k = q.itemsOf k := by
    intro k
    rw [newTable_eq]
    change itemsOf { q with containers := _ } k = _
    rw [itemsOf_insert]
    split
    · rename_i hk
      subst hk
      exact (itemsOf_of_absent (hn.fresh hq (e := .container))).symm
    · rfl
  have hne : ∀ c, q.containers.contains c → c ≠ q.nextId :=
    fun c hc => hn.ne_nextId hq (e := .container) hc
  constructor
  · intro c
    rw [hitems]
    exact h.nodup_itemsOf c
  · intro c i
    rw [hitems]
    exact h.mem_itemsOf c i
  · exact h.nodup_tables
  · intro c hc
    exact (IdMap.contains_insert _ _ _ _).2 (Or.inr (h.knows_tables c hc))
  · exact (IdMap.contains_insert _ _ _ _).2 (Or.inr h.knows_constants)
  · exact h.constants_not_table
  · intro c k hk
    simp only [newTable_eq, container?, IdMap.get?_insert] at hk
    split at hk
    · rename_i hc
      cases hk
      -- The constants are known, so the new table is not the constants.
      have hc' : c ≠ q.constants := fun heq => hne q.constants h.knows_constants (heq ▸ hc)
      exact iff_of_false (by simp [Container.isConstants, Container.identity?, Container.ofTable])
        hc'
    · exact h.isConstants_iff c k hk

/-- New constants take the place of the old ones, whose items are gone. -/
theorem renewConstants (h : q.Owned) (hn : q.Numbered) (hq : q.count < UInt32.size)
    (uuid : Uuid) :
    Owned { q with
      items := (q.itemsOf q.constants).foldl IdMap.erase q.items
      containers := (q.containers.erase q.constants).insert q.nextId (.ofConstants uuid)
      count := q.count + 1
      constants := q.nextId } := by
  have hnew : ∀ c, q.containers.contains c → c ≠ q.nextId :=
    fun c hc => hn.ne_nextId hq (e := .container) hc
  have hitems : ∀ k, itemsOf { q with
      containers := (q.containers.erase q.constants).insert q.nextId (.ofConstants uuid) } k =
      if k = q.nextId ∨ k = q.constants then [] else q.itemsOf k := by
    intro k
    simp only [itemsOf, container?, IdMap.get?_insert, IdMap.get?_erase]
    by_cases hk : k = q.nextId
    · simp [hk, Container.ofConstants]
    · rw [if_neg hk]
      by_cases hk' : k = q.constants <;> simp [hk, hk']
  have hhome : ∀ i, home? { q with
      items := (q.itemsOf q.constants).foldl IdMap.erase q.items } i =
      if i ∈ q.itemsOf q.constants then none else q.home? i := by
    intro i
    simp only [home?, item?, IdMap.get?_foldl_erase]
    split <;> rfl
  constructor
  · intro k
    change (itemsOf { q with containers := _ } k).Nodup
    rw [hitems]
    split
    · exact List.nodup_nil
    · exact h.nodup_itemsOf k
  · intro k i
    change i ∈ itemsOf { q with containers := _ } k ↔ home? { q with items := _ } i = some k
    rw [hitems, hhome]
    by_cases hi : i ∈ q.itemsOf q.constants
    · -- A former item of the constants belongs to nobody.
      rw [if_pos hi]
      refine iff_of_false ?_ (by simp)
      split
      · exact List.not_mem_nil
      · rename_i hk
        rw [h.mem_itemsOf, (h.mem_itemsOf _ _).1 hi, Option.some.injEq]
        exact fun heq => hk (Or.inr heq.symm)
    · rw [if_neg hi]
      split
      · -- The new constants own nothing, and what the old ones owned is gone.
        rename_i hk
        refine iff_of_false List.not_mem_nil ?_
        rcases hk with rfl | rfl
        · exact h.itemsOf_nextId hn hq i
        · exact fun heq => hi ((h.mem_itemsOf _ _).2 heq)
      · exact h.mem_itemsOf k i
  · exact h.nodup_tables
  · intro c hc
    rw [IdMap.contains_insert, IdMap.contains_erase]
    exact Or.inr ⟨fun heq => h.constants_not_table (heq ▸ hc), h.knows_tables c hc⟩
  · rw [IdMap.contains_insert]
    exact Or.inl rfl
  · intro hmem
    exact hnew _ (h.knows_tables _ hmem) rfl
  · intro c k hk
    simp only [container?, IdMap.get?_insert, IdMap.get?_erase] at hk
    split at hk
    · rename_i hc
      cases hk
      exact iff_of_true rfl hc
    · rename_i hc
      split at hk
      · cases hk
      · rename_i hc'
        exact (h.isConstants_iff c k hk).trans (iff_of_false hc' hc)

theorem putItem (h : q.Owned) (hn : q.Numbered) (hq : q.count < UInt32.size) {c : ContainerId}
    (hc : q.containers.contains c) (spec : ItemSpec) (uuid : Uuid) :
    (q.putItem c spec uuid).Owned := by
  have hnew : q.home? q.nextId = none := by
    simp [home?, hn.item?_nextId hq]
  have hfresh : ∀ k, q.nextId ∉ q.itemsOf k := by
    intro k hk
    rw [h.mem_itemsOf, hnew] at hk
    cases hk
  constructor
  · intro k
    rw [itemsOf_putItem hc]
    split
    · apply (h.nodup_itemsOf c).append (List.nodup_singleton _)
      exact List.disjoint_singleton.2 (hfresh c)
    · exact h.nodup_itemsOf k
  · intro k i
    rw [itemsOf_putItem hc]
    simp only [home?, item?_putItem]
    have hmem := h.mem_itemsOf k i
    simp only [home?] at hmem
    by_cases hi : i = q.nextId
    · -- The new item is owned by its container and by no other.
      subst hi
      simp only [if_true, Option.map_some, Option.some.injEq]
      by_cases hk : k = c
      · simp [hk]
      · simp [hk, hfresh k, Ne.symm hk]
    · rw [if_neg hi, ← hmem]
      by_cases hk : k = c
      · simp [hk, hi]
      · simp [hk]
  · exact h.nodup_tables
  · intro k hk
    exact (IdMap.contains_modify _ _ _ _).2 (h.knows_tables k hk)
  · exact (IdMap.contains_modify _ _ _ _).2 h.knows_constants
  · exact h.constants_not_table
  · intro k x hx
    exact h.isConstants_modify hx fun _ => rfl

theorem takeItem (h : q.Owned) {c : ContainerId} {i : ItemId} (hi : q.home? i = some c) :
    (q.takeItem c i).Owned := by
  constructor
  · intro k
    rw [itemsOf_takeItem]
    split
    · exact (h.nodup_itemsOf c).filter _
    · exact h.nodup_itemsOf k
  · intro k x
    rw [itemsOf_takeItem]
    simp only [home?, item?_takeItem]
    have hmem := h.mem_itemsOf k x
    simp only [home?] at hmem hi
    by_cases hx : x = i
    · -- The item that is taken was owned by its container alone.
      subst hx
      simp only [if_true, Option.map_none, reduceCtorEq, iff_false]
      by_cases hk : k = c
      · simp [hk]
      · rw [if_neg hk, hmem, hi]
        simpa using Ne.symm hk
    · rw [if_neg hx, ← hmem]
      by_cases hk : k = c
      · simp [hk, hx]
      · simp [hk]
  · exact h.nodup_tables
  · intro k hk
    exact (IdMap.contains_modify _ _ _ _).2 (h.knows_tables k hk)
  · exact (IdMap.contains_modify _ _ _ _).2 h.knows_constants
  · exact h.constants_not_table
  · intro k x hx
    exact h.isConstants_modify hx fun _ => rfl

end Owned

end LiveSelect.Query
