import Mathlib.Data.List.Perm.Basic
import LiveSelect.Proofs.JoinIndex
import LiveSelect.Proofs.ItemLists

/-! # Well-formed queries

The four invariants together: of numbers, of ownership, of the join index and of the two
item lists. Every operation keeps them. For an operation that moves several items or joins
at once, the query it leaves behind is first written out as one update of the old query;
the invariants are then read off it. -/

namespace LiveSelect.Query

variable {q q' : Query}

theorem count_dropJoins (q : Query) (js : List JoinId) : (q.dropJoins js).count = q.count := by
  rw [dropJoins_eq]

theorem count_withoutConstants (q : Query) : q.withoutConstants.count = q.count := by
  rw [withoutConstants, foldl_discardItem]
  exact count_dropJoins q _

/-- What is left without the constants was there before. -/
theorem Indexed.knows_of_withoutConstants (hi : q.Indexed) {e : Entity} {i : Id e}
    (hk : q.withoutConstants.Knows i) : q.Knows i := by
  refine hi.knows_of_dropJoins (q.joinsOf q.constants) ?_
  rw [Query.withoutConstants, foldl_discardItem] at hk
  cases e with
  | item =>
    rcases (IdMap.contains_iff _ i).1 hk with ⟨item, hitem⟩
    rw [IdMap.get?_foldl_erase] at hitem
    split at hitem
    · cases hitem
    · exact IdMap.contains_of_get? hitem
  | container => exact ((IdMap.contains_erase _ _ _).1 hk).2
  | join => exact hk

theorem Numbered.withoutConstants (hn : q.Numbered) (hi : q.Indexed) :
    q.withoutConstants.Numbered :=
  hn.mono (Nat.le_of_eq q.count_withoutConstants.symm) fun _ hk => hi.knows_of_withoutConstants hk

/-- What the invariants see of a query: the arenas with the counter, the lists and the index. -/
def parts (q : Query) :=
  (q.items, q.containers, q.joins, q.count, q.selected, q.sortList, q.tables, q.incidence,
    q.constants)

/-- A query whose parts agree with each other. -/
structure WellFormed (q : Query) : Prop where
  numbered : q.Numbered
  owned : q.Owned
  indexed : q.Indexed
  listed : q.Listed

namespace WellFormed

/-- Well-formedness does not depend on the texts and settings of a query. -/
theorem congr (h : q.WellFormed) (hparts : q'.parts = q.parts) : q'.WellFormed := by
  simp only [parts, Prod.mk.injEq] at hparts
  rcases hparts with ⟨hitems, hcontainers, hjoins, hcount, hselected, hsort, htables, hincidence,
    hconstants⟩
  have hitem : ∀ i, q'.item? i = q.item? i := by
    intro i
    rw [item?, hitems, item?]
  have hattached : ∀ c, q'.isAttached c = q.isAttached c := by
    intro c
    rw [isAttached, hconstants, htables, isAttached]
  have hhome : ∀ i, q'.home? i = q.home? i := by
    intro i
    rw [home?, hitem, home?]
  have hcontainer : ∀ c, q'.container? c = q.container? c := by
    intro c
    rw [container?, hcontainers, container?]
  constructor
  · exact h.numbered.congr hitems hcontainers hjoins hcount
  · refine h.owned.congr ?_ hhome htables hconstants ?_
    · intro c
      rw [itemsOf, hcontainer, itemsOf]
    · intro c
      rw [hcontainer]
  · exact h.indexed.of_home hjoins hincidence fun j join _ => ⟨hhome _, hhome _⟩
  · constructor
    · rw [hselected]
      exact h.listed.selected.congr (shows_congr hitem hattached)
    · rw [hsort]
      exact h.listed.sortList.congr (shows_congr hitem hattached)

/-- Three of the invariants do not see the two item lists; the lists may be replaced by any
that hold what they should. -/
theorem withLists (hn : q.Numbered) (ho : q.Owned) (hi : q.Indexed)
    {selected sortList : List ItemId} (hs : q.Lists (·.selected) selected)
    (ht : q.Lists Item.isSorted sortList) : WellFormed { q with selected, sortList } where
  numbered := hn.congr rfl rfl rfl rfl
  owned := ho.of_arenas rfl rfl rfl rfl
  indexed := hi.of_home rfl rfl fun _ _ _ => ⟨rfl, rfl⟩
  listed := ⟨hs.congr (shows_congr (fun _ => rfl) (fun _ => rfl)),
    ht.congr (shows_congr (fun _ => rfl) (fun _ => rfl))⟩

/-- An edit that leaves the items and the attached containers alone leaves the lists right. -/
theorem keepLists (h : q.WellFormed) (hn : q'.Numbered) (ho : q'.Owned) (hi : q'.Indexed)
    (hs : q'.selected = q.selected) (ht : q'.sortList = q.sortList)
    (hitem : ∀ i, q'.item? i = q.item? i) (hattached : ∀ c, q'.isAttached c = q.isAttached c) :
    q'.WellFormed where
  numbered := hn
  owned := ho
  indexed := hi
  listed :=
    ⟨hs ▸ h.listed.selected.congr (shows_congr hitem hattached),
      ht ▸ h.listed.sortList.congr (shows_congr hitem hattached)⟩

/-! ## Tables -/

theorem newTable (h : q.WellFormed) (hq : q.count < UInt32.size) (identity : TableIdentity)
    (uuid : Uuid) : (q.newTable identity uuid).2.WellFormed := by
  refine h.keepLists ?_ (h.owned.newTable h.numbered hq identity uuid)
    (h.indexed.of_home rfl rfl fun _ _ _ => ⟨rfl, rfl⟩) rfl rfl (fun _ => rfl) (fun _ => rfl)
  refine h.numbered.grow hq rfl .container ?_
  intro e i hi
  cases e with
  | item => exact Or.inl hi
  | join => exact Or.inl hi
  | container =>
    rcases (IdMap.contains_insert _ _ _ _).1 hi with heq | hi
    · exact Or.inr ⟨rfl, heq⟩
    · exact Or.inl hi

theorem updateContainer (h : q.WellFormed) (c : ContainerId) {f : Container → Container}
    (hf : ∀ k, (f k).items = k.items ∧ (f k).kind = k.kind) :
    (q.updateContainer c f).WellFormed := by
  refine h.keepLists ?_ ?_ (h.indexed.of_home rfl rfl fun _ _ _ => ⟨rfl, rfl⟩) rfl rfl
    (fun _ => rfl) (fun _ => rfl)
  · refine h.numbered.mono (Nat.le_refl q.count) ?_
    intro e i hi
    cases e with
    | item => exact hi
    | join => exact hi
    | container => exact (IdMap.contains_modify _ _ _ _).1 hi
  · refine h.owned.congr ?_ (fun _ => rfl) rfl rfl ?_
    · intro k
      rw [itemsOf_updateContainer]
      split
      · rename_i hk
        subst hk
        cases hc : q.container? k <;> simp [itemsOf, hc, hf]
      · rfl
    · intro k
      simp only [container?, Query.updateContainer, IdMap.get?_modify]
      split
      · cases q.containers.get? k with
        | none => rfl
        | some x => simp [Container.isConstants, Container.identity?, (hf x).2]
      · rfl

/-- Items of a container outside the statement are not listed. -/
theorem not_shows (h : q.WellFormed) {p : Item → Bool} {c : ContainerId}
    (hc : ¬ q.isAttached c) {i : ItemId} (hi : i ∈ q.itemsOf c) : ¬ q.Shows p i := by
  rcases h.owned.item?_of_mem hi with ⟨item, hitem, rfl⟩
  rw [shows_iff hitem]
  exact fun hs => hc hs.2

/-- Adding a table appends its flagged items to the two lists. -/
theorem addTable_query (h : q.WellFormed) {c : ContainerId} (hc : ¬ q.isAttached c) :
    (q.itemsOf c).foldl attachItem { q with tables := q.tables ++ [c] } =
      { q with
        tables := q.tables ++ [c]
        selected := q.selected ++ (q.itemsOf c).filter (q.itemHas (·.selected))
        sortList := q.sortList ++ (q.itemsOf c).filter (q.itemHas Item.isSorted) } := by
  rw [foldl_attachItem _ (h.owned.nodup_itemsOf c)]
  · rfl
  · intro i hi hmem
    exact h.not_shows hc hi ((h.listed.selected.mem i).1 hmem)
  · intro i hi hmem
    exact h.not_shows hc hi ((h.listed.sortList.mem i).1 hmem)

theorem addTable (h : q.WellFormed) {c : ContainerId} (hknown : q.containers.contains c)
    (hconst : c ≠ q.constants) (htable : c ∉ q.tables) :
    ((q.itemsOf c).foldl attachItem { q with tables := q.tables ++ [c] }).WellFormed := by
  have hc : ¬ q.isAttached c := by
    rw [isAttached_iff]
    exact fun hor => hor.elim hconst htable
  have hattached : ∀ k, isAttached { q with tables := q.tables ++ [c] } k ↔
      q.isAttached k ∨ k = c := by
    intro k
    simp only [isAttached_iff, List.mem_append, List.mem_singleton, or_assoc]
  rw [h.addTable_query hc]
  apply withLists (q := { q with tables := q.tables ++ [c] })
  · exact h.numbered.congr rfl rfl rfl rfl
  · apply h.owned.withTables
    · exact h.owned.nodup_tables.append (List.nodup_singleton c)
        (List.disjoint_singleton.2 htable)
    · intro k hk
      rcases List.mem_append.1 hk with hk | hk
      · exact h.owned.knows_tables k hk
      · rw [List.mem_singleton.1 hk]
        exact hknown
    · intro hmem
      rcases List.mem_append.1 hmem with hmem | hmem
      · exact h.owned.constants_not_table hmem
      · exact hconst (List.mem_singleton.1 hmem).symm
  · exact h.indexed.of_home rfl rfl fun _ _ _ => ⟨rfl, rfl⟩
  · exact h.listed.selected.append (h.owned.nodup_itemsOf c) (fun i hi => h.not_shows hc hi)
      (shows_attach h.owned (fun _ => rfl) hattached)
  · exact h.listed.sortList.append (h.owned.nodup_itemsOf c) (fun i hi => h.not_shows hc hi)
      (shows_attach h.owned (fun _ => rfl) hattached)

/-- Dropping joins keeps a query well-formed. -/
theorem dropJoins (h : q.WellFormed) (js : List JoinId) : (q.dropJoins js).WellFormed := by
  have heq := dropJoins_eq q js
  refine h.keepLists (h.numbered.dropJoins h.indexed js) (h.owned.dropJoins js)
    (h.indexed.dropJoins js).1 ?_ ?_ ?_ ?_
  · rw [heq]
  · rw [heq]
  · intro i
    rw [heq]
    rfl
  · intro c
    rw [heq]
    rfl

theorem removeTable (h : q.WellFormed) {c : ContainerId} (hconst : c ≠ q.constants) :
    ((q.itemsOf c).foldl unlistItem
      (Query.dropJoins { q with tables := q.tables.erase c } (q.joinsOf c))).WellFormed := by
  let q₁ : Query := { q with tables := q.tables.erase c }
  have hn : q₁.Numbered := h.numbered.congr rfl rfl rfl rfl
  have ho : q₁.Owned :=
    h.owned.withTables (h.owned.nodup_tables.erase c)
      (fun k hk => h.owned.knows_tables k (List.mem_of_mem_erase hk))
      (fun hk => h.owned.constants_not_table (List.mem_of_mem_erase hk))
  have hi : q₁.Indexed := h.indexed.of_home rfl rfl fun _ _ _ => ⟨rfl, rfl⟩
  have heq := dropJoins_eq q₁ (q.joinsOf c)
  have hattached : ∀ k, (q₁.dropJoins (q.joinsOf c)).isAttached k ↔ q.isAttached k ∧ k ≠ c := by
    intro k
    rw [heq, isAttached_iff, isAttached_iff, h.owned.nodup_tables.mem_erase_iff]
    constructor
    · rintro (rfl | ⟨hne, hmem⟩)
      · exact ⟨Or.inl rfl, hconst.symm⟩
      · exact ⟨Or.inr hmem, hne⟩
    · rintro ⟨hor, hne⟩
      exact hor.imp id fun hmem => ⟨hne, hmem⟩
  have hitem : ∀ i, (q₁.dropJoins (q.joinsOf c)).item? i = q.item? i := by
    intro i
    rw [heq]
    rfl
  -- Joins go before items, and their going touches neither list.
  have hlists : (q₁.dropJoins (q.joinsOf c)).selected = q.selected ∧
      (q₁.dropJoins (q.joinsOf c)).sortList = q.sortList := by
    rw [heq]
    exact ⟨rfl, rfl⟩
  rw [foldl_unlistItem, hlists.1, hlists.2]
  exact withLists (hn.dropJoins hi _) (ho.dropJoins _) (hi.dropJoins _).1
    (h.listed.selected.without (shows_detach h.owned hitem hattached))
    (h.listed.sortList.without (shows_detach h.owned hitem hattached))

/-! ## Constants -/

/-- When no join touches the constants, they may be replaced by new ones. -/
theorem renewConstants (h : q.WellFormed) (hq : q.count < UInt32.size)
    (hjoins : q.joinsOf q.constants = []) (uuid : Uuid) :
    WellFormed { q with
      items := (q.itemsOf q.constants).foldl IdMap.erase q.items
      containers := (q.containers.erase q.constants).insert q.nextId (.ofConstants uuid)
      count := q.count + 1
      constants := q.nextId
      selected := q.selected.filter (· ∉ q.itemsOf q.constants)
      sortList := q.sortList.filter (· ∉ q.itemsOf q.constants) } := by
  let q₁ : Query := { q with
    items := (q.itemsOf q.constants).foldl IdMap.erase q.items
    containers := (q.containers.erase q.constants).insert q.nextId (.ofConstants uuid)
    count := q.count + 1
    constants := q.nextId }
  have hitem : ∀ i, q₁.item? i = if i ∈ q.itemsOf q.constants then none else q.item? i :=
    fun i => IdMap.get?_foldl_erase _ _ _
  have hhome : ∀ i, q₁.home? i = if i ∈ q.itemsOf q.constants then none else q.home? i := by
    intro i
    rw [home?, hitem]
    split <;> rfl
  -- The counter and the numbers: one new container, and all else was known before.
  have hn : q₁.Numbered := by
    refine h.numbered.grow hq rfl .container ?_
    intro e i hi
    cases e with
    | item =>
      refine Or.inl ?_
      rcases (q₁.items.contains_iff i).1 hi with ⟨item, hitem'⟩
      have hsome := (hitem i).symm.trans hitem'
      split at hsome
      · cases hsome
      · exact IdMap.contains_of_get? hsome
    | join => exact Or.inl hi
    | container =>
      rcases (IdMap.contains_insert _ _ _ _).1 hi with heq | hi
      · exact Or.inr ⟨rfl, heq⟩
      · exact Or.inl ((IdMap.contains_erase _ _ _).1 hi).2
  have hi : q₁.Indexed := by
    refine h.indexed.of_home rfl rfl ?_
    intro j join hj
    -- A join that uses an item of the constants would be listed under them.
    rcases h.indexed.home_of_join hj with ⟨l, r, hl, hr, _⟩
    have hno : ∀ c, l = c ∨ r = c → c ≠ q.constants := by
      rintro c hc rfl
      have hmem := h.indexed.mem_joinsOf.2 ⟨l, r, ends?_eq_some.2 ⟨join, hj, hl, hr⟩, hc⟩
      rw [hjoins] at hmem
      exact List.not_mem_nil hmem
    have hkeep : ∀ i c, q.home? i = some c → c ≠ q.constants → q₁.home? i = q.home? i := by
      intro i c hc hne
      rw [hhome, if_neg]
      rw [h.owned.mem_itemsOf, hc, Option.some.injEq]
      exact hne
    exact ⟨hkeep _ l hl (hno l (Or.inl rfl)), hkeep _ r hr (hno r (Or.inr rfl))⟩
  have hshows : ∀ p i, q₁.Shows p i ↔ q.Shows p i ∧ i ∉ q.itemsOf q.constants := by
    intro p i
    rw [shows_iff_home, shows_iff_home, hhome, itemHas, hitem]
    by_cases hmem : i ∈ q.itemsOf q.constants
    · simp [hmem]
    · have hold : ∀ c, q.home? i = some c → (q₁.isAttached c ↔ q.isAttached c) := by
        intro c hc
        have hne : c ≠ q.nextId := fun heq => h.owned.itemsOf_nextId h.numbered hq i (heq ▸ hc)
        have hne' : c ≠ q.constants := fun heq =>
          hmem ((h.owned.mem_itemsOf _ _).2 (heq ▸ hc))
        rw [isAttached_iff, isAttached_iff, or_iff_right hne, or_iff_right hne']
      simp only [hmem, not_false_eq_true, and_true, itemHas]
      refine and_congr_right fun _ => exists_congr ?_
      intro c
      exact and_congr_right fun hc => hold c hc
  exact withLists (q := q₁) hn (h.owned.renewConstants h.numbered hq uuid) hi
    (h.listed.selected.without (hshows _)) (h.listed.sortList.without (hshows _))

theorem newConstants (h : q.WellFormed) (hq : q.count < UInt32.size) (uuid : Uuid) :
    (q.newConstants uuid).2.query.WellFormed := by
  let d := q.dropJoins (q.joinsOf q.constants)
  have heq : d = _ := dropJoins_eq q (q.joinsOf q.constants)
  have hconst : d.constants = q.constants := by rw [heq]
  have hitems : d.itemsOf q.constants = q.itemsOf q.constants := by
    rw [heq]
    rfl
  -- What is left of the joins does not touch the constants.
  have hjoins : d.joinsOf d.constants = [] := by
    rw [hconst, List.eq_nil_iff_forall_not_mem]
    intro j hj
    rcases (h.dropJoins _).indexed.mem_joinsOf.1 hj with ⟨l, r, hends, hc⟩
    rcases ends?_eq_some.1 hends with ⟨join, hjoin, hl, hr⟩
    rcases h.indexed.join?_dropJoins hjoin with ⟨hnot, hjoin⟩
    have hhome : ∀ i, d.home? i = q.home? i := by
      intro i
      rw [heq]
      rfl
    rw [hhome] at hl hr
    exact hnot (h.indexed.mem_joinsOf.2 ⟨l, r, ends?_eq_some.2 ⟨join, hjoin, hl, hr⟩, hc⟩)
  have hcount : d.count < UInt32.size := by rw [heq]; exact hq
  have hfinal := (h.dropJoins (q.joinsOf q.constants)).renewConstants hcount hjoins uuid
  rw [newConstants_query, withoutConstants, foldl_discardItem]
  change WellFormed { d with
    items := (q.itemsOf q.constants).foldl IdMap.erase d.items
    containers := (d.containers.erase q.constants).insert d.nextId (.ofConstants uuid)
    count := d.count + 1
    constants := d.nextId
    selected := d.selected.filter (· ∉ q.itemsOf q.constants)
    sortList := d.sortList.filter (· ∉ q.itemsOf q.constants) }
  rw [← hitems, ← hconst]
  exact hfinal

/-! ## Items -/

theorem insertItem (h : q.WellFormed) (hq : q.count < UInt32.size) {c : ContainerId}
    (hc : q.containers.contains c) (spec : ItemSpec) (uuid : Uuid) :
    (q.insertItem c spec uuid).2.query.WellFormed := by
  let q₁ := q.putItem c spec uuid
  have hitem : ∀ k, q₁.item? k =
      if k = q.nextId then some { spec with container := c, uuid } else q.item? k :=
    item?_putItem c spec uuid
  have hnew : ∀ p, ¬ q.Shows p q.nextId := by
    rintro p ⟨item, hitem, _⟩
    rw [h.numbered.item?_nextId hq] at hitem
    cases hitem
  have hn : q₁.Numbered := by
    refine h.numbered.grow hq rfl .item ?_
    intro e i hi
    cases e with
    | item =>
      rcases (IdMap.contains_insert _ _ _ _).1 hi with heq | hi
      · exact Or.inr ⟨rfl, heq⟩
      · exact Or.inl hi
    | join => exact Or.inl hi
    | container => exact Or.inl ((IdMap.contains_modify _ _ _ _).1 hi)
  have ho : q₁.Owned := h.owned.putItem h.numbered hq hc spec uuid
  have hi : q₁.Indexed := by
    refine h.indexed.of_home rfl rfl ?_
    intro j join hj
    rcases h.indexed.home_of_join hj with ⟨l, r, hl, hr, _⟩
    have hkeep : ∀ i k, q.home? i = some k → q₁.home? i = q.home? i := by
      intro i k hk
      have hne : i ≠ q.nextId := by
        rintro rfl
        rw [home?, h.numbered.item?_nextId hq] at hk
        cases hk
      rw [home?, hitem, if_neg hne, home?]
    exact ⟨hkeep _ l hl, hkeep _ r hr⟩
  have hold : ∀ p i, i ≠ q.nextId → (q₁.Shows p i ↔ q.Shows p i) := by
    intro p i hne
    simp only [Shows, hitem, if_neg hne]
    rfl
  have hshow : ∀ p, q₁.Shows p q.nextId ↔
      q₁.itemHas p q.nextId ∧ q.isAttached c := by
    intro p
    rw [shows_iff (show q₁.item? q.nextId = some _ from (hitem _).trans (if_pos rfl)), itemHas,
      hitem, if_pos rfl]
    rfl
  rw [insertItem_query]
  by_cases hattached : q.isAttached c
  · -- The lists hold known items, and the number of the new item was free.
    have hs : q.nextId ∉ q₁.selected := fun hmem => hnew _ ((h.listed.selected.mem _).1 hmem)
    have ht : q.nextId ∉ q₁.sortList := fun hmem => hnew _ ((h.listed.sortList.mem _).1 hmem)
    have hlist : ∀ p l, q.Lists p l → (q.nextId : ItemId) ∉ l →
        q₁.Lists p (l ++ [(q.nextId : ItemId)].filter (q₁.itemHas p)) := by
      intro p l hl hnot
      have hplace := hl.place (hold p) ((hshow p).trans (and_iff_left hattached))
      rw [filter_ne_of_not_mem hnot] at hplace
      exact hplace
    rw [if_pos hattached, attachItem_eq hs ht]
    exact withLists hn ho hi (hlist _ _ h.listed.selected hs) (hlist _ _ h.listed.sortList ht)
  · -- In a detached container the new item is not shown, whatever its flags.
    have hsame : ∀ p i, q₁.Shows p i ↔ q.Shows p i := by
      intro p i
      by_cases hne : i = q.nextId
      · subst hne
        exact iff_of_false (fun hs => hattached ((hshow p).1 hs).2) (hnew p)
      · exact hold p i hne
    rw [if_neg hattached]
    exact ⟨hn, ho, hi, h.listed.selected.congr (hsame _), h.listed.sortList.congr (hsame _)⟩

/-- When no join uses an item, it may be taken from its lists and its container. -/
theorem takeItem (h : q.WellFormed) {i : ItemId} {item : Item} (hitem : q.item? i = some item)
    (hfree : q.Unused i) :
    (Query.takeItem (if q.isAttached item.container then q.unlistItem i else q)
      item.container i).WellFormed := by
  let q₁ := q.takeItem item.container i
  have hitem' : ∀ k, q₁.item? k = if k = i then none else q.item? k :=
    fun k => item?_takeItem item.container i k
  have hn : q₁.Numbered := by
    refine h.numbered.mono (Nat.le_refl q.count) ?_
    intro e k hk
    cases e with
    | item => exact ((IdMap.contains_erase _ _ _).1 hk).2
    | join => exact hk
    | container => exact (IdMap.contains_modify _ _ _ _).1 hk
  have ho : q₁.Owned := h.owned.takeItem (home?_of_item? hitem)
  have hi : q₁.Indexed := by
    refine h.indexed.of_home rfl rfl ?_
    intro j join hj
    rcases hfree j join hj with ⟨hl, hr⟩
    simp only [home?, hitem', if_neg hl, if_neg hr, and_self]
  have hwithout : ∀ p l, q.Lists p l → q₁.Lists p (l.filter (· ≠ i)) := by
    intro p l hl
    have hgone : q₁.itemHas p i = false := by simp [itemHas, hitem']
    have hold : ∀ k, k ≠ i → (q₁.Shows p k ↔ q.Shows p k) := by
      intro k hk
      simp only [Shows, hitem', if_neg hk]
      rfl
    have hplace := hl.place hold (iff_of_false (by simp [Shows, hitem']) (by simp [hgone]))
    rw [List.filter_singleton, hgone] at hplace
    simpa using hplace
  split
  · exact withLists hn ho hi (hwithout _ _ h.listed.selected) (hwithout _ _ h.listed.sortList)
  · rename_i hdetached
    -- An item outside the statement is on neither list.
    have hnot : ∀ p, ¬ q.Shows p i := by
      intro p
      rw [shows_iff hitem]
      exact fun hs => hdetached hs.2
    have hkeep : ∀ p l, q.Lists p l → q₁.Lists p l := by
      intro p l hl
      have hgone := hwithout p l hl
      rw [filter_ne_of_not_mem fun hmem => hnot p ((hl.mem i).1 hmem)] at hgone
      exact hgone
    exact ⟨hn, ho, hi, hkeep _ _ h.listed.selected, hkeep _ _ h.listed.sortList⟩

theorem removeItem (h : q.WellFormed) {i : ItemId} {x : Item × Edit}
    (hx : q.removeItem i = .ok x) : x.2.query.WellFormed := by
  rcases removeItem_ok hx with ⟨hitem, hquery⟩
  let d := q.dropJoins (q.usersOf x.1.container i)
  have heq : d = _ := dropJoins_eq q (q.usersOf x.1.container i)
  have hd : d.WellFormed := h.dropJoins _
  have hitem' : d.item? i = some x.1 := by
    rw [heq]
    exact hitem
  have hattached : d.isAttached x.1.container = q.isAttached x.1.container := by
    rw [heq]
    rfl
  have hfree : d.Unused i :=
    h.indexed.unused_dropJoins (home?_of_item? hitem) fun _ hj huses =>
      List.mem_filter.2 ⟨hj, huses⟩
  rw [hquery]
  have hfinal := hd.takeItem hitem' hfree
  rw [hattached] at hfinal
  exact hfinal

/-- A move puts a member in another place. -/
theorem perm_moved {l : List ItemId} {i : ItemId} (hi : i ∈ l) {index : Nat}
    (hindex : index < l.length) : ((l.erase i).insertIdx index i).Perm l := by
  have hlen : index ≤ (l.erase i).length := by
    rw [List.length_erase_of_mem hi]
    omega
  exact (List.perm_insertIdx i _ hlen).trans (List.perm_cons_erase hi).symm

theorem moveItem (h : q.WellFormed) {i : ItemId} {index : Nat} (hi : i ∈ q.selected)
    (hindex : index < q.selected.length) :
    WellFormed { q with selected := (q.selected.erase i).insertIdx index i } :=
  withLists h.numbered h.owned h.indexed (h.listed.selected.perm (perm_moved hi hindex))
    h.listed.sortList

theorem moveSortedItemToEnd (h : q.WellFormed) {i : ItemId} (hi : i ∈ q.sortList) :
    WellFormed { q with sortList := q.sortList.erase i ++ [i] } := by
  have hperm : (q.sortList.erase i ++ [i]).Perm q.sortList :=
    (List.perm_append_singleton i _).trans (List.perm_cons_erase hi).symm
  exact withLists h.numbered h.owned h.indexed h.listed.selected (h.listed.sortList.perm hperm)

/-! ## Properties of items -/

section Properties

variable {i : ItemId} {f : Item → Item}

/-- Three of the invariants do not see the properties of an item. -/
theorem updateItem_parts (h : q.WellFormed) (hf : ∀ x, (f x).container = x.container) :
    (q.updateItem i f).Numbered ∧ (q.updateItem i f).Owned ∧ (q.updateItem i f).Indexed := by
  have hhome := home?_updateItem (q := q) hf i
  refine ⟨?_, ?_, ?_⟩
  · refine h.numbered.mono (Nat.le_refl q.count) ?_
    intro e k hk
    cases e with
    | item => exact (IdMap.contains_modify _ _ _ _).1 hk
    | container => exact hk
    | join => exact hk
  · exact h.owned.congr (fun _ => rfl) hhome rfl rfl (fun _ => rfl)
  · exact h.indexed.of_home rfl rfl fun _ _ _ => ⟨hhome _, hhome _⟩

theorem item?_updateItem (k : ItemId) :
    (q.updateItem i f).item? k = if k = i then (q.item? k).map f else q.item? k :=
  IdMap.get?_modify _ _ _ _

theorem shows_updateItem_ne {p : Item → Bool} {k : ItemId} (hk : k ≠ i) :
    (q.updateItem i f).Shows p k ↔ q.Shows p k := by
  simp only [Shows, item?_updateItem, if_neg hk]
  rfl

/-- Whether an item is shown depends on its flag and its container only. -/
theorem shows_updateItem {p : Item → Bool} (hf : ∀ x, (f x).container = x.container)
    (hp : ∀ x, p (f x) = p x) (k : ItemId) : (q.updateItem i f).Shows p k ↔ q.Shows p k := by
  by_cases hk : k = i
  · subst hk
    cases hitem : q.item? k with
    | none => simp [Shows, item?_updateItem, hitem]
    | some item =>
      rw [shows_iff hitem, shows_iff (by rw [item?_updateItem, if_pos rfl, hitem]; rfl), hp, hf]
      rfl
  · exact shows_updateItem_ne hk

/-- Changing an item other than in its flags and its container keeps a query well-formed. -/
theorem updateItem (h : q.WellFormed) (hf : ∀ x, (f x).container = x.container)
    (hsel : ∀ x, (f x).selected = x.selected) (hsort : ∀ x, (f x).sortOrder = x.sortOrder) :
    (q.updateItem i f).WellFormed := by
  rcases h.updateItem_parts (i := i) hf with ⟨hn, ho, hi⟩
  refine ⟨hn, ho, hi, ⟨?_, ?_⟩⟩
  · exact h.listed.selected.congr (shows_updateItem hf hsel)
  · refine h.listed.sortList.congr (shows_updateItem hf ?_)
    intro x
    simp only [Item.isSorted, hsort]

/-- What is left to show of a change of a property: that what follows it, when the item's
container is attached, brings the lists in order. -/
theorem changeItem (h : q.WellFormed) {p : ItemProperty} {e : Edit}
    (hf : ∀ x, (f x).container = x.container)
    (hfollow : ∀ item, q.item? i = some item → q.isAttached item.container →
      p.read item ≠ p.read (f item) → (p.follow (q.updateItem i f) i).WellFormed)
    (he : q.changeItem i p f = .ok e) : e.query.WellFormed := by
  rcases changeItem_ok he with ⟨item, hitem, ⟨_, heq⟩ | ⟨hne, heq⟩⟩
  · rw [heq]
    exact h
  · rw [heq]
    split
    · rename_i hattached
      exact hfollow item hitem hattached hne
    · rename_i hdetached
      rcases h.updateItem_parts (i := i) hf with ⟨hn, ho, hi⟩
      have hsame : ∀ g k, (q.updateItem i f).Shows g k ↔ q.Shows g k := by
        intro g k
        by_cases hk : k = i
        · -- Whatever its flags, an item of a detached container is not shown.
          subst hk
          rw [shows_iff hitem, shows_iff (by rw [item?_updateItem, if_pos rfl, hitem]; rfl), hf]
          exact iff_of_false (fun hs => hdetached hs.2) fun hs => hdetached hs.2
        · exact shows_updateItem_ne hk
      exact ⟨hn, ho, hi, h.listed.selected.congr (hsame _), h.listed.sortList.congr (hsame _)⟩

/-- Properties that nothing follows. -/
theorem changeItem_plain (h : q.WellFormed) {p : ItemProperty} {e : Edit}
    (he : q.changeItem i p f = .ok e) (hp : ∀ q i, p.follow q i = q)
    (hf : ∀ x, (f x).container = x.container) (hsel : ∀ x, (f x).selected = x.selected)
    (hsort : ∀ x, (f x).sortOrder = x.sortOrder) : e.query.WellFormed := by
  refine h.changeItem hf ?_ he
  intro _ _ _ _
  rw [hp]
  exact h.updateItem hf hsel hsort

/-- Of an item of an attached container the flag alone decides whether it is shown. -/
theorem shows_updateItem_self {p : Item → Bool} {item : Item}
    (hf : ∀ x, (f x).container = x.container) (hitem : q.item? i = some item)
    (hattached : q.isAttached item.container) :
    (q.updateItem i f).Shows p i ↔ (q.updateItem i f).itemHas p i := by
  have hnew : (q.updateItem i f).item? i = some (f item) := by
    rw [item?_updateItem, if_pos rfl, hitem]
    rfl
  rw [shows_iff hnew, itemHas_of_item? hnew, hf]
  exact and_iff_left hattached

theorem setSelected (h : q.WellFormed) {value : Bool} {e : Edit}
    (he : q.setSelected i value = .ok e) : e.query.WellFormed := by
  refine h.changeItem (p := .selected) (f := fun x => { x with selected := value })
    (fun _ => rfl) (fun item hitem hattached hne => ?_) he
  let q₁ := q.updateItem i fun x => { x with selected := value }
  obtain ⟨hn, ho, hi⟩ := h.updateItem_parts (i := i) (f := fun x => { x with selected := value })
    fun _ => rfl
  -- The setter goes on only when the flag changes, so it was the other one before.
  have hold : item.selected = !value := by
    have hne' : item.selected ≠ value := fun heq => hne (congrArg PropertyValue.flag heq)
    cases hv : value <;> cases hs : item.selected <;> simp_all
  have hchanged : i ∈ q₁.selected ↔ ¬ q₁.itemHas (·.selected) i := by
    have hmem : i ∈ q.selected ↔ item.selected := by
      rw [h.listed.selected.mem, shows_iff hitem, and_iff_left hattached]
    have hnew : q₁.item? i = some { item with selected := value } := by
      rw [item?_updateItem, if_pos rfl, hitem]
      rfl
    have hhas : q₁.itemHas (·.selected) i = value := itemHas_of_item? hnew
    rw [hhas, show i ∈ q₁.selected ↔ i ∈ q.selected from Iff.rfl, hmem, hold]
    cases value <;> simp
  change (q₁.syncSelection i).WellFormed
  rw [syncSelection_of_changed hchanged]
  refine withLists hn ho hi (h.listed.selected.place (fun k hk => shows_updateItem_ne hk)
    (shows_updateItem_self (fun _ => rfl) hitem hattached)) ?_
  exact h.listed.sortList.congr (shows_updateItem (fun _ => rfl) fun _ => rfl)

theorem setSortOrder (h : q.WellFormed) {value : SortOrder} {e : Edit}
    (he : q.setSortOrder i value = .ok e) : e.query.WellFormed := by
  refine h.changeItem (p := .sortOrder) (f := fun x => { x with sortOrder := value })
    (fun _ => rfl) (fun item hitem hattached _ => ?_) he
  obtain ⟨hn, ho, hi⟩ := h.updateItem_parts (i := i) (f := fun x => { x with sortOrder := value })
    fun _ => rfl
  change (Query.syncSortList (q.updateItem i fun x => { x with sortOrder := value }) i).WellFormed
  rw [syncSortList_eq]
  refine withLists hn ho hi ?_ (h.listed.sortList.place (fun k hk => shows_updateItem_ne hk)
    (shows_updateItem_self (fun _ => rfl) hitem hattached))
  exact h.listed.selected.congr (shows_updateItem (fun _ => rfl) fun _ => rfl)

theorem foldl_countItem (h : q.WellFormed) (xs : List (ItemId × GroupRole)) :
    (xs.foldl countItem q).WellFormed := by
  induction xs generalizing q with
  | nil => exact h
  | cons x rest ih => exact ih (h.updateItem (fun _ => rfl) (fun _ => rfl) fun _ => rfl)

theorem setGrouping (h : q.WellFormed) (enabled : Bool) :
    (q.setGrouping enabled).query.WellFormed := by
  rw [setGrouping_query]
  split
  · exact h
  · split
    · have hcounted := foldl_countItem (q := { q with canExecute := false })
        (h.congr rfl) q.uncountedColumns
      exact hcounted.congr rfl
    · exact h.congr rfl

end Properties

/-! ## Joins -/

theorem addJoin (h : q.WellFormed) (hq : q.count < UInt32.size) {join : Join}
    {x : JoinId × Edit} (hx : q.addJoin join = .ok x) : x.2.query.WellFormed := by
  rcases addJoin_ok hx with ⟨l, r, left, right, hl, hr, hne, _, _, _, hquery⟩
  have hcolumns : ∀ (j : Join) (side : Side) (flag : Option Bool),
      (inherit j side flag).left = j.left ∧ (inherit j side flag).right = j.right := by
    intro j side flag
    cases flag <;> cases side <;> exact ⟨rfl, rfl⟩
  rw [hquery]
  refine h.keepLists ?_ ?_ ?_ rfl rfl (fun _ => rfl) (fun _ => rfl)
  · refine h.numbered.grow hq rfl .join ?_
    intro e i hi
    cases e with
    | item => exact Or.inl hi
    | container => exact Or.inl hi
    | join =>
      rcases (IdMap.contains_insert _ _ _ _).1 hi with heq | hi
      · exact Or.inr ⟨rfl, heq⟩
      · exact Or.inl hi
  · exact h.owned.of_arenas rfl rfl rfl rfl
  · apply h.indexed.putJoin h.numbered hq hne
    · rw [(hcolumns _ _ _).1, (hcolumns _ _ _).1]
      exact home?_of_item? hl
    · rw [(hcolumns _ _ _).2, (hcolumns _ _ _).2]
      exact home?_of_item? hr

theorem dropJoin (h : q.WellFormed) (j : JoinId) : (q.dropJoin j).WellFormed :=
  h.dropJoins [j]

theorem updateJoin (h : q.WellFormed) (j : JoinId) {f : Join → Join}
    (hf : ∀ x, (f x).left = x.left ∧ (f x).right = x.right) : (q.updateJoin j f).WellFormed := by
  refine h.keepLists ?_ ?_ (h.indexed.updateJoin j hf) rfl rfl (fun _ => rfl) (fun _ => rfl)
  · refine h.numbered.mono (Nat.le_refl q.count) ?_
    intro e k hk
    cases e with
    | item => exact hk
    | container => exact hk
    | join => exact (IdMap.contains_modify _ _ _ _).1 hk
  · exact h.owned.of_arenas rfl rfl rfl rfl

theorem foldl_setFlag (h : q.WellFormed) (outer : Bool) (xs : List (JoinId × Side)) :
    (xs.foldl (·.setFlag outer) q).WellFormed := by
  induction xs generalizing q with
  | nil => exact h
  | cons x rest ih =>
    refine ih (h.updateJoin x.1 ?_)
    intro j
    cases x.2 <;> exact ⟨rfl, rfl⟩

/-! ## Operations -/

/-- An operation that goes through leaves a well-formed query behind. -/
theorem perform (h : q.WellFormed) (hq : q.count < UInt32.size) {op : Operation} {reply : Reply}
    {e : Edit} (hp : q.perform op = .ok (reply, e)) : e.query.WellFormed := by
  cases op with
  | newTable identity uuid =>
    cases hp
    exact h.newTable hq identity uuid
  | addTable c =>
    rcases Outcome.ofEdit_ok hp with ⟨-, he⟩
    rcases addTable_ok he with ⟨hknown, hconst, htable, heq⟩
    exact heq ▸ h.addTable hknown hconst htable
  | removeTable c =>
    rcases Outcome.ofEdit_ok hp with ⟨-, he⟩
    rcases removeTable_ok he with ⟨hconst, -, heq⟩
    exact heq ▸ h.removeTable hconst
  | setContainerAlias c a =>
    rcases Outcome.ofEdit_ok hp with ⟨-, he⟩
    rw [(setContainerAlias_ok he).2]
    exact h.updateContainer c fun _ => ⟨rfl, rfl⟩
  | newConstants uuid =>
    cases hp
    exact h.newConstants hq uuid
  | addItem c spec uuid =>
    rcases Outcome.map_ok hp with ⟨x, hx, -, rfl⟩
    rcases addItem_ok hx with ⟨hknown, rfl⟩
    exact h.insertItem hq hknown spec uuid
  | removeItem i =>
    rcases Outcome.map_ok hp with ⟨x, hx, -, rfl⟩
    exact h.removeItem hx
  | moveItem i index =>
    rcases Outcome.ofEdit_ok hp with ⟨-, he⟩
    rcases moveItem_ok he with ⟨hi, hindex, heq⟩
    exact heq ▸ h.moveItem hi hindex
  | moveSortedItemToEnd i =>
    rcases Outcome.ofEdit_ok hp with ⟨-, he⟩
    rcases moveSortedItemToEnd_ok he with ⟨hi, heq⟩
    exact heq ▸ h.moveSortedItemToEnd hi
  | setSelected i v => exact h.setSelected (Outcome.ofEdit_ok hp).2
  | setSortOrder i v => exact h.setSortOrder (Outcome.ofEdit_ok hp).2
  | setGroupRole i v | setItemAlias i v | setFilter i v | setHaving i v | setItemName i v =>
    exact h.changeItem_plain (Outcome.ofEdit_ok hp).2 (fun _ _ => rfl) (fun _ => rfl)
      (fun _ => rfl) fun _ => rfl
  | setGrouping v =>
    cases hp
    exact h.setGrouping v
  | addJoin join =>
    rcases Outcome.map_ok hp with ⟨x, hx, -, rfl⟩
    exact h.addJoin hq hx
  | removeJoin j =>
    rcases Outcome.map_ok hp with ⟨x, hx, -, rfl⟩
    rw [(removeJoin_ok hx).2]
    exact h.dropJoin j
  | setOuter j side v =>
    rcases Outcome.ofEdit_ok hp with ⟨-, he⟩
    rcases setOuter_ok he with ⟨_, _, changes, -, -, -, heq⟩
    exact heq ▸ h.foldl_setFlag v changes
  | setComparator j v =>
    rcases Outcome.ofEdit_ok hp with ⟨-, he⟩
    rcases setComparator_ok he with ⟨_, -, ⟨-, heq⟩ | ⟨-, heq⟩⟩
    · exact heq ▸ h
    · exact heq ▸ h.updateJoin j fun _ => ⟨rfl, rfl⟩
  | setName v | setZoomLevel v | setStreamingRowLimit v | setStreaming v | setDialect v
  | setRowLimit v =>
    cases hp
    exact h.congr rfl
  | setGlobalFilter v =>
    cases hp
    rw [setGlobalFilter_query]
    exact h.congr rfl
  | defineHandWritten text =>
    cases hp
    rw [defineHandWritten_query]
    exact h.congr rfl
  | removeHandWritten =>
    cases hp
    rw [removeHandWritten_query]
    exact h.congr rfl
  | setCanExecute v | startCompound | endCompound =>
    cases hp
    exact (Edit.query_setCanExecute _ _).symm ▸ h.congr rfl

end WellFormed

end LiveSelect.Query
