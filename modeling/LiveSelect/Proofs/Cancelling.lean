import Mathlib.Data.List.InsertIdx
import LiveSelect.Proofs.Removals

/-! # Operations that cancel out

What has just been made can be taken back: an item or a join that is removed right after it
was added, a selection that is undone, a move that is reversed. Nothing of it is left but the
number that was handed out. Whole queries are compared, so the index keeps no empty list and
no list changes its order. -/

namespace LiveSelect

/-! ## Moves in a list -/

section Lists

variable {α : Type} [DecidableEq α] {l : List α} {x : α}

/-- Erasing what was inserted gives the list back. -/
theorem erase_insertIdx (hx : x ∉ l) {n : Nat} (hn : n ≤ l.length) :
    (l.insertIdx n x).erase x = l := by
  induction n generalizing l with
  | zero => rw [List.insertIdx_zero, List.erase_cons_head]
  | succ n ih =>
    cases l with
    | nil => exact absurd hn (Nat.not_succ_le_zero n)
    | cons y rest =>
      -- The first member is not what was inserted, so the erasure passes over it.
      have hy : y ≠ x := fun heq => hx (heq ▸ List.mem_cons_self)
      have hrest : x ∉ rest := fun hmem => hx (List.mem_cons_of_mem _ hmem)
      rw [List.insertIdx_succ_cons, List.erase_cons_tail (by simpa using hy),
        ih hrest (Nat.le_of_succ_le_succ hn)]

/-- Inserting what was erased at its old place gives the list back. -/
theorem insertIdx_idxOf_erase (hx : x ∈ l) : (l.erase x).insertIdx (l.idxOf x) x = l := by
  have hlt : l.idxOf x < l.length := List.idxOf_lt_length_of_mem hx
  have hget : l[l.idxOf x] = x := List.getElem_idxOf hlt
  have hinsert := List.insertIdx_eraseIdx_getElem hlt
  rwa [hget, List.eraseIdx_idxOf_eq_erase] at hinsert

/-- A move and the move back to the old place cancel out. -/
theorem move_back (hl : l.Nodup) (hx : x ∈ l) {n : Nat} (hn : n < l.length) :
    (((l.erase x).insertIdx n x).erase x).insertIdx (l.idxOf x) x = l := by
  have hlen : n ≤ (l.erase x).length := by
    rw [List.length_erase_of_mem hx]
    omega
  rw [erase_insertIdx hl.not_mem_erase hlen, insertIdx_idxOf_erase hx]

end Lists

namespace Query

variable {q : Query} {i : ItemId} {item : Item}

/-! ## Items -/

/-- A list that something may have entered at the end is the old one without it. -/
theorem filter_append_entered {α : Type} [DecidableEq α] {l : List α} {a : α} (ha : a ∉ l)
    (p : α → Bool) : (l ++ [a].filter p).filter (· ≠ a) = l := by
  rw [List.filter_append, filter_ne_of_not_mem ha]
  cases hp : p a <;> simp [hp]

/-- A new item that is taken from its container leaves no trace in the arenas. -/
theorem Owned.takeItem_putItem (h : q.Owned) (hn : q.Numbered) (hq : q.count < UInt32.size)
    (c : ContainerId) (spec : ItemSpec) (uuid : Uuid) :
    (q.putItem c spec uuid).takeItem c q.nextId = q.handOut := by
  have hitems := IdMap.erase_insert (hn.fresh hq (e := .item))
    ({ spec with container := c, uuid } : Item)
  have hcontainers : (q.containers.modify c fun k =>
      { k with items := k.items ++ [(q.nextId : ItemId)] }).modify c (fun k =>
      { k with items := k.items.filter (· ≠ q.nextId) }) = q.containers := by
    rw [IdMap.modify_modify]
    apply IdMap.modify_eq_self
    intro k hk
    -- The container did not hold the new number.
    have hfresh : q.nextId ∉ k.items := by
      rw [items_of_container? hk, h.mem_itemsOf, home?, hn.item?_nextId hq]
      exact fun heq => by cases heq
    have hback : (k.items ++ [(q.nextId : ItemId)]).filter (· ≠ q.nextId) = k.items :=
      filter_append_entered hfresh fun _ => true
    simp only [Function.comp_apply, hback]
  unfold Query.takeItem Query.putItem updateContainer
  simp only [handOut, hitems, hcontainers]

/-- No join uses an item that is not known. -/
theorem Indexed.usersOf_of_absent (h : q.Indexed) (hi : q.item? i = none) (c : ContainerId) :
    q.usersOf c i = [] := by
  have hhome : q.home? i = none := by rw [home?, hi, Option.map_none]
  rw [usersOf, List.filter_eq_nil_iff]
  intro j _ huses
  rcases (Option.any_eq_true _ _).1 huses with ⟨join, hj, huse⟩
  rcases h.home_of_join hj with ⟨l, r, hl, hr, -⟩
  rcases Join.uses_iff.1 huse with rfl | rfl
  · rw [hhome] at hl
    cases hl
  · rw [hhome] at hr
    cases hr

/-- An item that no join uses is taken from the lists and from its container only. -/
theorem removeItem_of_unused (hitem : q.item? i = some item)
    (hunused : q.usersOf item.container i = []) :
    ∃ e, q.removeItem i = .ok (item, e) ∧
      e.query = (if q.isAttached item.container then q.unlistItem i else q).takeItem
        item.container i := by
  rcases removeItem_of_item? hitem with ⟨e, he⟩
  refine ⟨e, he, ?_⟩
  rw [(removeItem_ok he).2, hunused]
  rfl

namespace WellFormed

theorem nextId_not_mem (h : q.WellFormed) (hq : q.count < UInt32.size) {p : Item → Bool}
    {l : List ItemId} (hl : q.Lists p l) : q.nextId ∉ l := by
  rw [hl.mem]
  rintro ⟨item, hitem, -⟩
  rw [h.numbered.item?_nextId hq] at hitem
  cases hitem

/-- An item that is removed right after it was added leaves nothing but its number. -/
theorem removeItem_of_addItem (h : q.WellFormed) (hq : q.count < UInt32.size) {c : ContainerId}
    {spec : ItemSpec} {uuid : Uuid} {x : ItemId × Edit} (hx : q.addItem c spec uuid = .ok x) :
    ∃ item e, x.2.query.item? x.1 = some item ∧ x.2.query.removeItem x.1 = .ok (item, e) ∧
      e.query = q.handOut := by
  rcases addItem_ok hx with ⟨-, rfl⟩
  have hs := h.nextId_not_mem hq h.listed.selected
  have ht := h.nextId_not_mem hq h.listed.sortList
  have hunused := h.indexed.usersOf_of_absent (h.numbered.item?_nextId hq) c
  have htake := h.owned.takeItem_putItem h.numbered hq c spec uuid
  let p := q.putItem c spec uuid
  have hitem : p.item? q.nextId = some { spec with container := c, uuid } := by
    rw [item?_putItem, if_pos rfl]
  -- In a container that is attached the item may have entered the two lists.
  have hlists : ∃ s t,
      (q.insertItem c spec uuid).2.query = { p with selected := s, sortList := t } ∧
      (if q.isAttached c then s.filter (· ≠ q.nextId) else s) = q.selected ∧
      (if q.isAttached c then t.filter (· ≠ q.nextId) else t) = q.sortList := by
    rw [insertItem_query]
    split
    · rw [attachItem_eq (q := p) hs ht]
      exact ⟨_, _, rfl, filter_append_entered hs _, filter_append_entered ht _⟩
    · exact ⟨q.selected, q.sortList, rfl, rfl, rfl⟩
  rcases hlists with ⟨s, t, hquery, hselected, hsortList⟩
  have hid : (q.insertItem c spec uuid).1 = q.nextId := rfl
  rw [hid, hquery]
  have hitem' : item? { p with selected := s, sortList := t } q.nextId = some _ := hitem
  rcases removeItem_of_unused hitem' hunused with ⟨e, he, heq⟩
  refine ⟨_, e, hitem', he, ?_⟩
  have hattached : isAttached { p with selected := s, sortList := t } c = q.isAttached c := rfl
  calc
    e.query = { p.takeItem c q.nextId with
        selected := if q.isAttached c then s.filter (· ≠ q.nextId) else s
        sortList := if q.isAttached c then t.filter (· ≠ q.nextId) else t } := by
      rw [heq, hattached]
      split <;> rfl
    _ = q.handOut := by
      rw [htake, hselected, hsortList]
      rfl

end WellFormed

/-! ## Joins -/

/-- Only an unknown join cannot be removed. -/
theorem Indexed.removeJoin_of_join? (h : q.Indexed) {j : JoinId} {join : Join}
    (hj : q.join? j = some join) : ∃ e, q.removeJoin j = .ok (join, e) := by
  rcases h.ends_of_join hj with ⟨l, r, hends, -⟩
  unfold removeJoin
  rw [hj, hends]
  exact ⟨_, rfl⟩

/-- A new join that is dropped leaves no trace in the arenas and in the index. -/
theorem WellFormed.dropJoin_putJoin (h : q.WellFormed) (hq : q.count < UInt32.size)
    {l r : ContainerId} (hne : l ≠ r) {join : Join} (hp : (q.putJoin l r join).Indexed) :
    (q.putJoin l r join).dropJoin q.nextId = q.handOut := by
  have hfresh : ¬ q.joins.contains q.nextId := h.numbered.fresh hq (e := .join)
  have hjoins : ((q.putJoin l r join).dropJoin q.nextId).joins = q.joins := by
    rw [hp.joins_dropJoin]
    exact IdMap.erase_insert hfresh join
  have hincidence : ((q.putJoin l r join).dropJoin q.nextId).incidence = q.incidence := by
    refine h.indexed.incidence_congr (hp.dropJoin _) ?_
    intro c
    -- No list held the number before.
    have hnot : q.nextId ∉ q.joinsOf c := by
      intro hmem
      rcases h.indexed.mem_joinsOf_iff.1 hmem with ⟨old, hold, -⟩
      exact hfresh (IdMap.contains_of_get? hold)
    rw [hp.joinsOf_dropJoin, joinsOf_putJoin hne]
    split
    · exact filter_append_entered hnot fun _ => true
    · exact filter_ne_of_not_mem hnot
  rw [dropJoin_eq, hjoins, hincidence]
  rfl

/-- A join that is removed right after it was added leaves nothing but its number. -/
theorem WellFormed.removeJoin_of_addJoin (h : q.WellFormed) (hq : q.count < UInt32.size)
    {join : Join} {x : JoinId × Edit} (hx : q.addJoin join = .ok x) :
    ∃ stored e, x.2.query.join? x.1 = some stored ∧ x.2.query.removeJoin x.1 = .ok (stored, e) ∧
      e.query = q.handOut := by
  have hindexed := (h.addJoin hq hx).indexed
  rcases addJoin_ok hx with ⟨l, r, left, right, -, -, hne, -, -, hid, hquery⟩
  rw [hquery] at hindexed
  rw [hid, hquery]
  have hstored := join?_putJoin (q := q) l.container r.container
    (inherit (inherit join .left left) .right right) q.nextId
  rw [if_pos rfl] at hstored
  rcases hindexed.removeJoin_of_join? hstored with ⟨e, he⟩
  refine ⟨_, e, hstored, he, ?_⟩
  rw [(removeJoin_ok he).2, h.dropJoin_putJoin hq hne hindexed]

/-! ## Selecting and moving -/

/-- A property that changes is set, and the lists follow where the container is attached. -/
theorem changeItem_of_ne (hitem : q.item? i = some item) {p : ItemProperty} {f : Item → Item}
    (hne : p.read item ≠ p.read (f item)) :
    ∃ e, q.changeItem i p f = .ok e ∧
      e.query = if q.isAttached item.container then p.follow (q.updateItem i f) i
        else q.updateItem i f := by
  have hok : ∃ e, q.changeItem i p f = .ok e := by
    unfold changeItem
    rw [hitem]
    simp only [if_neg hne]
    exact ⟨_, rfl⟩
  rcases hok with ⟨e, he⟩
  rcases changeItem_ok he with ⟨item', hitem', ⟨heq, -⟩ | ⟨-, hquery⟩⟩
  · rw [hitem, Option.some.injEq] at hitem'
    exact absurd (hitem' ▸ heq) hne
  · rw [hitem, Option.some.injEq] at hitem'
    exact ⟨e, he, hitem' ▸ hquery⟩

theorem syncSelection_of_unselected (hflag : q.itemHas (·.selected) i = false) :
    q.syncSelection i = { q with selected := q.selected.filter (· ≠ i) } := by
  have hany : (q.item? i).any (·.selected) = false := hflag
  rw [syncSelection, hany]
  rfl

/-- An item that is selected and then no longer selected is as it was, and so is the query. -/
theorem WellFormed.unselect_selected (h : q.WellFormed) (hitem : q.item? i = some item)
    (hflag : item.selected = false) :
    ∃ e e', q.setSelected i true = .ok e ∧ e.query.setSelected i false = .ok e' ∧
      e'.query = q := by
  let on : Item → Item := fun x => { x with selected := true }
  let off : Item → Item := fun x => { x with selected := false }
  have hnot : i ∉ q.selected := by
    rw [h.listed.selected.mem, shows_iff hitem, hflag]
    exact fun hs => Bool.false_ne_true hs.1
  have hback : (q.items.modify i on).modify i off = q.items := by
    rw [IdMap.modify_modify]
    apply IdMap.modify_eq_self
    intro x hx
    have hx : item = x := Option.some.inj (hitem.symm.trans hx)
    subst hx
    simp only [Function.comp_apply, on, off, ← hflag]
  -- The item goes to the end of the selection, if its container is attached at all.
  have hon : ItemProperty.selected.read item ≠ ItemProperty.selected.read (on item) := by
    simp [ItemProperty.selected, on, hflag]
  rcases changeItem_of_ne hitem hon with ⟨e, he, hquery⟩
  have hselected : ∃ s, e.query = { q.updateItem i on with selected := s } ∧
      (if q.isAttached item.container then s.filter (· ≠ i) else s) = q.selected := by
    rw [hquery]
    split
    · refine ⟨_, syncSelection_of_not_mem (q := q.updateItem i on) hnot, ?_⟩
      exact filter_append_entered hnot _
    · exact ⟨q.selected, rfl, rfl⟩
  rcases hselected with ⟨s, hquery, hs⟩
  have hitem' : e.query.item? i = some (on item) := by
    rw [hquery]
    exact (WellFormed.item?_updateItem i).trans (by rw [if_pos rfl, hitem]; rfl)
  have hoff : ItemProperty.selected.read (on item) ≠
      ItemProperty.selected.read (off (on item)) := by
    simp [ItemProperty.selected, on, off]
  rcases changeItem_of_ne hitem' hoff with ⟨e', he', hquery'⟩
  refine ⟨e, e', he, he', ?_⟩
  have hflag' : (e.query.updateItem i off).itemHas (·.selected) i = false := by
    rw [itemHas, WellFormed.item?_updateItem, if_pos rfl, hitem']
    rfl
  have hattached : e.query.isAttached item.container = q.isAttached item.container := by
    rw [hquery]
    rfl
  calc
    e'.query = { q with
        items := (q.items.modify i on).modify i off
        selected := if q.isAttached item.container then s.filter (· ≠ i) else s } := by
      rw [hquery']
      change (if e.query.isAttached item.container then
        (e.query.updateItem i off).syncSelection i else e.query.updateItem i off) = _
      rw [hattached, syncSelection_of_unselected hflag', hquery]
      split <;> rfl
    _ = q := by rw [hback, hs]

/-- A known place is not refused to a selected item. -/
theorem moveItem_of_mem (hi : i ∈ q.selected) {index : Nat} (hindex : index < q.selected.length) :
    ∃ e, q.moveItem i index = .ok e ∧
      e.query = { q with selected := (q.selected.erase i).insertIdx index i } := by
  have hok : ∃ e, q.moveItem i index = .ok e := by
    unfold moveItem
    rw [if_neg (by simpa using hi), if_neg (by omega)]
    exact ⟨_, rfl⟩
  rcases hok with ⟨e, he⟩
  exact ⟨e, he, (moveItem_ok he).2.2⟩

theorem WellFormed.moveItem_back (h : q.WellFormed) (hi : i ∈ q.selected) {index : Nat}
    (hindex : index < q.selected.length) :
    ∃ e e', q.moveItem i index = .ok e ∧
      e.query.moveItem i (q.selected.idxOf i) = .ok e' ∧ e'.query = q := by
  have hmoved := WellFormed.perm_moved hi hindex
  rcases moveItem_of_mem hi hindex with ⟨e, he, hquery⟩
  have hi' : i ∈ e.query.selected := by
    rw [hquery]
    exact hmoved.mem_iff.2 hi
  have hindex' : q.selected.idxOf i < e.query.selected.length := by
    rw [hquery]
    exact hmoved.length_eq ▸ List.idxOf_lt_length_of_mem hi
  rcases moveItem_of_mem hi' hindex' with ⟨e', he', hquery'⟩
  refine ⟨e, e', he, he', ?_⟩
  rw [hquery', hquery]
  simp only [move_back h.listed.selected.nodup hi hindex]

/-! ## Operations -/

/-- Operations that take each other back leave a reachable query as it was, with no more than
a number handed out; what is removed is returned as it was kept. -/
theorem Reachable.pairs_cancel (h : q.Reachable) :
    (∀ c spec uuid reply e, q.perform (.addItem c spec uuid) = .ok (reply, e) →
      ∃ i item e', reply = .item i ∧ e.query.item? i = some item ∧
        e.query.perform (.removeItem i) = .ok (.removedItem item, e') ∧
        e'.query = q.handOut) ∧
    (∀ join reply e, q.perform (.addJoin join) = .ok (reply, e) →
      ∃ j stored e', reply = .join j ∧ e.query.join? j = some stored ∧
        e.query.perform (.removeJoin j) = .ok (.removedJoin stored, e') ∧
        e'.query = q.handOut) ∧
    (∀ i item, q.item? i = some item → item.selected = false →
      ∃ e e', q.perform (.setSelected i true) = .ok (.done, e) ∧
        e.query.perform (.setSelected i false) = .ok (.done, e') ∧ e'.query = q) ∧
    (∀ i index, i ∈ q.selected → index < q.selected.length →
      ∃ e e', q.perform (.moveItem i index) = .ok (.done, e) ∧
        e.query.perform (.moveItem i (q.selected.idxOf i)) = .ok (.done, e') ∧
        e'.query = q) := by
  have hw : q.WellFormed := h.wellFormed
  have hq : q.count < UInt32.size := h.count_lt
  refine ⟨?_, ?_, ?_, ?_⟩
  · intro c spec uuid reply e hp
    rcases Outcome.map_ok hp with ⟨x, hx, rfl, rfl⟩
    rcases hw.removeItem_of_addItem hq hx with ⟨item, e', hitem, he', hquery⟩
    refine ⟨x.1, item, e', rfl, hitem, ?_, hquery⟩
    rw [perform, he']
    rfl
  · intro join reply e hp
    rcases Outcome.map_ok hp with ⟨x, hx, rfl, rfl⟩
    rcases hw.removeJoin_of_addJoin hq hx with ⟨stored, e', hstored, he', hquery⟩
    refine ⟨x.1, stored, e', rfl, hstored, ?_, hquery⟩
    rw [perform, he']
    rfl
  · intro i item hitem hflag
    rcases hw.unselect_selected hitem hflag with ⟨e, e', he, he', hquery⟩
    refine ⟨e, e', ?_, ?_, hquery⟩
    · rw [perform, he]
      rfl
    · rw [perform, he']
      rfl
  · intro i index hi hindex
    rcases hw.moveItem_back hi hindex with ⟨e, e', he, he', hquery⟩
    refine ⟨e, e', ?_, ?_, hquery⟩
    · rw [perform, he]
      rfl
    · rw [perform, he']
      rfl

/-- An item with a flag and a second join, added to the two tables, are taken back; so are the
selection of an item and a move of the only selected one. -/
theorem joinedTables_takes_back :
    joinedTables.Reachable ∧
    (∃ reply e, joinedTables.perform
        (.addItem (.ofCount 4) { name := "z", selected := true } (.ofNat 0)) = .ok (reply, e) ∧
      ∃ i item e', reply = .item i ∧
        e.query.perform (.removeItem i) = .ok (.removedItem item, e') ∧
        e'.query = joinedTables.handOut) ∧
    (∃ reply e, joinedTables.perform
        (.addJoin { left := .ofCount 7, right := .ofCount 6 }) = .ok (reply, e) ∧
      ∃ j stored e', reply = .join j ∧
        e.query.perform (.removeJoin j) = .ok (.removedJoin stored, e') ∧
        e'.query = joinedTables.handOut) ∧
    (∃ e e', joinedTables.perform (.setSelected (.ofCount 7) true) = .ok (.done, e) ∧
      e.query.perform (.setSelected (.ofCount 7) false) = .ok (.done, e') ∧
      e'.query = joinedTables) ∧
    (∃ e e', joinedTables.perform (.moveItem (.ofCount 6) 0) = .ok (.done, e) ∧
      e.query.perform (.moveItem (.ofCount 6) (joinedTables.selected.idxOf (.ofCount 6))) =
        .ok (.done, e') ∧ e'.query = joinedTables) := by
  rcases joinedTables_reachable.pairs_cancel with ⟨hitem, hjoin, hselect, hmove⟩
  refine ⟨joinedTables_reachable, ?_, ?_, ?_, ?_⟩
  · rcases exists_of_isOk (x := joinedTables.perform
      (.addItem (.ofCount 4) { name := "z", selected := true } (.ofNat 0)))
      (by decide +kernel) with ⟨⟨reply, e⟩, hp⟩
    rcases hitem _ _ _ reply e hp with ⟨i, item, e', hreply, -, he', hquery⟩
    exact ⟨reply, e, hp, i, item, e', hreply, he', hquery⟩
  · rcases exists_of_isOk (x := joinedTables.perform
      (.addJoin { left := .ofCount 7, right := .ofCount 6 })) (by decide +kernel) with
      ⟨⟨reply, e⟩, hp⟩
    rcases hjoin _ reply e hp with ⟨j, stored, e', hreply, -, he', hquery⟩
    exact ⟨reply, e, hp, j, stored, e', hreply, he', hquery⟩
  · exact hselect (.ofCount 7)
      { name := "y", sortOrder := .ascending, container := .ofCount 5, uuid := .ofNat 0 }
      (by decide +kernel) rfl
  · exact hmove (.ofCount 6) 0 (by decide +kernel) (by decide +kernel)

end Query

end LiveSelect
