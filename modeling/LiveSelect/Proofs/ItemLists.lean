import LiveSelect.Proofs.Ownership

/-! # The selection and the sort list

Both lists follow one rule: they hold, each once, the items of attached containers that
carry a flag. The selection follows the flag of selected items, the sort list that of sorted
ones. The rule is stated for any flag, and every way in which the lists change is one of
three: items come to the end, items are taken out, or the order changes. -/

namespace LiveSelect.Query

variable {q q' : Query} {p : Item → Bool} {l : List ItemId}

/-- Whether an item with a flag belongs to an attached container. -/
def Shows (q : Query) (p : Item → Bool) (i : ItemId) : Prop :=
  ∃ item, q.item? i = some item ∧ p item ∧ q.isAttached item.container

/-- A list holds, each once, the flagged items of attached containers. -/
structure Lists (q : Query) (p : Item → Bool) (l : List ItemId) : Prop where
  nodup : l.Nodup
  mem : ∀ i, i ∈ l ↔ q.Shows p i

/-- The selection and the sort list hold what they should. -/
structure Listed (q : Query) : Prop where
  selected : q.Lists (·.selected) q.selected
  sortList : q.Lists Item.isSorted q.sortList

theorem itemHas_of_item? {i : ItemId} {item : Item} (h : q.item? i = some item) :
    q.itemHas p i = p item := by
  simp [itemHas, h]

theorem shows_iff {i : ItemId} {item : Item} (h : q.item? i = some item) :
    q.Shows p i ↔ p item ∧ q.isAttached item.container := by
  simp [Shows, h]

namespace Lists

/-- A list stays right when it shows the same items. -/
theorem congr (h : q.Lists p l) (hshows : ∀ i, q'.Shows p i ↔ q.Shows p i) : q'.Lists p l where
  nodup := h.nodup
  mem i := (h.mem i).trans (hshows i).symm

/-- The order does not matter. -/
theorem perm {l' : List ItemId} (h : q.Lists p l) (hp : l'.Perm l) : q.Lists p l' where
  nodup := hp.nodup_iff.2 h.nodup
  mem i := hp.mem_iff.trans (h.mem i)

/-- New items come to the end, as far as they carry the flag. -/
theorem append (h : q.Lists p l) {new : List ItemId} (hnew : new.Nodup)
    (habsent : ∀ i ∈ new, ¬ q.Shows p i)
    (hshows : ∀ i, q'.Shows p i ↔ q.Shows p i ∨ (i ∈ new ∧ q.itemHas p i)) :
    q'.Lists p (l ++ new.filter (q.itemHas p)) where
  nodup := by
    apply h.nodup.append (hnew.filter _)
    intro i hi hi'
    exact habsent i (List.mem_filter.1 hi').1 ((h.mem i).1 hi)
  mem i := by
    rw [List.mem_append, List.mem_filter, h.mem, hshows]

/-- One item takes its place at the end, or loses it. -/
theorem place (h : q.Lists p l) {i : ItemId} (hold : ∀ k, k ≠ i → (q'.Shows p k ↔ q.Shows p k))
    (hi : q'.Shows p i ↔ q'.itemHas p i) :
    q'.Lists p (l.filter (· ≠ i) ++ [i].filter (q'.itemHas p)) := by
  have hmem : ∀ k, k ∈ [i].filter (q'.itemHas p) ↔ k = i ∧ q'.itemHas p i := by
    intro k
    rw [List.mem_filter, List.mem_singleton]
    exact and_congr_right fun heq => by rw [heq]
  constructor
  · apply (h.nodup.filter _).append ((List.nodup_singleton i).filter _)
    intro k hk hk'
    have hne : k ≠ i := by simpa using (List.mem_filter.1 hk).2
    exact hne ((hmem k).1 hk').1
  · intro k
    rw [List.mem_append, List.mem_filter, hmem, h.mem]
    -- Whether the item itself is listed is decided at the end, for others before it.
    by_cases hk : k = i
    · subst hk
      simp [hi]
    · simp [hk, hold k hk]

/-- Items are taken out. -/
theorem without (h : q.Lists p l) {gone : List ItemId}
    (hshows : ∀ i, q'.Shows p i ↔ q.Shows p i ∧ i ∉ gone) :
    q'.Lists p (l.filter (· ∉ gone)) where
  nodup := h.nodup.filter _
  mem i := by
    rw [List.mem_filter, h.mem, hshows, decide_eq_true_eq]

end Lists

/-- The containers of shown items are attached. -/
theorem shows_iff_home {i : ItemId} :
    q.Shows p i ↔ q.itemHas p i ∧ ∃ c, q.home? i = some c ∧ q.isAttached c := by
  cases h : q.item? i with
  | none => simp [Shows, itemHas, h]
  | some item => simp [Shows, itemHas, home?, h]

/-- What is shown stays when the items and the attached containers stay. -/
theorem shows_congr (hitem : ∀ i, q'.item? i = q.item? i)
    (hattached : ∀ c, q'.isAttached c = q.isAttached c) (i : ItemId) :
    q'.Shows p i ↔ q.Shows p i := by
  simp only [Shows, hitem, hattached]

/-- When one more container is attached, its flagged items are shown as well. -/
theorem shows_attach {c : ContainerId} (ho : q.Owned) (hitem : ∀ i, q'.item? i = q.item? i)
    (hattached : ∀ k, q'.isAttached k ↔ q.isAttached k ∨ k = c) (i : ItemId) :
    q'.Shows p i ↔ q.Shows p i ∨ (i ∈ q.itemsOf c ∧ q.itemHas p i) := by
  rw [shows_iff_home, shows_iff_home, ho.mem_itemsOf]
  simp only [itemHas, home?, hitem, hattached]
  constructor
  · rintro ⟨hp, k, hk, hor | rfl⟩
    · exact Or.inl ⟨hp, k, hk, hor⟩
    · exact Or.inr ⟨hk, hp⟩
  · rintro (⟨hp, k, hk, hor⟩ | ⟨hk, hp⟩)
    · exact ⟨hp, k, hk, Or.inl hor⟩
    · exact ⟨hp, c, hk, Or.inr rfl⟩

/-- When a container is no longer attached, its items are no longer shown. -/
theorem shows_detach {c : ContainerId} (ho : q.Owned) (hitem : ∀ i, q'.item? i = q.item? i)
    (hattached : ∀ k, q'.isAttached k ↔ q.isAttached k ∧ k ≠ c) (i : ItemId) :
    q'.Shows p i ↔ q.Shows p i ∧ i ∉ q.itemsOf c := by
  rw [shows_iff_home, shows_iff_home, ho.mem_itemsOf]
  simp only [itemHas, home?, hitem, hattached]
  constructor
  · rintro ⟨hp, k, hk, hk', hne⟩
    refine ⟨⟨hp, k, hk, hk'⟩, fun hc => hne ?_⟩
    rw [hk, Option.some.injEq] at hc
    exact hc
  · rintro ⟨⟨hp, k, hk, hk'⟩, hne⟩
    exact ⟨hp, k, hk, hk', fun heq => hne (heq ▸ hk)⟩

/-! ## Attaching and detaching items -/

theorem filter_ne_of_not_mem {α : Type} [DecidableEq α] {l : List α} {i : α} (h : i ∉ l) :
    l.filter (· ≠ i) = l := by
  rw [List.filter_eq_self]
  intro x hx
  have hne : x ≠ i := fun heq => h (heq ▸ hx)
  simpa using hne

theorem syncSelection_of_not_mem {i : ItemId} (h : i ∉ q.selected) :
    q.syncSelection i =
      { q with selected := q.selected ++ [i].filter (q.itemHas (·.selected)) } := by
  have hflag : (q.item? i).any (·.selected) = q.itemHas (·.selected) i := rfl
  unfold syncSelection
  rw [List.filter_singleton, hflag]
  cases q.itemHas (·.selected) i with
  | true =>
    rw [if_pos rfl, if_neg (by simpa using h)]
    rfl
  | false =>
    rw [if_neg Bool.false_ne_true, filter_ne_of_not_mem h]
    simp

theorem enterSortList_of_not_mem {i : ItemId} (h : i ∉ q.sortList) :
    q.enterSortList i =
      { q with sortList := q.sortList ++ [i].filter (q.itemHas Item.isSorted) } := by
  have hflag : (q.item? i).any Item.isSorted = q.itemHas Item.isSorted i := rfl
  unfold enterSortList
  rw [List.filter_singleton, hflag]
  cases q.itemHas Item.isSorted i with
  | true =>
    rw [if_pos (by simpa using h)]
    rfl
  | false =>
    rw [if_neg (by simp)]
    simp

theorem attachItem_eq {i : ItemId} (hs : i ∉ q.selected) (ht : i ∉ q.sortList) :
    q.attachItem i =
      { q with
        selected := q.selected ++ [i].filter (q.itemHas (·.selected))
        sortList := q.sortList ++ [i].filter (q.itemHas Item.isSorted) } := by
  unfold attachItem
  rw [syncSelection_of_not_mem hs]
  exact enterSortList_of_not_mem ht

/-- A flag that has just changed sends its item to the end of the selection or drops it. -/
theorem syncSelection_of_changed {i : ItemId} (h : i ∈ q.selected ↔ ¬ q.itemHas (·.selected) i) :
    q.syncSelection i =
      { q with
        selected := q.selected.filter (· ≠ i) ++ [i].filter (q.itemHas (·.selected)) } := by
  cases hflag : q.itemHas (·.selected) i with
  | true =>
    -- The item was not listed before, so the filter drops nothing.
    have hmem : i ∉ q.selected := fun hi => h.1 hi hflag
    rw [syncSelection_of_not_mem hmem, filter_ne_of_not_mem hmem]
  | false =>
    have hflag' : ¬ (q.item? i).any (·.selected) := by
      change ¬ q.itemHas (·.selected) i
      rw [hflag]
      exact Bool.false_ne_true
    unfold syncSelection
    rw [if_neg hflag', List.filter_singleton, hflag]
    simp

theorem syncSortList_eq (q : Query) (i : ItemId) :
    q.syncSortList i =
      { q with
        sortList := q.sortList.filter (· ≠ i) ++ [i].filter (q.itemHas Item.isSorted) } := by
  have hflag : (q.item? i).any Item.isSorted = q.itemHas Item.isSorted i := rfl
  unfold syncSortList
  rw [List.filter_singleton, hflag]
  cases q.itemHas Item.isSorted i <;> simp

/-- Attaching new items appends the selected ones to the selection and the sorted ones to
the sort list. -/
theorem foldl_attachItem (q : Query) {new : List ItemId} (hnew : new.Nodup)
    (hs : ∀ i ∈ new, i ∉ q.selected) (ht : ∀ i ∈ new, i ∉ q.sortList) :
    new.foldl attachItem q =
      { q with
        selected := q.selected ++ new.filter (q.itemHas (·.selected))
        sortList := q.sortList ++ new.filter (q.itemHas Item.isSorted) } := by
  induction new generalizing q with
  | nil => simp
  | cons i rest ih =>
    rcases List.nodup_cons.1 hnew with ⟨hi, hrest⟩
    have hni : ∀ k ∈ rest, k ≠ i := by
      rintro k hk rfl
      exact hi hk
    -- What is still to come is in neither list after the first item either.
    have hstep := attachItem_eq (hs i List.mem_cons_self) (ht i List.mem_cons_self)
    have hs' : ∀ k ∈ rest, k ∉ (q.attachItem i).selected := by
      intro k hk
      rw [hstep]
      simp only [List.mem_append, List.mem_filter, List.mem_singleton, not_or, not_and]
      exact ⟨hs k (List.mem_cons_of_mem _ hk), fun heq => absurd heq (hni k hk)⟩
    have ht' : ∀ k ∈ rest, k ∉ (q.attachItem i).sortList := by
      intro k hk
      rw [hstep]
      simp only [List.mem_append, List.mem_filter, List.mem_singleton, not_or, not_and]
      exact ⟨ht k (List.mem_cons_of_mem _ hk), fun heq => absurd heq (hni k hk)⟩
    rw [List.foldl_cons, ih _ hrest hs' ht', hstep]
    have hhas : ∀ f, itemHas { q with
        selected := q.selected ++ [i].filter (q.itemHas (·.selected))
        sortList := q.sortList ++ [i].filter (q.itemHas Item.isSorted) } f = q.itemHas f :=
      fun _ => rfl
    simp only [hhas, List.append_assoc, ← List.filter_append, List.singleton_append]

/-- Detaching items takes them out of both lists. -/
theorem foldl_unlistItem (q : Query) (gone : List ItemId) :
    gone.foldl unlistItem q =
      { q with
        selected := q.selected.filter (· ∉ gone)
        sortList := q.sortList.filter (· ∉ gone) } := by
  induction gone generalizing q with
  | nil => simp
  | cons i rest ih =>
    rw [List.foldl_cons, ih]
    simp only [unlistItem, List.filter_filter, List.mem_cons, not_or, ne_eq, Bool.and_comm,
      Bool.decide_and]

/-- Discarding items takes them out of both lists and forgets them. -/
theorem foldl_discardItem (q : Query) (gone : List ItemId) :
    gone.foldl discardItem q =
      { q with
        selected := q.selected.filter (· ∉ gone)
        sortList := q.sortList.filter (· ∉ gone)
        items := gone.foldl IdMap.erase q.items } := by
  induction gone generalizing q with
  | nil => simp
  | cons i rest ih =>
    rw [List.foldl_cons, ih]
    simp only [discardItem, unlistItem, List.filter_filter, List.mem_cons, not_or, ne_eq,
      Bool.and_comm, Bool.decide_and, List.foldl_cons]

end LiveSelect.Query
