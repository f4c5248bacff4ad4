import LiveSelect.Proofs.Inside

/-! # Listed items whose table is gone

At rest the two lists of a query hold items of attached containers only, so a statement selects
and sorts by columns of its own tables. When a table is removed, it leaves the statement before
its items leave the lists: in the calls between, the items that still await their turn are strays.
They are the only ones that an observer ever gets to see. -/

namespace LiveSelect

namespace Query

variable {q q' : Query} {e : Edit} {op : Operation} {reply : Reply} {c : ContainerId} {i : ItemId}

/-! ## Lists without strays -/

/-- Both lists hold items of attached containers only. -/
def Placed (q : Query) : Prop := ∀ i, i ∈ q.selected ∨ i ∈ q.sortList → q.isInside i

theorem Listed.placed (h : q.Listed) : q.Placed := by
  rintro i (hi | hi)
  · exact h.selected.isInside hi
  · exact h.sortList.isInside hi

namespace Placed

/-- The lists may shrink as long as what stays on them is not cut off. -/
theorem of_sublists (h : q.Placed) (hs : ∀ i ∈ q'.selected, i ∈ q.selected)
    (ht : ∀ i ∈ q'.sortList, i ∈ q.sortList)
    (hin : ∀ i, i ∈ q'.selected ∨ i ∈ q'.sortList → q.isInside i → q'.isInside i) : q'.Placed :=
  fun i hi => hin i hi (h i (hi.imp (hs i) (ht i)))

theorem attachItem (h : q.Placed) (hi : q.isInside i) : (q.attachItem i).Placed := by
  have hselection : (q.syncSelection i).Placed ∧ (q.syncSelection i).isInside i := by
    unfold syncSelection
    split_ifs
    · exact ⟨h, hi⟩
    · refine ⟨?_, hi⟩
      rintro k (hk | hk)
      · rcases List.mem_append.1 hk with hk | hk
        · exact h k (Or.inl hk)
        · rw [List.mem_singleton.1 hk]
          exact hi
      · exact h k (Or.inr hk)
    · exact ⟨h.of_sublists (fun _ => List.mem_of_mem_filter) (fun _ => id) fun _ _ => id, hi⟩
  unfold Query.attachItem enterSortList
  split_ifs
  · rintro k (hk | hk)
    · exact hselection.1 k (Or.inl hk)
    · rcases List.mem_append.1 hk with hk | hk
      · exact hselection.1 k (Or.inr hk)
      · rw [List.mem_singleton.1 hk]
        exact hselection.2
  · exact hselection.1

theorem unlistItem (h : q.Placed) (i : ItemId) : (q.unlistItem i).Placed :=
  h.of_sublists (fun _ => List.mem_of_mem_filter) (fun _ => List.mem_of_mem_filter) fun _ _ => id

theorem dropJoin (h : q.Placed) (j : JoinId) : (q.dropJoin j).Placed := by
  rw [dropJoin_eq]
  exact h

/-- An item that is on neither list may be forgotten. -/
theorem eraseItem (h : q.Placed) (hs : i ∉ q.selected) (ht : i ∉ q.sortList) :
    Placed { q with items := q.items.erase i } := by
  refine h.of_sublists (fun _ => id) (fun _ => id) fun k hk hin => ?_
  have hne : k ≠ i := by
    rintro rfl
    exact hk.elim hs ht
  have hitem : item? { q with items := q.items.erase i } k = q.item? k := by
    simp only [item?, IdMap.get?_erase, if_neg hne]
  rw [isInside, home?_congr hitem]
  exact hin

/-- When one more table is attached, no item is cut off. -/
theorem addTable (h : q.Placed) (c : ContainerId) :
    Placed { q with tables := q.tables ++ [c] } := by
  refine h.of_sublists (fun _ => id) (fun _ => id) fun k _ hin => ?_
  obtain ⟨d, hd, hattached⟩ := isInside_iff.1 hin
  refine isInside_iff.2 ⟨d, hd, ?_⟩
  rw [isAttached_iff] at hattached ⊢
  exact hattached.imp_right fun hmem => List.mem_append_left _ hmem

end Placed

theorem placed_robust : Robust Placed where
  attachItem h hhome hattached := h.attachItem (isInside_iff.2 ⟨_, hhome, hattached⟩)
  unlistItem i h := h.unlistItem i
  dropJoin j h := h.dropJoin j
  setFlag _ _ h := h
  countItem x h := by
    refine h.of_sublists (fun _ => id) (fun _ => id) fun k _ hin => ?_
    rw [isInside, home?_countItem]
    exact hin
  setCanExecute _ h := h
  setGrouping _ h := h

/-- The old constants leave the lists before they are forgotten. -/
theorem Placed.throughout_dropConstants (h : q.Placed) :
    Edit.Throughout Placed q.dropConstants := by
  have hjoins := placed_robust.dropJoins (.start h) (q.joinsOf q.constants)
  refine Edit.each_induction (fun e i _ he => ?_) (hjoins.update hjoins.now)
  have hunlisted := he.now.unlistItem i
  rw [Edit.forgetItem_eq]
  refine (he.detachItem hunlisted).update ?_
  rw [Edit.query_detachItem]
  exact hunlisted.eraseItem (by simp [Query.unlistItem]) (by simp [Query.unlistItem])

theorem WellFormed.notices_placed (h : q.WellFormed) (hq : q.count < UInt32.size)
    (hop : ∀ c, op ≠ .removeTable c) : ∀ n ∈ q.notices op, n.seen.Placed := by
  refine placed_robust.notices h.owned h.listed.placed (h.after hq op).listed.placed ?_ ?_ ?_
  · exact fun c _ _ _ _ => h.listed.placed.addTable c
  · exact fun c heq => absurd heq (hop c)
  · exact fun _ _ => h.listed.placed.throughout_dropConstants

/-! ## The removal of a table -/

/-- Of the items on the lists of `q` that are still listed, those outside the statement are known
exactly. -/
structure StraysAre (q seen : Query) (p : ItemId → Prop) : Prop where
  selected : ∀ i, (i ∈ seen.selected ∧ ¬ seen.isInside i) ↔ (i ∈ q.selected ∧ p i)
  sortList : ∀ i, (i ∈ seen.sortList ∧ ¬ seen.isInside i) ↔ (i ∈ q.sortList ∧ p i)

theorem StraysAre.congr {p p' : ItemId → Prop} (h : q.StraysAre q' p) (hp : ∀ i, p i ↔ p' i) :
    q.StraysAre q' p' :=
  funext (fun i => propext (hp i)) ▸ h

theorem Placed.no_strays (h : q'.Placed) : q.StraysAre q' fun _ => False where
  selected i := by simpa using fun hi => h i (Or.inl hi)
  sortList i := by simpa using fun hi => h i (Or.inr hi)

/-- The query from which a table, some joins and some items of the table are gone. -/
def removingTable (q : Query) (c : ContainerId) (joins : IdMap .join Join)
    (incidence : IdMap .container (List JoinId)) (done : List ItemId) : Query :=
  done.foldl unlistItem { q with tables := q.tables.erase c, joins, incidence }

/-- When a table leaves the statement, just its own items are cut off. -/
theorem Owned.cut_off_iff (h : q.Owned) (hc : c ≠ q.constants) (hi : q.isInside i) :
    ¬ isInside { q with tables := q.tables.erase c } i ↔ i ∈ q.itemsOf c := by
  obtain ⟨d, hd, hin⟩ := isInside_iff.1 hi
  have hhome : home? { q with tables := q.tables.erase c } i = some d := hd
  rw [h.mem_itemsOf, hd, Option.some.injEq, isInside, hhome, Option.any_some, isAttached_iff]
  rw [isAttached_iff] at hin
  by_cases heq : d = c
  · subst heq
    refine iff_of_true ?_ rfl
    rintro (hconst | hmem)
    · exact hc hconst
    · exact h.nodup_tables.not_mem_erase hmem
  · exact iff_of_false (not_not.2 (hin.imp_right (List.mem_erase_of_ne heq).2)) heq

/-- While a table is removed, its items are strays until they are done. -/
theorem WellFormed.straysAre_removingTable (h : q.WellFormed) (hc : c ≠ q.constants)
    (joins : IdMap .join Join) (incidence : IdMap .container (List JoinId))
    (done : List ItemId) :
    q.StraysAre (q.removingTable c joins incidence done) fun i => i ∈ q.itemsOf c ∧ i ∉ done := by
  rw [removingTable, foldl_unlistItem]
  have hlist : ∀ l : List ItemId, (∀ i ∈ l, q.isInside i) → ∀ i,
      (i ∈ l.filter (· ∉ done) ∧ ¬ isInside { q with tables := q.tables.erase c } i) ↔
        (i ∈ l ∧ i ∈ q.itemsOf c ∧ i ∉ done) := by
    intro l hl i
    rw [List.mem_filter, decide_eq_true_eq]
    constructor
    · rintro ⟨⟨hi, hnot⟩, hcut⟩
      exact ⟨hi, (h.owned.cut_off_iff hc (hl i hi)).1 hcut, hnot⟩
    · rintro ⟨hi, hmem, hnot⟩
      exact ⟨⟨hi, hnot⟩, (h.owned.cut_off_iff hc (hl i hi)).2 hmem⟩
  exact ⟨hlist q.selected fun i hi => h.listed.placed i (Or.inl hi),
    hlist q.sortList fun i hi => h.listed.placed i (Or.inr hi)⟩

/-- Whether an operation has taken the table of an item from the statement, while the item is to
leave the lists only after the announcement of an event. -/
def awaitsRemoval (q : Query) : Operation → Event → ItemId → Bool
  | .removeTable c, .joinRemoved .., i => (q.itemsOf c).contains i
  | .removeTable c, .itemRemoved k _, i => ((q.itemsOf c).dropWhile (· ≠ k)).tail.contains i
  | _, _, _ => false

/-- After one of several items come those that are neither it nor before it. -/
theorem mem_tail_dropWhile {l done rest : List ItemId} {k : ItemId} (hl : l.Nodup)
    (hsplit : l = done ++ k :: rest) :
    i ∈ (l.dropWhile (· ≠ k)).tail ↔ i ∈ l ∧ i ∉ done ++ [k] := by
  subst hsplit
  obtain ⟨-, hrest, hapart⟩ := List.nodup_append.1 hl
  obtain ⟨hk, -⟩ := List.nodup_cons.1 hrest
  have hbefore : ∀ x ∈ done, decide (x ≠ k) := fun x hx =>
    decide_eq_true (hapart x hx k List.mem_cons_self)
  rw [List.dropWhile_append_of_pos hbefore, List.dropWhile_cons_of_neg (by simp), List.tail_cons]
  simp only [List.mem_append, List.mem_cons, List.not_mem_nil, or_false, not_or]
  constructor
  · intro hi
    refine ⟨Or.inr (Or.inr hi), fun hdone => ?_, fun heq => hk (heq ▸ hi)⟩
    exact hapart i hdone i (List.mem_cons_of_mem _ hi) rfl
  · rintro ⟨hmem, hdone, hne⟩
    exact (hmem.resolve_left hdone).resolve_left hne

/-- What an observer is told while a table is removed lists just the items that await their
turn. -/
theorem WellFormed.tells_removeTable (h : q.WellFormed) (he : q.removeTable c = .ok e) :
    e.Tells fun event seen =>
      q.StraysAre seen fun i => q.awaitsRemoval (.removeTable c) event i := by
  obtain ⟨hc, -, -⟩ := removeTable_ok he
  rw [removeTable_edit he]
  let R : Event → Query → Prop := fun event seen =>
    q.StraysAre seen fun i => q.awaitsRemoval (.removeTable c) event i
  have hstrays := h.straysAre_removingTable hc
  let joined := (Edit.start { q with tables := q.tables.erase c }).each (q.joinsOf c) Edit.dropJoin
  -- While the joins go, no item is done.
  have hjoins : joined.Tells R ∧ ∃ joins incidence,
      joined.query = q.removingTable c joins incidence [] := by
    refine Edit.each_induction (M := fun e => e.Tells R ∧ ∃ joins incidence,
      e.query = q.removingTable c joins incidence []) ?_ ⟨.start _, q.joins, q.incidence, rfl⟩
    rintro e j - ⟨he, joins, incidence, hquery⟩
    have hdropped : e.query.dropJoin j = q.removingTable c (e.query.dropJoin j).joins
        (e.query.dropJoin j).incidence [] := by
      rw [dropJoin_eq, hquery]
      rfl
    refine ⟨he.dropJoin fun join => ?_, _, _, (e.query_dropJoin j).trans hdropped⟩
    rw [hdropped]
    exact (hstrays _ _ _).congr fun i => by simp [awaitsRemoval]
  obtain ⟨hjoins, joins, incidence, hquery⟩ := hjoins
  -- Then one item after the other is done.
  have hitems : (joined.each (q.itemsOf c) Edit.detachItem).Tells R ∧
      (joined.each (q.itemsOf c) Edit.detachItem).query =
        q.removingTable c joins incidence (q.itemsOf c) := by
    refine Edit.each_split (M := fun done e => e.Tells R ∧
      e.query = q.removingTable c joins incidence done) ?_ ⟨hjoins, hquery⟩
    rintro done i rest e hsplit ⟨he, hquery⟩
    have hdone : e.query.unlistItem i = q.removingTable c joins incidence (done ++ [i]) := by
      rw [hquery, removingTable, removingTable, List.foldl_append]
      rfl
    refine ⟨he.detachItem fun item => ?_, (e.query_detachItem i).trans hdone⟩
    rw [hdone]
    refine (hstrays _ _ _).congr fun k => ?_
    rw [awaitsRemoval, List.contains_iff_mem]
    exact (mem_tail_dropWhile (h.owned.nodup_itemsOf c) hsplit).symm
  -- When the table itself is announced, nothing awaits its turn any more.
  refine hitems.1.announce ?_
  rw [hitems.2]
  exact (hstrays _ _ _).congr fun i => by simp [awaitsRemoval]

end Query

namespace ObservedQuery

variable {α : Type}

/-- In every call that an operation makes on a reachable query, the listed items that belong to
neither the constants nor a table of the FROM clause are those of a table on its way out that
await their turn. -/
theorem calls_list_strays_iff (o : ObservedQuery α) (h : o.query.Reachable) (op : Operation)
    (x : α × Notice) (hx : x ∈ (o.execute op).calls) :
    let q := x.2.seen
    (∀ c, q.isAttached c ↔ c = q.constants ∨ c ∈ q.finishOrder) ∧
    (∀ i, (i ∈ q.selected ∧ ¬ q.isInside i) ↔
      (i ∈ o.query.selected ∧ o.query.awaitsRemoval op x.2.event i)) ∧
    (∀ i, (i ∈ q.sortList ∧ ¬ q.isInside i) ↔
      (i ∈ o.query.sortList ∧ o.query.awaitsRemoval op x.2.event i)) := by
  intro q
  have hnotice := notice_of_call hx
  have hw := h.wellFormed
  have hnodup := (hw.notices_presentable h.count_lt op x.2 hnotice).nodup_tables
  have hstrays : o.query.StraysAre q fun i => o.query.awaitsRemoval op x.2.event i := by
    by_cases hop : ∃ c, op = .removeTable c
    · obtain ⟨c, rfl⟩ := hop
      obtain ⟨reply, e, hp, hmem⟩ := Query.edit_of_mem_notices hnotice
      exact hw.tells_removeTable (Outcome.ofEdit_ok hp).2 x.2 hmem
    · have hplaced := hw.notices_placed h.count_lt (fun c heq => hop ⟨c, heq⟩) x.2 hnotice
      refine hplaced.no_strays.congr fun i => ?_
      cases op with
      | removeTable c => exact absurd ⟨c, rfl⟩ hop
      | _ => simp [Query.awaitsRemoval]
  refine ⟨fun c => ?_, hstrays.selected, hstrays.sortList⟩
  rw [Query.isAttached_iff, (Query.finishOrder_perm_tables hnodup).mem_iff]

/-- When the join of a table on its way out is announced, its selected column awaits its turn. -/
theorem observedTables_lists_stray :
    let op := Operation.removeTable (.ofCount 4)
    observedTables.query.Reachable ∧ ∃ x ∈ (observedTables.execute op).calls,
      .ofCount 6 ∈ x.2.seen.selected ∧ ¬ x.2.seen.isInside (.ofCount 6) := by
  intro op
  have hfirst : ((observedTables.execute op).calls[0]?).map
      (fun x => observedTables.query.awaitsRemoval op x.2.event (.ofCount 6)) = some true := by
    decide +kernel
  obtain ⟨x, hx, hawaits⟩ := Option.map_eq_some_iff.1 hfirst
  have hmem := List.mem_of_getElem? hx
  have hselected : (.ofCount 6 : ItemId) ∈ observedTables.query.selected := by decide +kernel
  obtain ⟨-, hstrays, -⟩ :=
    observedTables.calls_list_strays_iff Query.joinedTables_reachable op x hmem
  exact ⟨Query.joinedTables_reachable, x, hmem, (hstrays _).2 ⟨hselected, hawaits⟩⟩

/-- While a table is removed, an observer reads a statement that selects a column of it although
the table is missing from the FROM clause. -/
theorem calls_select_stray :
    ∃ (o : ObservedQuery String) (op : Operation) (x : String × Notice), o.query.Reachable ∧
      x ∈ (o.execute op).calls ∧ (∃ i ∈ x.2.seen.selected, ¬ x.2.seen.isInside i) ∧
      x.2.seen.text = "SELECT x \nFROM b b \nORDER BY b.y ASC " := by
  have hfirst : ((observedTables.execute (.removeTable (.ofCount 4))).calls[0]?).map
      (fun x => (decide (.ofCount 6 ∈ x.2.seen.selected), x.2.seen.isInside (.ofCount 6),
        x.2.seen.text)) = some (true, false, "SELECT x \nFROM b b \nORDER BY b.y ASC ") := by
    decide +kernel
  obtain ⟨x, hx, hseen⟩ := Option.map_eq_some_iff.1 hfirst
  simp only [Prod.mk.injEq, decide_eq_true_eq] at hseen
  obtain ⟨hselected, hcut, htext⟩ := hseen
  exact ⟨observedTables, _, x, Query.joinedTables_reachable, List.mem_of_getElem? hx,
    ⟨_, hselected, by simp [hcut]⟩, htext⟩

end ObservedQuery

end LiveSelect
