import LiveSelect.Proofs.Unseen

/-! # Announcements and the text

What observers learn about the text of a query from the calls that they get. With one
exception the last call of an operation shows the text that the operation leaves behind; the
exception is the removal of an item with a filter, which is announced while the filter is
still read. And with three exceptions a change of the text is announced at all: the alias of
a container, the dialect, and the move of a sorted item to the end change it silently. -/

namespace LiveSelect

/-- Whether an operation never announces anything although it can change the text. -/
def Operation.isSilent : Operation → Bool
  | .setContainerAlias .. | .moveSortedItemToEnd _ | .setDialect _ => true
  | _ => false

namespace Query

variable {q : Query} {e : Edit} {op : Operation} {reply : Reply} {n : Naming} {i : ItemId}
variable {item : Item} {x : Notice}

/-! ## Removing an item -/

namespace WellFormed

variable (h : q.WellFormed) (hitem : q.item? i = some item)

include h hitem

theorem unused_released : (q.released item.container i).Unused i := by
  have hunused := h.unused_dropUsers hitem
  unfold released
  split
  · exact hunused
  · exact hunused

/-- A released item is on neither list; outside the statement it never was. -/
theorem not_mem_released :
    i ∉ (q.released item.container i).selected ∧ i ∉ (q.released item.container i).sortList := by
  rw [selected_released, sortList_released]
  split
  · simp
  · rename_i hdetached
    have hmem := h.owned.mem_itemsOf_home hitem
    exact ⟨fun hi => h.not_shows hdetached hmem ((h.listed.selected.mem i).1 hi),
      fun hi => h.not_shows hdetached hmem ((h.listed.sortList.mem i).1 hi)⟩

/-- Up to the last notice of a removal nothing is missing but the item; after it the filter of
the item is missing too, if it was shown. -/
theorem textWith_takeReleased_iff (hn : n.Blind) :
    ((q.released item.container i).takeItem item.container i).textWith n =
        (q.released item.container i).textWith n ↔
      ¬ (q.handWritten = none ∧ q.isAttached item.container ∧ item.activeFilter? ≠ none ∧
        ∃ k ∈ q.selected, k ≠ i) := by
  obtain ⟨hs, ht⟩ := h.not_mem_released hitem
  have hunused := h.unused_released hitem
  have hselected := q.selected_released item.container i
  obtain ⟨selected, sortList, joins, incidence, hframe⟩ := q.released_frame item.container i
  rw [hframe] at hs ht hunused hselected ⊢
  have ho : Owned { q with selected, sortList, joins, incidence } :=
    h.owned.of_arenas rfl rfl rfl rfl
  rw [textWith_takeItem_iff hn ho hunused hitem hs ht]
  change ¬ (q.handWritten = none ∧ q.isAttached item.container ∧ _ ∧ selected ≠ []) ↔ _
  simp only at hselected
  by_cases hattached : q.isAttached item.container
  · have hrest : selected ≠ [] ↔ ∃ k ∈ q.selected, k ≠ i := by
      rw [hselected, if_pos hattached, Ne, List.filter_eq_nil_iff]
      simp
    rw [hrest]
  · simp [hattached]

end WellFormed

theorem releaseItem_current (hitem : q.item? i = some item) :
    (q.releaseItem item.container i).Current := by
  rw [releaseItem_eq hitem]
  simp only
  split
  · exact .announce _ _
  · exact (Edit.Current.start q).each_dropJoin _

/-- A removal without a notice is that of an unused item outside the statement. -/
theorem released_of_quiet (hitem : q.item? i = some item)
    (hquiet : (q.releaseItem item.container i).notices = []) :
    ¬ q.isAttached item.container ∧ q.released item.container i = q := by
  rw [releaseItem_eq hitem] at hquiet
  rw [← releaseItem_query, releaseItem_eq hitem]
  simp only at hquiet ⊢
  by_cases hattached : q.isAttached item.container
  · rw [if_pos hattached, Edit.notices_announce] at hquiet
    exact absurd hquiet (List.append_ne_nil_of_right_ne_nil _ (List.cons_ne_nil _ _))
  · rw [if_neg hattached] at hquiet ⊢
    exact ⟨hattached, (Edit.Told.start q).each_dropJoin _ hquiet⟩

/-! ## Replacing the constants -/

theorem dropConstantsUpTo_query (q : Query) (items : List ItemId) :
    (q.dropConstantsUpTo items).query =
      { q with
        containers := q.containers.erase q.constants
        joins := (q.dropJoins (q.joinsOf q.constants)).joins
        incidence := (q.dropJoins (q.joinsOf q.constants)).incidence
        selected := q.selected.filter (· ∉ items)
        sortList := q.sortList.filter (· ∉ items)
        items := items.foldl IdMap.erase q.items } := by
  have hdropped : (q.joinsOf q.constants).foldl dropJoin q =
      q.dropJoins (q.joinsOf q.constants) := rfl
  rw [dropConstantsUpTo, Edit.query_each _ Edit.query_forgetItem, Edit.query_update,
    Edit.query_each _ Edit.query_dropJoin, Edit.query_start, foldl_discardItem, hdropped,
    dropJoins_eq]

theorem dialect_newConstants (q : Query) (uuid : Uuid) :
    (q.newConstants uuid).2.query.dialect = q.dialect := by
  rw [newConstants_query, withoutConstants, foldl_discardItem, dropJoins_eq]
  rfl

/-- The constants are either dropped without a notice, because there are none, or the last
notice tells that the last of them leaves. -/
theorem dropConstants_cases (h : q.WellFormed) :
    (q.itemsOf q.constants = [] ∧ q.joinsOf q.constants = [] ∧ q.dropConstants.notices = []) ∨
    ∃ items i x, q.itemsOf q.constants = items ++ [i] ∧
      q.dropConstants.notices.getLast? = some x ∧
      x.seen = (q.dropConstantsUpTo items).query.unlistItem i := by
  rcases List.eq_nil_or_concat (q.itemsOf q.constants) with hnone | ⟨items, i, hitems⟩
  · have hjoins : q.joinsOf q.constants = [] := by
      rw [List.eq_nil_iff_forall_not_mem]
      intro j hj
      -- A join of the constants has a column among their items.
      obtain ⟨join, -, hl | hr⟩ := h.indexed.mem_joinsOf_iff.1 hj
      · exact List.not_mem_nil (hnone ▸ (h.owned.mem_itemsOf _ _).2 hl)
      · exact List.not_mem_nil (hnone ▸ (h.owned.mem_itemsOf _ _).2 hr)
    refine Or.inl ⟨hnone, hjoins, ?_⟩
    rw [dropConstants, dropConstantsUpTo, hnone, hjoins]
    rfl
  · rw [List.concat_eq_append] at hitems
    have hsplit : q.dropConstants = forgetItem (q.dropConstantsUpTo items) i := by
      rw [dropConstants, hitems, dropConstantsUpTo_concat]
    have hnodup := h.owned.nodup_itemsOf q.constants
    rw [hitems] at hnodup
    have hi : i ∉ items := fun hi => (List.disjoint_of_nodup_append hnodup) hi (by simp)
    obtain ⟨item, hitem, -⟩ := h.owned.item?_of_mem (c := q.constants) (i := i) (by simp [hitems])
    have hknown : (q.dropConstantsUpTo items).query.item? i = some item := by
      rw [dropConstantsUpTo_query, item?, IdMap.get?_foldl_erase, if_neg hi]
      exact hitem
    refine Or.inr ⟨items, i, ⟨.itemRemoved i item, _⟩, hitems, ?_, rfl⟩
    rw [hsplit, Edit.forgetItem_eq, Edit.notices_update, Edit.detachItem_eq hknown,
      Edit.notices_announce, List.getLast?_concat]
    rfl

/-- Once the last of the constants has left, the text does not change any more. -/
theorem textWith_lastConstant (hn : n.Blind) (h : q.WellFormed) {items : List ItemId}
    (hitems : q.itemsOf q.constants = items ++ [i]) :
    ((q.dropConstantsUpTo items).query.unlistItem i).textWith n =
      q.withoutConstants.textWith n := by
  have hi : i ∈ q.itemsOf q.constants := by simp [hitems]
  have hfinal : q.withoutConstants =
      { (q.dropConstantsUpTo items).query.unlistItem i with
        items := ((q.dropConstantsUpTo items).query.unlistItem i).items.erase i } := by
    rw [← dropConstants_query, dropConstants, hitems, dropConstantsUpTo_concat,
      Edit.query_forgetItem]
    rfl
  rw [hfinal]
  refine (textWith_eraseItem hn ?_ ?_ (by simp [unlistItem]) (by simp [unlistItem]) ?_).symm
  · rw [dropConstantsUpTo_query]
    exact h.owned.nodup_tables
  · intro j join hj
    rw [dropConstantsUpTo_query] at hj
    exact h.unused_constants hi j join hj
  · intro hmem
    obtain ⟨k, hk, hik⟩ := List.mem_flatMap.1 hmem
    rw [dropConstantsUpTo_query] at hk hik
    -- The container of the constants is gone, and the item was in no other.
    simp only [itemsOf, container?, unlistItem, IdMap.get?_erase] at hik
    split at hik
    · exact List.not_mem_nil hik
    · rename_i hne
      have hhome := ((h.owned.mem_itemsOf k i).1 hik).symm.trans ((h.owned.mem_itemsOf _ i).1 hi)
      exact hne (Option.some.inj hhome)

/-- Without constants nothing is dropped but their container, which does not show. -/
theorem textWith_withoutConstants (hn : n.Blind) (h : q.WellFormed)
    (hitems : q.itemsOf q.constants = []) (hjoins : q.joinsOf q.constants = []) :
    q.withoutConstants.textWith n = q.textWith n := by
  have hbare : q.withoutConstants = { q with containers := q.containers.erase q.constants } := by
    rw [withoutConstants, hitems, hjoins]
    rfl
  rw [hbare]
  refine textWith_of_containers hn h.owned.nodup_tables rfl rfl (fun k hk => ⟨?_, Iff.rfl⟩) ?_
  · have hne : k ≠ q.constants := by
      rintro rfl
      rcases hk with hk | ⟨i, hi⟩
      · exact h.owned.constants_not_table hk
      · exact List.not_mem_nil (hitems ▸ (h.owned.mem_itemsOf _ _).2 hi)
    simp only [container?, IdMap.get?_erase, if_neg hne]
  · rw [hitems]
    simp [itemsOf, container?, IdMap.get?_erase]

/-! ## The last notice -/

/-- Whether an operation removes an item whose filter shows in the text and goes on to show until
the item is forgotten, because other items are selected. -/
def RemovesShownFilter (q : Query) (op : Operation) : Prop :=
  ∃ i item, op = .removeItem i ∧ q.item? i = some item ∧ q.handWritten = none ∧
    q.isAttached item.container ∧ item.activeFilter? ≠ none ∧ ∃ k ∈ q.selected, k ≠ i

/-- Except for two operations, the last step of a change is announced, if any of it is. -/
theorem perform_current (hp : q.perform op = .ok (reply, e))
    (hconst : ∀ uuid, op ≠ .newConstants uuid) (hremove : ∀ i, op ≠ .removeItem i) : e.Current := by
  cases hop : op.isCascade with
  | false => exact (perform_atOnce hp hop).current
  | true =>
    cases op with
    | addTable c =>
      rw [addTable_edit (Outcome.ofEdit_ok hp).2]
      exact .announce _ _
    | removeTable c =>
      rw [removeTable_edit (Outcome.ofEdit_ok hp).2]
      exact .announce _ _
    | newConstants uuid => exact absurd rfl (hconst uuid)
    | removeItem i => exact absurd rfl (hremove i)
    | setGrouping v =>
      cases hp
      rcases q.setGrouping_edit v with heq | ⟨-, heq⟩
      · rw [heq]
        exact .start q
      · rw [heq]
        exact .announce _ _
    | setOuter j side v =>
      obtain ⟨c, changes, -, rfl⟩ := setOuter_edit (Outcome.ofEdit_ok hp).2
      exact Edit.each_induction (fun _ _ _ _ => .announce _ _) (.start q)
    | _ => cases hop

/-- The last notice of an operation shows the text that the operation leaves behind, unless a
filter goes with its item. -/
theorem WellFormed.last_notice (h : q.WellFormed) (hq : q.count < UInt32.size)
    (hp : q.perform op = .ok (reply, e)) (hx : e.notices.getLast? = some x) :
    x.seen.dialect = e.query.dialect ∧ ∀ n : Naming, n.Blind →
      (x.seen.textWith n = e.query.textWith n ↔ ¬ q.RemovesShownFilter op) := by
  by_cases hop : (∀ uuid, op ≠ .newConstants uuid) ∧ ∀ i, op ≠ .removeItem i
  · have hseen := perform_current hp hop.1 hop.2 x hx
    have hother : ¬ q.RemovesShownFilter op := fun ⟨i, item, heq, _⟩ => hop.2 i heq
    exact hseen ▸ ⟨rfl, fun n _ => iff_of_true rfl hother⟩
  · cases op with
    | newConstants uuid =>
      cases hp
      have hother : ¬ q.RemovesShownFilter (.newConstants uuid) := by rintro ⟨i, item, ⟨⟩, -⟩
      rcases dropConstants_cases h with ⟨-, -, hnone⟩ | ⟨items, i, x', hitems, hlast, hseen⟩
      · -- There is no last notice.
        exact absurd (hx.symm.trans (congrArg List.getLast? hnone)) (by simp)
      · have hx' : x = x' := Option.some.inj (hx.symm.trans hlast)
        rw [hx', hseen]
        refine ⟨?_, fun n hn => iff_of_true ?_ hother⟩
        · rw [dropConstantsUpTo_query]
          exact (q.dialect_newConstants uuid).symm
        · exact (textWith_lastConstant hn h hitems).trans
            (textWith_newConstants hn h hq uuid).symm
    | removeItem i =>
      obtain ⟨y, hy, -, rfl⟩ := Outcome.map_ok hp
      obtain ⟨hitem, -⟩ := removeItem_ok hy
      have hshown : q.RemovesShownFilter (.removeItem i) ↔ q.handWritten = none ∧
          q.isAttached y.1.container ∧ y.1.activeFilter? ≠ none ∧ ∃ k ∈ q.selected, k ≠ i := by
        constructor
        · rintro ⟨i', item, ⟨⟩, hitem', hrest⟩
          rw [hitem, Option.some.injEq] at hitem'
          exact hitem' ▸ hrest
        · intro hrest
          exact ⟨i, y.1, rfl, hitem, hrest⟩
      rw [removeItem_edit hy, Edit.notices_update] at hx
      have hseen := releaseItem_current hitem x hx
      rw [releaseItem_query] at hseen
      rw [removeItem_edit hy, Edit.query_update, releaseItem_query, hseen]
      refine ⟨rfl, fun n hn => ?_⟩
      rw [eq_comm, h.textWith_takeReleased_iff hitem hn, hshown]
    | _ => exact absurd ⟨fun _ => by simp, fun _ => by simp⟩ hop

/-! ## Silent operations -/

/-- Two queries have the same dialect, and the same text in every dialect. -/
def SameText (q q' : Query) : Prop :=
  q'.dialect = q.dialect ∧ ∀ n : Naming, n.Blind → q'.textWith n = q.textWith n

namespace WellFormed

/-- The constants are replaced without a notice only if there were none. -/
theorem quiet_newConstants (h : q.WellFormed) (hq : q.count < UInt32.size) {uuid : Uuid}
    (hquiet : (q.newConstants uuid).2.notices = []) :
    SameText q (q.newConstants uuid).2.query := by
  rw [newConstants_edit, Edit.notices_update] at hquiet
  rcases dropConstants_cases h with ⟨hitems, hjoins, -⟩ | ⟨items, i, x, -, hlast, -⟩
  · refine ⟨q.dialect_newConstants uuid, fun n hn => ?_⟩
    exact (textWith_newConstants hn h hq uuid).trans
      (textWith_withoutConstants hn h hitems hjoins)
  · rw [hquiet] at hlast
    cases hlast

/-- An item is made without a notice only outside the statement. -/
theorem quiet_insertItem (h : q.WellFormed) (hq : q.count < UInt32.size) {c : ContainerId}
    (hknown : q.containers.contains c) {spec : ItemSpec} {uuid : Uuid}
    (hquiet : (q.insertItem c spec uuid).2.notices = []) :
    SameText q (q.insertItem c spec uuid).2.query := by
  rw [insertItem_edit] at hquiet ⊢
  by_cases hattached : q.isAttached c
  · rw [if_pos hattached] at hquiet
    cases hquiet
  · rw [if_neg hattached]
    exact ⟨rfl, fun n hn => textWith_putItem hn h hq hattached hknown spec uuid⟩

/-- An item is removed without a notice only outside the statement. -/
theorem quiet_removeItem (h : q.WellFormed) {y : Item × Edit} (hy : q.removeItem i = .ok y)
    (hquiet : y.2.notices = []) : SameText q y.2.query := by
  obtain ⟨hitem, -⟩ := removeItem_ok hy
  rw [removeItem_edit hy, Edit.notices_update] at hquiet
  obtain ⟨hdetached, hreleased⟩ := released_of_quiet hitem hquiet
  rw [removeItem_edit hy, Edit.query_update, releaseItem_query]
  have htext := fun n hn => h.textWith_takeReleased_iff (n := n) hitem hn
  rw [hreleased] at htext ⊢
  exact ⟨rfl, fun n hn => (htext n hn).2 fun hshown => hdetached hshown.2.1⟩

end WellFormed

/-- What is not announced leaves the text as it was, unless the operation is silent. -/
theorem WellFormed.quiet_keeps_text (h : q.WellFormed) (hq : q.count < UInt32.size)
    (hp : q.perform op = .ok (reply, e)) (hop : op.isSilent = false) (hquiet : e.notices = []) :
    SameText q e.query := by
  have hkept : e.Told q → SameText q e.query := by
    intro htold
    rw [htold hquiet]
    exact ⟨rfl, fun _ _ => rfl⟩
  cases op with
  | setContainerAlias | moveSortedItemToEnd | setDialect => cases hop
  | newTable identity uuid =>
    cases hp
    exact ⟨rfl, fun n hn => textWith_newTable hn h hq identity uuid⟩
  | setName | setZoomLevel | setStreamingRowLimit | setStreaming =>
    cases hp
    exact ⟨rfl, fun n hn => textWith_of_settings hn h.owned.nodup_tables rfl rfl rfl rfl⟩
  | setCanExecute | startCompound | endCompound =>
    cases hp
    exact (Edit.query_setCanExecute _ _).symm ▸
      ⟨rfl, fun n hn => textWith_of_settings hn h.owned.nodup_tables rfl rfl rfl rfl⟩
  | newConstants uuid =>
    cases hp
    exact h.quiet_newConstants hq hquiet
  | addItem c spec uuid =>
    obtain ⟨y, hy, -, rfl⟩ := Outcome.map_ok hp
    obtain ⟨hknown, rfl⟩ := addItem_ok hy
    exact h.quiet_insertItem hq hknown hquiet
  | removeItem i =>
    obtain ⟨y, hy, -, rfl⟩ := Outcome.map_ok hp
    exact h.quiet_removeItem hy hquiet
  | addTable c =>
    refine hkept ?_
    rw [addTable_edit (Outcome.ofEdit_ok hp).2]
    exact .announce _ _
  | removeTable c =>
    refine hkept ?_
    rw [removeTable_edit (Outcome.ofEdit_ok hp).2]
    exact .announce _ _
  | moveItem i index =>
    refine hkept ?_
    rw [moveItem_edit (Outcome.ofEdit_ok hp).2]
    exact .announce _ _
  | setSelected | setSortOrder | setGroupRole | setItemAlias | setFilter | setHaving
  | setItemName =>
    obtain ⟨item, -, heq⟩ := changeItem_edit (Outcome.ofEdit_ok hp).2
    exact hkept (.of_cases heq)
  | setGrouping v =>
    cases hp
    refine hkept ?_
    rcases q.setGrouping_edit v with heq | ⟨-, heq⟩
    · rw [heq]
      exact .start q
    · rw [heq]
      exact .announce _ _
  | addJoin join =>
    obtain ⟨y, hy, -, rfl⟩ := Outcome.map_ok hp
    refine hkept ?_
    rw [addJoin_edit hy]
    exact .announce _ _
  | removeJoin j =>
    obtain ⟨y, hy, -, rfl⟩ := Outcome.map_ok hp
    refine hkept ?_
    rw [(removeJoin_edit hy).1]
    exact (Edit.Told.start q).dropJoin j
  | setOuter j side v =>
    obtain ⟨c, changes, -, rfl⟩ := setOuter_edit (Outcome.ofEdit_ok hp).2
    exact hkept (Edit.each_induction (fun _ _ _ _ => .announce _ _) (.start q))
  | setComparator j v =>
    obtain ⟨join, -, heq⟩ := setComparator_edit (Outcome.ofEdit_ok hp).2
    exact hkept (.of_cases heq)
  | setGlobalFilter v =>
    cases hp
    exact hkept (.of_cases (q.setGlobalFilter_edit v))
  | setRowLimit v =>
    cases hp
    exact hkept (.announce _ _)
  | defineHandWritten text =>
    cases hp
    exact hkept (.of_cases (q.defineHandWritten_edit text))
  | removeHandWritten =>
    cases hp
    exact hkept (.of_cases q.removeHandWritten_edit)

/-- A silent operation announces nothing. -/
theorem notices_of_isSilent (hp : q.perform op = .ok (reply, e)) (hop : op.isSilent) :
    e.notices = [] := by
  cases op with
  | setContainerAlias c a =>
    rw [setContainerAlias_edit (Outcome.ofEdit_ok hp).2]
    rfl
  | moveSortedItemToEnd i =>
    rw [moveSortedItemToEnd_edit (Outcome.ofEdit_ok hp).2]
    rfl
  | setDialect d =>
    cases hp
    rfl
  | _ => cases hop

end Query

namespace ObservedQuery

variable {α : Type}

/-! ## What observers learn -/

/-- In the last call of an operation on a reachable query the observer reads the text that the
operation leaves behind, in the query's own dialect and in every other, unless the operation
removes an item whose filter shows. -/
theorem last_call_shows_text_iff (o : ObservedQuery α) (h : o.query.Reachable) (op : Operation)
    (x : α × Notice) (hx : (o.execute op).calls.getLast? = some x) :
    (x.2.seen.text = (o.execute op).after.query.text ↔ ¬ o.query.RemovesShownFilter op) ∧
    ∀ d : Dialect, x.2.seen.textWith d.naming = (o.execute op).after.query.textWith d.naming ↔
      ¬ o.query.RemovesShownFilter op := by
  rw [calls_execute] at hx
  have hlast := Registry.getLast?_deliverAll hx
  rw [after_execute]
  cases hp : o.query.perform op with
  | error err =>
    rw [Query.notices_error hp] at hlast
    cases hlast
  | ok y =>
    obtain ⟨reply, e⟩ := y
    rw [Query.notices_ok hp] at hlast
    obtain ⟨hdialect, htext⟩ := h.wellFormed.last_notice h.count_lt hp hlast
    rw [Query.after_ok hp]
    refine ⟨?_, fun d => htext _ d.naming_blind⟩
    rw [Query.text, hdialect]
    exact htext _ e.query.dialect.naming_blind

/-- The last call of the removal of a table shows the text without the table. -/
theorem observedTables_shows_text :
    let op := Operation.removeTable (.ofCount 4)
    observedTables.query.Reachable ∧ ∃ x, (observedTables.execute op).calls.getLast? = some x ∧
      x.2.seen.text = (observedTables.execute op).after.query.text := by
  intro op
  have hcalled : (observedTables.execute op).calls.getLast?.isSome := by decide +kernel
  obtain ⟨x, hx⟩ := Option.isSome_iff_exists.1 hcalled
  refine ⟨Query.joinedTables_reachable, x, hx, ?_⟩
  refine (observedTables.last_call_shows_text_iff Query.joinedTables_reachable op x hx).1.2 ?_
  rintro ⟨i, item, heq, -⟩
  simp only [op, reduceCtorEq] at heq

/-- A table of two sorted columns, of which one is selected and the other carries a filter, with
one observer. -/
def sortedTable : ObservedQuery String :=
  let uuid : Uuid := .ofNat 0
  let query := [ .newTable { name := "T" } uuid,
    .addItem (.ofCount 4) { name := "X", selected := true, sortOrder := .ascending } uuid,
    .addItem (.ofCount 4) { name := "Y", filter := some "> 1", sortOrder := .descending } uuid,
    .addTable (.ofCount 4) ].foldl Query.after (Query.create uuid fun _ => uuid)
  (ObservedQuery.observe { query } "watch").2

theorem sortedTable_reachable : sortedTable.query.Reachable :=
  (Query.Reachable.create _ _).foldl_after _ (by decide +kernel)

/-- When the item with the filter is removed, the last call still shows the filter. -/
theorem last_call_shows_gone_filter :
    ∃ (o : ObservedQuery String) (op : Operation) (x : String × Notice), o.query.Reachable ∧
      (o.execute op).calls.getLast? = some x ∧
      x.2.seen.text ≠ (o.execute op).after.query.text := by
  have hseen : (sortedTable.execute (.removeItem (.ofCount 6))).calls.getLast?.map (·.2.seen.text) =
      some "SELECT T.X \nFROM T T  \nWHERE T.Y > 1\nORDER BY T.X ASC " := by decide +kernel
  have hafter : (sortedTable.execute (.removeItem (.ofCount 6))).after.query.text =
      "SELECT T.X \nFROM T T \nORDER BY T.X ASC " := by decide +kernel
  obtain ⟨x, hx, htext⟩ := Option.map_eq_some_iff.1 hseen
  refine ⟨sortedTable, _, x, sortedTable_reachable, hx, ?_⟩
  rw [htext, hafter]
  decide

/-- When an operation on a reachable query with observers changes the text, the observers are
told, unless it is one of the three that are silent. -/
theorem text_change_unannounced_iff (o : ObservedQuery α) (h : o.query.Reachable)
    (hobserved : o.observers.observers ≠ []) (op : Operation)
    (htext : (o.execute op).after.query.text ≠ o.query.text) :
    (o.execute op).calls = [] ↔ op.isSilent := by
  rw [calls_execute, Registry.deliverAll_eq_nil hobserved]
  rw [after_execute] at htext
  cases hp : o.query.perform op with
  | error err =>
    rw [Query.after_error hp] at htext
    exact absurd rfl htext
  | ok y =>
    obtain ⟨reply, e⟩ := y
    rw [Query.after_ok hp] at htext
    rw [Query.notices_ok hp]
    refine ⟨fun hquiet => ?_, Query.notices_of_isSilent hp⟩
    by_contra hop
    obtain ⟨hdialect, hkept⟩ :=
      h.wellFormed.quiet_keeps_text h.count_lt hp (Bool.not_eq_true _ ▸ hop) hquiet
    refine htext ?_
    change e.query.textWith e.query.dialect.naming = _
    rw [hdialect]
    exact hkept _ o.query.dialect.naming_blind

/-- Observers are told when one more column is selected. -/
theorem observedTables_announces_selection :
    let op := Operation.setSelected (.ofCount 7) true
    observedTables.query.Reachable ∧ observedTables.observers.observers ≠ [] ∧
      (observedTables.execute op).after.query.text ≠ observedTables.query.text ∧
      (observedTables.execute op).calls ≠ [] := by
  intro op
  have hobserved : observedTables.observers.observers ≠ [] := by decide
  have htext : (observedTables.execute op).after.query.text ≠ observedTables.query.text := by
    decide +kernel
  refine ⟨Query.joinedTables_reachable, hobserved, htext, fun hnone => ?_⟩
  have hsilent := (observedTables.text_change_unannounced_iff Query.joinedTables_reachable hobserved
    op htext).1 hnone
  cases hsilent

/-- The order of two sorted columns changes, and nobody is told. -/
theorem sort_move_unannounced :
    ∃ (o : ObservedQuery String) (op : Operation), o.query.Reachable ∧
      o.observers.observers ≠ [] ∧ (o.execute op).after.query.text ≠ o.query.text ∧
      (o.execute op).calls = [] := by
  refine ⟨sortedTable, .moveSortedItemToEnd (.ofCount 5), sortedTable_reachable, by decide, ?_, ?_⟩
  · decide +kernel
  · rfl

end ObservedQuery

end LiveSelect
