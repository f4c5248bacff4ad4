import Mathlib.Algebra.GroupWithZero.Nat
import LiveSelect.Proofs.Agreement

/-! # Changes that do not show

Containers that are not part of the statement can come, go and change without a trace in the
text, and so can their items. An item of the statement that has been taken from the lists
and from the joins shows in one place only: its filter is still read from its container. -/

namespace LiveSelect

/-! ## The text of a clause -/

theorem clause_of_ne_nil (keyword separator : String) {entries : List String} (h : entries ≠ []) :
    clause keyword separator entries = keyword ++ separator.intercalate entries := by
  unfold clause
  split
  · exact absurd rfl h
  · rfl

theorem length_clause (keyword separator : String) (entries : List String) (h : entries ≠ []) :
    (clause keyword separator entries).length + separator.length =
      keyword.length + (entries.map fun t => t.length + separator.length).sum := by
  have hjoined : (separator.intercalate entries).length + separator.length =
      (entries.map fun t => t.length + separator.length).sum := by
    induction entries with
    | nil => exact absurd rfl h
    | cons t rest ih =>
      cases rest with
      | nil => simp
      | cons u rest =>
        rw [String.intercalate_cons_cons, String.length_append, String.length_append,
          List.map_cons, List.sum_cons, ← ih (List.cons_ne_nil _ _)]
        omega
  rw [clause_of_ne_nil keyword separator h, String.length_append]
  omega

namespace Query

variable {q q' : Query} {n : Naming} {c : ContainerId} {i : ItemId} {item : Item}

/-! ## The WHERE clause -/

/-- The clause that is made of conditions on items and of one on the whole query. -/
def whereText (filters : List String) (condition? : Option String) : String :=
  clause " \nWHERE " " AND " filters ++
    match Text.nonEmpty? condition? with
    | none => ""
    | some condition => (if filters = [] then " \nWHERE " else " AND") ++ " " ++ condition

theorem whereClause_eq (q : Query) (n : Naming) :
    q.whereClause n = whereText (q.filterTexts n) q.globalFilter := rfl

/-- With one condition less the clause is shorter. -/
theorem whereText_ne (before after : List String) {entry : String} (h : 0 < entry.length)
    (condition? : Option String) :
    whereText (before ++ after) condition? ≠ whereText (before ++ entry :: after) condition? := by
  intro heq
  have hlength := congrArg String.length heq
  have hkeyword : " \nWHERE ".length = 8 := by decide
  have hseparator : " AND ".length = 5 := by decide
  have hand : " AND".length = 4 := by decide
  have hspace : " ".length = 1 := by decide
  have hnone : "".length = 0 := by decide
  have hmore := length_clause " \nWHERE " " AND " (before ++ entry :: after) (by simp)
  have hless := length_clause " \nWHERE " " AND " (before ++ after)
  simp only [List.map_append, List.map_cons, List.sum_append, List.sum_cons] at hmore hless
  have hfilled : ¬ before ++ entry :: after = [] := by simp
  simp only [whereText, String.length_append, if_neg hfilled] at hlength
  by_cases hnil : before ++ after = []
  · have hempty : (clause " \nWHERE " " AND " (before ++ after)).length = 0 := by
      rw [hnil]
      rfl
    rw [if_pos hnil] at hlength
    split at hlength
    · omega
    · simp only [String.length_append] at hlength
      omega
  · specialize hless hnil
    rw [if_neg hnil] at hlength
    split at hlength
    · omega
    · simp only [String.length_append] at hlength
      omega

/-- The condition that the filter of an item makes, if it has one. -/
def filterOf? (q : Query) (n : Naming) (i : ItemId) : Option String :=
  (q.item? i).bind (q.filterText? n)

theorem filterTexts_eq (q : Query) (n : Naming) :
    q.filterTexts n = q.filterCandidates.filterMap (q.filterOf? n) :=
  List.filterMap_filterMap

theorem filterOf?_eq_none (h : q.item? i = some item) :
    q.filterOf? n i = none ↔ item.activeFilter? = none := by
  simp [filterOf?, h, filterText?]

theorem length_filterOf? {text : String} (h : q.filterOf? n i = some text) : 0 < text.length := by
  simp only [filterOf?, filterText?, Option.bind_eq_some_iff, Option.map_eq_some_iff] at h
  obtain ⟨item, -, condition, -, rfl⟩ := h
  have hspace : " ".length = 1 := by decide
  simp only [String.length_append]
  omega

namespace Owned

theorem mem_filterCandidates (h : q.Owned) :
    i ∈ q.filterCandidates ↔ ∃ c, q.home? i = some c ∧ q.isAttached c := by
  simp only [filterCandidates, List.mem_flatMap, List.mem_cons, h.mem_itemsOf, isAttached_iff]
  exact exists_congr fun c => and_comm

theorem nodup_filterCandidates (h : q.Owned) : q.filterCandidates.Nodup :=
  h.nodup_flatMap_itemsOf (List.nodup_cons.2 ⟨h.constants_not_table, h.nodup_tables⟩)

theorem filterCandidates_takeItem (h : q.Owned) (hi : q.home? i = some c) :
    (q.takeItem c i).filterCandidates = q.filterCandidates.filter (· ≠ i) := by
  have hitems : ∀ k, (q.takeItem c i).itemsOf k = (q.itemsOf k).filter (· ≠ i) := by
    intro k
    rw [itemsOf_takeItem]
    split
    · rename_i hk
      rw [hk]
    · rename_i hk
      refine (filter_ne_of_not_mem fun hmem => hk ?_).symm
      rw [h.mem_itemsOf, hi, Option.some.injEq] at hmem
      exact hmem.symm
  change (q.constants :: q.tables).flatMap (q.takeItem c i).itemsOf = _
  rw [filterCandidates, List.filter_flatMap]
  exact List.flatMap_congr fun k _ => hitems k

end Owned

theorem face?_updateContainer {f : Container → Container} (hf : ∀ k, (f k).face = k.face)
    (k : ContainerId) : (q.updateContainer c f).face? k = q.face? k := by
  simp only [face?, container?, updateContainer, IdMap.get?_modify]
  split
  · cases q.containers.get? k <;> simp [hf]
  · rfl

/-! ## An item that is gone -/

/-- What is left of a query agrees with it on all other items. -/
theorem agreeOn_others (hout : q'.outline = q.outline) (hunused : q.Unused i)
    (hitem : ∀ k, k ≠ i → q'.item? k = q.item? k) (hface : ∀ c, q'.face? c = q.face? c)
    (hconst : q'.constants = q.constants) : AgreeOn (· ≠ i) q q' where
  outline := hout
  items := hitem
  columns := hunused
  faces c _ := hface c
  constants _ _ _ _ := by rw [hconst]

/-- That an item is forgotten does not show if it was in no list and in no container of the
statement. -/
theorem textWith_eraseItem (hn : n.Blind) (hnodup : q.tables.Nodup) (hunused : q.Unused i)
    (hs : i ∉ q.selected) (ht : i ∉ q.sortList) (hc : i ∉ q.filterCandidates) :
    textWith { q with items := q.items.erase i } n = q.textWith n := by
  have hagree : AgreeOn (· ≠ i) q { q with items := q.items.erase i } := by
    refine agreeOn_others rfl hunused (fun k hk => ?_) (fun _ => rfl) rfl
    simp only [item?, IdMap.get?_erase, if_neg hk]
  exact hagree.textWith_eq hn hnodup (fun k hk heq => hs (heq ▸ hk))
    (fun k hk heq => ht (heq ▸ hk)) rfl fun k hk heq => hc (heq ▸ hk)

theorem agreeOn_takeItem (hunused : q.Unused i) : AgreeOn (· ≠ i) q (q.takeItem c i) := by
  refine agreeOn_others rfl hunused (fun k hk => ?_) (face?_updateContainer fun _ => rfl) rfl
  rw [item?_takeItem, if_neg hk]

/-- When an item leaves its container, it is one candidate less. -/
theorem filterTexts_takeItem (ho : q.Owned) (hunused : q.Unused i)
    (hitem : q.item? i = some item) :
    (q.takeItem item.container i).filterTexts n =
      (q.filterCandidates.filter (· ≠ i)).filterMap (q.filterOf? n) := by
  have hagree := agreeOn_takeItem (c := item.container) hunused
  rw [filterTexts_eq, ho.filterCandidates_takeItem (home?_of_item? hitem)]
  refine List.filterMap_congr fun k hk => ?_
  have hk' : k ≠ i := by simpa using (List.mem_filter.1 hk).2
  rw [filterOf?, hagree.items k hk', filterOf?]
  cases hknown : q.item? k with
  | none => rfl
  | some x => simp only [Option.bind_some, filterText?, hagree.columnText ⟨k, hk', hknown⟩]

/-- When an item leaves its container, what changes in the text is its filter. -/
theorem whereClause_takeItem_iff (ho : q.Owned) (hunused : q.Unused i)
    (hitem : q.item? i = some item) :
    (q.takeItem item.container i).whereClause n = q.whereClause n ↔
      ¬ (q.isAttached item.container ∧ item.activeFilter? ≠ none) := by
  rw [whereClause_eq, whereClause_eq, filterTexts_takeItem ho hunused hitem, filterTexts_eq]
  have hmem : i ∈ q.filterCandidates ↔ q.isAttached item.container := by
    rw [ho.mem_filterCandidates, home?_of_item? hitem]
    simp
  by_cases hshown : q.isAttached item.container ∧ item.activeFilter? ≠ none
  · refine iff_of_false ?_ (not_not.2 hshown)
    -- The item stands once among the candidates, and its filter makes a condition.
    obtain ⟨before, after, hsplit⟩ := List.append_of_mem (hmem.2 hshown.1)
    have hnodup := ho.nodup_filterCandidates
    rw [hsplit] at hnodup
    have hnot : i ∉ before ++ after := (List.nodup_middle.1 hnodup).notMem
    have hrest : (before ++ i :: after).filter (· ≠ i) = before ++ after := by
      rw [List.filter_append, List.filter_cons_of_neg (by simp), ← List.filter_append,
        filter_ne_of_not_mem hnot]
    cases htext : q.filterOf? n i with
    | none => exact absurd ((filterOf?_eq_none hitem).1 htext) hshown.2
    | some text =>
      rw [hsplit, hrest, List.filterMap_append, List.filterMap_append,
        List.filterMap_cons_some htext]
      exact whereText_ne _ _ (length_filterOf? htext) _
  · refine iff_of_true ?_ hshown
    congr 1
    rw [List.filterMap_filter]
    refine List.filterMap_congr fun k hk => ?_
    by_cases heq : k = i
    · have hnone : q.filterOf? n i = none := by
        rw [filterOf?_eq_none hitem]
        by_contra hfilter
        exact hshown ⟨hmem.1 (heq ▸ hk), hfilter⟩
      simp [heq, hnone]
    · simp [heq]

/-- An item that was in no list is missed in the text only if its filter was shown. -/
theorem textWith_takeItem_iff (hn : n.Blind) (ho : q.Owned) (hunused : q.Unused i)
    (hitem : q.item? i = some item) (hs : i ∉ q.selected) (ht : i ∉ q.sortList) :
    (q.takeItem item.container i).textWith n = q.textWith n ↔
      ¬ (q.handWritten = none ∧ q.isAttached item.container ∧ item.activeFilter? ≠ none ∧
        q.selected ≠ []) := by
  rw [(agreeOn_takeItem hunused).textWith_eq_iff hn ho.nodup_tables (fun k hk heq => hs (heq ▸ hk))
    (fun k hk heq => ht (heq ▸ hk)), whereClause_takeItem_iff ho hunused hitem]
  tauto

/-! ## Items outside the statement -/

/-- A new item of a container outside the statement does not show. -/
theorem textWith_putItem (hn : n.Blind) (h : q.WellFormed) (hq : q.count < UInt32.size)
    (hc : ¬ q.isAttached c) (hknown : q.containers.contains c) (spec : ItemSpec) (uuid : Uuid) :
    (q.putItem c spec uuid).textWith n = q.textWith n := by
  have hold : ∀ {k : ItemId} {item : Item}, q.item? k = some item → k ≠ q.nextId := by
    rintro k item hk rfl
    rw [h.numbered.item?_nextId hq] at hk
    cases hk
  have hlisted : ∀ {p l}, q.Lists p l → ∀ k ∈ l, k ≠ q.nextId := by
    intro p l hl k hk
    obtain ⟨item, hitem, -⟩ := (hl.mem k).1 hk
    exact hold hitem
  have hagree : AgreeOn (· ≠ (q.nextId : ItemId)) q (q.putItem c spec uuid) := by
    refine agreeOn_others rfl ?_ (fun k hk => ?_) ?_ rfl
    · intro j join hj
      obtain ⟨l, r, hl, hr, -⟩ := h.indexed.home_of_join hj
      obtain ⟨left, hleft, -⟩ := home?_eq_some.1 hl
      obtain ⟨right, hright, -⟩ := home?_eq_some.1 hr
      exact ⟨hold hleft, hold hright⟩
    · rw [item?_putItem, if_neg hk]
    · exact face?_updateContainer (q := { q.handOut with items := _ }) fun _ => rfl
  refine hagree.textWith_eq hn h.owned.nodup_tables (hlisted h.listed.selected)
    (hlisted h.listed.sortList) ?_ ?_
  · refine List.flatMap_congr fun k hk => ?_
    rw [itemsOf_putItem hknown, if_neg]
    rintro rfl
    exact hc ((q.isAttached_iff k).2 (List.mem_cons.1 hk))
  · intro k hk
    obtain ⟨c', hc', -⟩ := h.owned.mem_filterCandidates.1 hk
    obtain ⟨item, hitem, -⟩ := home?_eq_some.1 hc'
    exact hold hitem

/-! ## Containers outside the statement -/

/-- Containers other than the tables and those that own items do not show; and one container
of constants may be replaced by another with the same items. -/
theorem textWith_of_containers (hn : n.Blind) (hnodup : q.tables.Nodup)
    (hout : q'.outline = q.outline) (hitems : q'.items = q.items)
    (hcontainer : ∀ c, (c ∈ q.tables ∨ ∃ i, q.home? i = some c) →
      q'.container? c = q.container? c ∧ (c = q'.constants ↔ c = q.constants))
    (hconst : q'.itemsOf q'.constants = q.itemsOf q.constants) :
    q'.textWith n = q.textWith n := by
  have hagree : AgreeOn (fun _ => True) q q' := by
    refine ⟨hout, fun k _ => ?_, fun _ _ _ => ⟨trivial, trivial⟩, fun k hk => ?_,
      fun i k _ hi => ?_⟩
    · rw [item?, hitems, item?]
    · have hk' := (hcontainer k (hk.imp id fun hi => hi.imp fun _ => And.right)).1
      rw [face?, hk', face?]
    · exact (hcontainer k (Or.inr ⟨i, hi⟩)).2
  have hcandidates : q'.filterCandidates = q.filterCandidates := by
    rw [filterCandidates, filterCandidates, hagree.tables_eq, List.flatMap_cons, List.flatMap_cons,
      hconst]
    congr 1
    refine List.flatMap_congr fun k hk => ?_
    rw [itemsOf, (hcontainer k (Or.inl hk)).1, itemsOf]
  exact hagree.textWith_eq hn hnodup (fun _ _ => trivial) (fun _ _ => trivial) hcandidates
    fun _ _ => trivial

/-- The settings that are not part of the outline do not show. -/
theorem textWith_of_settings (hn : n.Blind) (hnodup : q.tables.Nodup)
    (hout : q'.outline = q.outline) (hitems : q'.items = q.items)
    (hcontainers : q'.containers = q.containers) (hconst : q'.constants = q.constants) :
    q'.textWith n = q.textWith n := by
  have hcontainer : ∀ c, q'.container? c = q.container? c := by
    intro c
    rw [container?, hcontainers, container?]
  refine textWith_of_containers hn hnodup hout hitems (fun c _ => ⟨hcontainer c, ?_⟩) ?_
  · rw [hconst]
  · rw [hconst, itemsOf, hcontainer, itemsOf]

theorem textWith_newTable (hn : n.Blind) (h : q.WellFormed) (hq : q.count < UInt32.size)
    (identity : TableIdentity) (uuid : Uuid) :
    (q.newTable identity uuid).2.textWith n = q.textWith n := by
  have hold : ∀ k, q.containers.contains k →
      (q.newTable identity uuid).2.container? k = q.container? k := by
    intro k hk
    have hne : k ≠ q.nextId := h.numbered.ne_nextId hq (e := .container) hk
    simp only [newTable_eq, container?, IdMap.get?_insert, if_neg hne]
  refine textWith_of_containers hn h.owned.nodup_tables rfl rfl (fun k hk => ⟨hold k ?_, Iff.rfl⟩)
    ?_
  · rcases hk with hk | ⟨i, hi⟩
    · exact h.owned.knows_tables k hk
    · exact h.owned.knows_home hi
  · change (q.newTable identity uuid).2.itemsOf q.constants = _
    rw [itemsOf, hold _ h.owned.knows_constants, itemsOf]

/-! ## The constants -/

theorem item?_withoutConstants (q : Query) (k : ItemId) :
    q.withoutConstants.item? k = if k ∈ q.itemsOf q.constants then none else q.item? k := by
  rw [withoutConstants, foldl_discardItem, dropJoins_eq]
  exact IdMap.get?_foldl_erase _ _ _

theorem container?_withoutConstants (q : Query) (k : ContainerId) :
    q.withoutConstants.container? k = if k = q.constants then none else q.container? k := by
  rw [withoutConstants, foldl_discardItem, dropJoins_eq]
  exact IdMap.get?_erase _ _ _

theorem tables_withoutConstants (q : Query) : q.withoutConstants.tables = q.tables := by
  rw [withoutConstants, foldl_discardItem, dropJoins_eq]

theorem constants_withoutConstants (q : Query) : q.withoutConstants.constants = q.constants := by
  rw [withoutConstants, foldl_discardItem, dropJoins_eq]

/-- The new container of constants is empty, as the old one was at last. -/
theorem textWith_newConstants (hn : n.Blind) (h : q.WellFormed) (hq : q.count < UInt32.size)
    (uuid : Uuid) :
    (q.newConstants uuid).2.query.textWith n = q.withoutConstants.textWith n := by
  have hcount : q.withoutConstants.nextId (e := .container) = q.nextId := by
    rw [nextId, count_withoutConstants, nextId]
  have hnew : ∀ k, q.containers.contains k → k ≠ q.nextId :=
    fun k hk => h.numbered.ne_nextId hq (e := .container) hk
  rw [newConstants_query, hcount]
  refine textWith_of_containers hn (q.tables_withoutConstants ▸ h.owned.nodup_tables) rfl rfl ?_ ?_
  · intro k hk
    have hk' : q.containers.contains k ∧ k ≠ q.constants := by
      rcases hk with hk | ⟨i, hi⟩
      · rw [tables_withoutConstants] at hk
        exact ⟨h.owned.knows_tables k hk, fun heq => h.owned.constants_not_table (heq ▸ hk)⟩
      · rw [home?, item?_withoutConstants] at hi
        split at hi
        · cases hi
        · rename_i hnot
          exact ⟨h.owned.knows_home hi, fun heq => hnot ((h.owned.mem_itemsOf _ _).2 (heq ▸ hi))⟩
    refine ⟨?_, iff_of_false (hnew k hk'.1) ?_⟩
    · simp only [container?, IdMap.get?_insert, if_neg (hnew k hk'.1)]
    · rw [constants_withoutConstants]
      exact hk'.2
  · have hold : q.withoutConstants.itemsOf q.withoutConstants.constants = [] := by
      rw [itemsOf, container?_withoutConstants, constants_withoutConstants, if_pos rfl]
      rfl
    rw [hold, itemsOf]
    simp [container?, IdMap.get?_insert, Container.ofConstants]

end Query

end LiveSelect
