import Mathlib.Data.List.Induction
import Mathlib.Logic.Function.Basic
import LiveSelect.Proofs.Cancelling
import LiveSelect.Proofs.Layout
import LiveSelect.Proofs.Outerness
import LiveSelect.Proofs.Readiness
import LiveSelect.Proofs.Reattachment

/-! # Order by recency

The selection and the sort list tell how recently their items were placed. A step of a run may
take items out of a list, and it may place items at its end; it never changes the order of the
others. So of two items that are listed now, the one that stands first is the one whose last
placing lies further back, however often both of them were taken out and put in before. Only the
operation that moves a selected item to a given place breaks the rule, for the selection. -/

namespace LiveSelect

/-! ## Lists that grow at the end -/

section Lists

variable {α : Type} {l l' new : List α} {x y : α} {placed : Nat → List α} {t m : Nat}

/-- Members of a part of a list stand in the order of the list. -/
theorem idxOf_lt_iff_of_sublist [DecidableEq α] (h : l'.Sublist l) (hl : l.Nodup) (hx : x ∈ l')
    (hy : y ∈ l') : l'.idxOf x < l'.idxOf y ↔ l.idxOf x < l.idxOf y := by
  induction h with
  | slnil => cases hx
  | @cons l' l a hsub ih =>
    obtain ⟨ha, hl⟩ := List.nodup_cons.1 hl
    have hne : ∀ z ∈ l', a ≠ z := by
      rintro z hz rfl
      exact ha (hsub.subset hz)
    rw [List.idxOf_cons_ne _ (hne x hx), List.idxOf_cons_ne _ (hne y hy), ih hl hx hy]
    omega
  | @cons_cons l' l a hsub ih =>
    obtain ⟨-, hl⟩ := List.nodup_cons.1 hl
    by_cases hax : a = x
    · subst hax
      rw [List.idxOf_cons_self, List.idxOf_cons_self]
      by_cases hay : a = y
      · rw [hay, List.idxOf_cons_self, List.idxOf_cons_self]
      · rw [List.idxOf_cons_ne _ hay, List.idxOf_cons_ne _ hay]
        omega
    · by_cases hay : a = y
      · rw [hay, List.idxOf_cons_self, List.idxOf_cons_self]
        omega
      · have hx := List.mem_of_ne_of_mem (Ne.symm hax) hx
        have hy := List.mem_of_ne_of_mem (Ne.symm hay) hy
        rw [List.idxOf_cons_ne _ hax, List.idxOf_cons_ne _ hay, List.idxOf_cons_ne _ hax,
          List.idxOf_cons_ne _ hay, Nat.succ_lt_succ_iff, Nat.succ_lt_succ_iff, ih hl hx hy]

/-- A list after a step: some of the old members in their old order, and what the step places
behind them. -/
def Stacks (old new after : List α) : Prop := ∃ kept, kept.Sublist old ∧ after = kept ++ new

theorem Stacks.refl (l : List α) : Stacks l [] l := ⟨l, .refl l, (List.append_nil l).symm⟩

theorem Stacks.filter (l : List α) (p : α → Bool) : Stacks l [] (l.filter p) :=
  ⟨_, List.filter_sublist, (List.append_nil _).symm⟩

theorem Stacks.append (l new : List α) : Stacks l new (l ++ new) := ⟨l, .refl l, rfl⟩

/-- A step places something, and no later step places it again. -/
structure LastPlaced (placed : Nat → List α) (x : α) (m : Nat) : Prop where
  mem : x ∈ placed m
  last : ∀ k, m < k → x ∉ placed k

/-- All members of a list were placed by some step, and those that were placed later for the last
time stand later. -/
structure Recent [DecidableEq α] (placed : Nat → List α) (l : List α) : Prop where
  exists_last : ∀ x ∈ l, ∃ m, LastPlaced placed x m
  before_iff : ∀ x ∈ l, ∀ y ∈ l, ∀ m n, LastPlaced placed x m → LastPlaced placed y n →
    (l.idxOf x < l.idxOf y ↔
      m < n ∨ m = n ∧ (placed m).idxOf x < (placed m).idxOf y)

/-- What the last step places is placed by it for the last time. -/
theorem lastPlaced_update_of_mem (hend : ∀ m, t ≤ m → placed m = []) (hx : x ∈ new) :
    LastPlaced (Function.update placed t new) x m ↔ m = t := by
  constructor
  · intro h
    rcases Nat.lt_trichotomy m t with hlt | heq | hgt
    · exact absurd (by rwa [Function.update_self]) (h.last t hlt)
    · exact heq
    · have hnone := h.mem
      rw [Function.update_of_ne (Nat.ne_of_gt hgt), hend m (Nat.le_of_lt hgt)] at hnone
      cases hnone
  · rintro rfl
    refine ⟨by rwa [Function.update_self], fun k hk => ?_⟩
    rw [Function.update_of_ne (Nat.ne_of_gt hk), hend k (Nat.le_of_lt hk)]
    exact List.not_mem_nil

/-- For everything else the last step makes no difference. -/
theorem lastPlaced_update_of_not_mem (hend : ∀ m, t ≤ m → placed m = []) (hx : x ∉ new) :
    LastPlaced (Function.update placed t new) x m ↔ LastPlaced placed x m := by
  have hsame : ∀ k, x ∈ Function.update placed t new k ↔ x ∈ placed k := by
    intro k
    by_cases hk : k = t
    · subst hk
      rw [Function.update_self, hend k (Nat.le_refl k)]
      exact iff_of_false hx List.not_mem_nil
    · rw [Function.update_of_ne hk]
  constructor
  · exact fun h => ⟨(hsame m).1 h.mem, fun k hk hmem => h.last k hk ((hsame k).2 hmem)⟩
  · exact fun h => ⟨(hsame m).2 h.mem, fun k hk hmem => h.last k hk ((hsame k).1 hmem)⟩

theorem LastPlaced.lt (h : LastPlaced placed x m) (hend : ∀ m, t ≤ m → placed m = []) : m < t := by
  by_contra hle
  have hnone := h.mem
  rw [hend m (Nat.le_of_not_lt hle)] at hnone
  cases hnone

/-- A step that takes members out and places others at the end keeps the order by recency. -/
theorem Recent.stack [DecidableEq α] (h : Recent placed l) (hend : ∀ m, t ≤ m → placed m = [])
    (hl : l.Nodup) (hstacks : Stacks l new l') (hl' : l'.Nodup) :
    Recent (Function.update placed t new) l' := by
  obtain ⟨kept, hkept, rfl⟩ := hstacks
  have hold : ∀ z ∈ kept, z ∉ new := fun z hz => List.disjoint_of_nodup_append hl' hz
  have hlast : ∀ {z k}, z ∈ new → (LastPlaced (Function.update placed t new) z k ↔ k = t) :=
    lastPlaced_update_of_mem hend
  have hearlier : ∀ {z k}, z ∈ kept →
      (LastPlaced (Function.update placed t new) z k ↔ LastPlaced placed z k) :=
    fun hz => lastPlaced_update_of_not_mem hend (hold _ hz)
  constructor
  · intro x hx
    rcases List.mem_append.1 hx with hx | hx
    · obtain ⟨m, hm⟩ := h.exists_last x (hkept.subset hx)
      exact ⟨m, (hearlier hx).2 hm⟩
    · exact ⟨t, (hlast hx).2 rfl⟩
  · intro x hx y hy m n hm hn
    rcases List.mem_append.1 hx with hx | hx <;> rcases List.mem_append.1 hy with hy | hy
    · -- Both were listed before and keep their order.
      rw [hearlier hx] at hm
      rw [hearlier hy] at hn
      rw [List.idxOf_append_of_mem hx, List.idxOf_append_of_mem hy,
        idxOf_lt_iff_of_sublist hkept hl hx hy, Function.update_of_ne (Nat.ne_of_lt (hm.lt hend))]
      exact h.before_iff x (hkept.subset hx) y (hkept.subset hy) m n hm hn
    · -- What is placed now stands behind what was kept.
      rw [hearlier hx] at hm
      obtain rfl := (hlast hy).1 hn
      refine iff_of_true ?_ (Or.inl (hm.lt hend))
      rw [List.idxOf_append_of_mem hx, List.idxOf_append_of_notMem fun hmem => hold y hmem hy]
      exact Nat.lt_add_right _ (List.idxOf_lt_length_of_mem hx)
    · obtain rfl := (hlast hx).1 hm
      rw [hearlier hy] at hn
      have hlt := hn.lt hend
      have hpos := List.idxOf_lt_length_of_mem hy
      rw [List.idxOf_append_of_mem hy, List.idxOf_append_of_notMem fun hmem => hold x hmem hx]
      omega
    · -- Both are placed now, one behind the other.
      obtain rfl := (hlast hx).1 hm
      obtain rfl := (hlast hy).1 hn
      rw [List.idxOf_append_of_notMem fun hmem => hold x hmem hx,
        List.idxOf_append_of_notMem fun hmem => hold y hmem hy, Function.update_self]
      omega

end Lists

/-- Whether an operation may change the members or the order of a list of items. -/
def Operation.isListing : Operation → Bool
  | .addTable _ | .removeTable _ | .newConstants _ | .addItem .. | .removeItem _ | .moveItem ..
  | .moveSortedItemToEnd _ | .setSelected .. | .setSortOrder .. => true
  | _ => false

namespace Query

variable {q : Query} {op : Operation} {i : ItemId} {c : ContainerId} {p : Item → Bool}

/-! ## Which items a step places -/

/-- The items with a property that an operation brings into the statement, because their table or
they themselves are added. -/
def enters (q : Query) (p : Item → Bool) : Operation → List ItemId
  | .addTable c =>
    if q.containers.contains c && !q.isAttached c then (q.itemsOf c).filter (q.itemHas p) else []
  | .addItem c spec uuid =>
    if q.isAttached c && p { spec with container := c, uuid } then [q.nextId] else []
  | _ => []

/-- The items that an operation places in the sort list: those that it brings into the statement
sorted, one that it gives another direction, and one that it moves to the end. -/
def sorts (q : Query) : Operation → List ItemId
  | .setSortOrder i v =>
    if q.itemHas (fun item => q.isAttached item.container && item.sortOrder ≠ v) i &&
      v ≠ .unsorted then [i] else []
  | .moveSortedItemToEnd i => if q.sortList.contains i then [i] else []
  | op => q.enters Item.isSorted op

/-- The items that an operation places in the selection: those that it brings into the statement
selected, and one that it selects. -/
def selects (q : Query) : Operation → List ItemId
  | .setSelected i v =>
    if q.itemHas (fun item => q.isAttached item.container && item.selected ≠ v) i && v
    then [i] else []
  | op => q.enters (·.selected) op

/-! ## What a step leaves -/

theorem after_addTable (h : q.WellFormed) (c : ContainerId) :
    q.after (.addTable c) =
      if q.containers.contains c && !q.isAttached c then
        { q with
          tables := q.tables ++ [c]
          selected := q.selected ++ (q.itemsOf c).filter (q.itemHas (·.selected))
          sortList := q.sortList ++ (q.itemsOf c).filter (q.itemHas Item.isSorted) }
      else q := by
  cases hp : q.addTable c with
  | error err =>
    rw [after_error (by rw [perform, hp]; rfl), if_neg]
    intro hc
    obtain ⟨hknown, hdetached⟩ := Bool.and_eq_true_iff.1 hc
    obtain ⟨e, he⟩ := addTable_of_detached hknown (by simpa using hdetached)
    rw [hp] at he
    cases he
  | ok e =>
    obtain ⟨hknown, hconst, htable, hquery⟩ := addTable_ok hp
    have hdetached : ¬ q.isAttached c := by
      rw [isAttached_iff]
      exact fun hor => hor.elim hconst htable
    rw [after_ok (by rw [perform, hp]; rfl), hquery, h.addTable_query hdetached, if_pos]
    rw [hknown, Bool.true_and]
    simpa using hdetached

theorem after_addItem (c : ContainerId) (spec : ItemSpec) (uuid : Uuid) :
    q.after (.addItem c spec uuid) =
      if q.containers.contains c then (q.insertItem c spec uuid).2.query else q := by
  cases hknown : q.containers.contains c with
  | true => exact after_ok (by rw [perform, addItem, hknown]; rfl)
  | false => exact after_error (by rw [perform, addItem, hknown]; rfl)

theorem after_moveSortedItemToEnd (i : ItemId) :
    q.after (.moveSortedItemToEnd i) =
      if q.sortList.contains i then { q with sortList := q.sortList.erase i ++ [i] } else q := by
  have hperform : q.perform (.moveSortedItemToEnd i) =
      .ofEdit (if !q.sortList.contains i then .error (.itemNotSorted i)
        else .ok (.start { q with sortList := q.sortList.erase i ++ [i] })) := rfl
  cases hi : q.sortList.contains i with
  | true => exact after_ok (by rw [hperform, hi]; rfl)
  | false => exact after_error (by rw [hperform, hi]; rfl)

/-- A change of a property of an item. -/
theorem after_changeItem {p : ItemProperty} {f : Item → Item}
    (hop : q.perform op = .ofEdit (q.changeItem i p f)) :
    q.after op = (q.item? i).elim q fun item =>
      if p.read item = p.read (f item) then q
      else if q.isAttached item.container then p.follow (q.updateItem i f) i
      else q.updateItem i f := by
  unfold after
  rw [hop, changeItem]
  cases q.item? i with
  | none => rfl
  | some item =>
    simp only [Option.elim_some]
    by_cases hread : p.read item = p.read (f item)
    · simp only [if_pos hread]
      rfl
    · simp only [if_neg hread]
      rfl

/-- Other operations leave both lists as they are. -/
theorem lists_of_not_listing (hop : op.isListing = false) :
    (q.after op).selected = q.selected ∧ (q.after op).sortList = q.sortList := by
  cases hp : q.perform op with
  | error err => rw [after_error hp]; exact ⟨rfl, rfl⟩
  | ok x =>
    obtain ⟨reply, e⟩ := x
    rw [after_ok hp]
    cases op with
    | addTable | removeTable | newConstants | addItem | removeItem | moveItem
    | moveSortedItemToEnd | setSelected | setSortOrder => cases hop
    | newTable | setName | setZoomLevel | setStreamingRowLimit | setStreaming | setDialect
    | setRowLimit =>
      cases hp
      exact ⟨rfl, rfl⟩
    | setContainerAlias c a =>
      rw [(setContainerAlias_ok (Outcome.ofEdit_ok hp).2).2]
      exact ⟨rfl, rfl⟩
    | setGroupRole | setItemAlias | setFilter | setHaving | setItemName =>
      obtain ⟨item, -, ⟨-, heq⟩ | ⟨-, heq⟩⟩ := changeItem_ok (Outcome.ofEdit_ok hp).2
      · rw [heq]
        exact ⟨rfl, rfl⟩
      · rw [heq]
        split <;> exact ⟨rfl, rfl⟩
    | setGrouping v =>
      cases hp
      rcases q.setGrouping_edit v with heq | ⟨-, heq⟩
      · rw [heq]
        exact ⟨rfl, rfl⟩
      · rw [heq, Edit.query_announce, Edit.query_update]
        obtain ⟨items, hcounted⟩ := q.countColumns_query
        split
        · rw [hcounted]
          exact ⟨rfl, rfl⟩
        · exact ⟨rfl, rfl⟩
    | addJoin join =>
      obtain ⟨x, hx, -, rfl⟩ := Outcome.map_ok hp
      obtain ⟨l, r, _, _, -, -, -, -, -, -, heq⟩ := addJoin_ok hx
      rw [heq]
      exact ⟨rfl, rfl⟩
    | removeJoin j =>
      obtain ⟨x, hx, -, rfl⟩ := Outcome.map_ok hp
      have heq : x.2.query = q.dropJoins [j] := (removeJoin_ok hx).2
      rw [heq, dropJoins_eq]
      exact ⟨rfl, rfl⟩
    | setOuter j side v =>
      obtain ⟨_, _, changes, -, -, -, heq⟩ := setOuter_ok (Outcome.ofEdit_ok hp).2
      rw [heq, foldl_setFlag_frame]
      exact ⟨rfl, rfl⟩
    | setComparator j v =>
      obtain ⟨_, -, ⟨-, heq⟩ | ⟨-, heq⟩⟩ := setComparator_ok (Outcome.ofEdit_ok hp).2
      · rw [heq]
        exact ⟨rfl, rfl⟩
      · rw [heq]
        exact ⟨rfl, rfl⟩
    | setGlobalFilter v =>
      cases hp
      rw [setGlobalFilter_query]
      exact ⟨rfl, rfl⟩
    | defineHandWritten text =>
      cases hp
      rw [defineHandWritten_query]
      exact ⟨rfl, rfl⟩
    | removeHandWritten =>
      cases hp
      rw [removeHandWritten_query]
      exact ⟨rfl, rfl⟩
    | setCanExecute v | startCompound | endCompound =>
      cases hp
      exact (Edit.query_setCanExecute _ _).symm ▸ ⟨rfl, rfl⟩

/-! ## What a step places -/

theorem itemHas_updateItem {f : Item → Item} {item : Item} (hitem : q.item? i = some item) :
    (q.updateItem i f).itemHas p i = p (f item) :=
  itemHas_of_item? (by rw [WellFormed.item?_updateItem, if_pos rfl, hitem]; rfl)

/-- An item that is added to an attached container comes to the end of the lists that it belongs
to. -/
theorem WellFormed.lists_insertItem (h : q.WellFormed) (hq : q.count < UInt32.size)
    (c : ContainerId) (spec : ItemSpec) (uuid : Uuid) :
    (q.insertItem c spec uuid).2.query.selected =
        q.selected ++ q.enters (·.selected) (.addItem c spec uuid) ∧
      (q.insertItem c spec uuid).2.query.sortList =
        q.sortList ++ q.enters Item.isSorted (.addItem c spec uuid) := by
  have hitem : (q.putItem c spec uuid).item? q.nextId = some { spec with container := c, uuid } := by
    rw [item?_putItem, if_pos rfl]
  have hfilter : ∀ p, [q.nextId].filter ((q.putItem c spec uuid).itemHas p) =
      if p { spec with container := c, uuid } then [q.nextId] else [] := by
    intro p
    rw [List.filter_singleton, itemHas_of_item? hitem]
    cases p { spec with container := c, uuid } <;> rfl
  rw [insertItem_query]
  cases hattached : q.isAttached c with
  | true =>
    rw [if_pos rfl, attachItem_eq (q := q.putItem c spec uuid)
      (h.nextId_not_mem hq h.listed.selected) (h.nextId_not_mem hq h.listed.sortList), hfilter,
      hfilter]
    simp only [enters, hattached, Bool.true_and]
    exact ⟨rfl, rfl⟩
  | false =>
    simp only [enters, hattached, Bool.false_and, Bool.false_eq_true, if_false, List.append_nil]
    exact ⟨rfl, rfl⟩

/-- What an addition brings into the statement comes to the end of both lists. -/
theorem WellFormed.lists_of_addition (h : q.WellFormed) (hq : q.count < UInt32.size)
    (hop : (∃ c, op = .addTable c) ∨ ∃ c spec uuid, op = .addItem c spec uuid) :
    (q.after op).selected = q.selected ++ q.enters (·.selected) op ∧
      (q.after op).sortList = q.sortList ++ q.enters Item.isSorted op := by
  rcases hop with ⟨c, rfl⟩ | ⟨c, spec, uuid, rfl⟩
  · rw [after_addTable h]
    simp only [enters]
    split
    · exact ⟨rfl, rfl⟩
    · exact ⟨(List.append_nil _).symm, (List.append_nil _).symm⟩
  · rw [after_addItem]
    split
    · exact h.lists_insertItem hq c spec uuid
    · -- A container that is not known is not attached.
      rename_i hknown
      have hdetached : q.isAttached c = false := by
        rw [← Bool.not_eq_true, isAttached_iff]
        rintro (rfl | htable)
        · exact hknown h.owned.knows_constants
        · exact hknown (h.owned.knows_tables c htable)
      simp only [enters, hdetached, Bool.false_and, Bool.false_eq_true, if_false, List.append_nil,
        and_self]

/-- A removal takes items out of both lists. -/
theorem Reachable.stacks_of_removal (h : q.Reachable) (hop : (q.removal? op).isSome) :
    Stacks q.selected [] (q.after op).selected ∧ Stacks q.sortList [] (q.after op).sortList := by
  obtain ⟨r, hr⟩ := Option.isSome_iff_exists.1 hop
  cases hp : q.perform op with
  | error err =>
    rw [after_error hp]
    exact ⟨.refl _, .refl _⟩
  | ok x =>
    have hloses := h.removal_exact hr hp
    rw [after_ok hp, hloses.selected, hloses.sortList]
    exact ⟨.filter _ _, .filter _ _⟩

theorem sortList_moveItem (i : ItemId) (index : Nat) :
    (q.after (.moveItem i index)).sortList = q.sortList := by
  cases hp : q.perform (.moveItem i index) with
  | error err => rw [after_error hp]
  | ok x => rw [after_ok hp, (moveItem_ok (Outcome.ofEdit_ok hp).2).2.2]

/-- To set the flag of selected items concerns the selection only. -/
theorem sortList_setSelected (i : ItemId) (v : Bool) :
    (q.after (.setSelected i v)).sortList = q.sortList := by
  have hsync : ∀ r : Query, (r.syncSelection i).sortList = r.sortList := by
    intro r
    unfold syncSelection
    split_ifs <;> rfl
  rw [after_changeItem rfl]
  cases q.item? i with
  | none => rfl
  | some item =>
    simp only [Option.elim_some]
    split
    · rfl
    · split
      · exact hsync _
      · rfl

/-- To set a direction concerns the sort list only. -/
theorem selected_setSortOrder (i : ItemId) (v : SortOrder) :
    (q.after (.setSortOrder i v)).selected = q.selected := by
  rw [after_changeItem rfl]
  cases q.item? i with
  | none => rfl
  | some item =>
    simp only [Option.elim_some]
    split_ifs <;> rfl

/-- An item whose direction changes leaves its place for the end of the sort list, if it sorts at
all. -/
theorem sortList_setSortOrder (i : ItemId) (v : SortOrder) :
    (q.after (.setSortOrder i v)).sortList =
      if q.itemHas (fun item => q.isAttached item.container && item.sortOrder ≠ v) i then
        q.sortList.filter (· ≠ i) ++ if v ≠ .unsorted then [i] else []
      else q.sortList := by
  rw [after_changeItem rfl]
  cases hitem : q.item? i with
  | none =>
    rw [itemHas, hitem]
    rfl
  | some item =>
    rw [itemHas_of_item? hitem, Option.elim_some]
    have hread : ItemProperty.sortOrder.read item =
        ItemProperty.sortOrder.read { item with sortOrder := v } ↔ item.sortOrder = v :=
      ⟨PropertyValue.sortOrder.inj, congrArg PropertyValue.sortOrder⟩
    have hsync : (ItemProperty.sortOrder.follow
        (q.updateItem i fun x => { x with sortOrder := v }) i).sortList =
          q.sortList.filter (· ≠ i) ++ if v ≠ .unsorted then [i] else [] := by
      change (syncSortList _ i).sortList = _
      rw [syncSortList_eq, List.filter_singleton, itemHas_updateItem hitem]
      cases v <;> rfl
    simp only [hread]
    by_cases hsame : item.sortOrder = v
    · rw [if_pos hsame, if_neg (by simp [hsame])]
    · rw [if_neg hsame]
      cases q.isAttached item.container with
      | true => rw [if_pos rfl, if_pos (by simp [hsame]), hsync]
      | false => rfl

/-- An item whose flag changes is selected behind the others, or leaves the selection. -/
theorem WellFormed.selected_setSelected (h : q.WellFormed) (i : ItemId) (v : Bool) :
    (q.after (.setSelected i v)).selected =
      if q.itemHas (fun item => q.isAttached item.container && item.selected ≠ v) i then
        if v then q.selected ++ [i] else q.selected.filter (· ≠ i)
      else q.selected := by
  rw [after_changeItem rfl]
  cases hitem : q.item? i with
  | none =>
    rw [itemHas, hitem]
    rfl
  | some item =>
    rw [itemHas_of_item? hitem, Option.elim_some]
    have hread : ItemProperty.selected.read item =
        ItemProperty.selected.read { item with selected := v } ↔ item.selected = v :=
      ⟨PropertyValue.flag.inj, congrArg PropertyValue.flag⟩
    have hsync : item.selected ≠ v → (ItemProperty.selected.follow
        (q.updateItem i fun x => { x with selected := v }) i).selected =
          if v then q.selected ++ [i] else q.selected.filter (· ≠ i) := by
      intro hne
      change (syncSelection _ i).selected = _
      have hflag : (q.updateItem i fun x => { x with selected := v }).itemHas (·.selected) i = v :=
        itemHas_updateItem hitem
      cases v with
      | true =>
        -- The item was not selected, so it was not listed.
        have hnot : i ∉ q.selected := by
          rw [h.listed.selected.mem, shows_iff hitem]
          exact fun hs => hne hs.1
        rw [syncSelection_of_not_mem (q := q.updateItem i _) hnot, List.filter_singleton, hflag]
        rfl
      | false =>
        rw [syncSelection_of_unselected hflag]
        rfl
    simp only [hread]
    by_cases hsame : item.selected = v
    · rw [if_pos hsame, if_neg (by simp [hsame])]
    · rw [if_neg hsame]
      cases q.isAttached item.container with
      | true => rw [if_pos rfl, if_pos (by simp [hsame]), hsync hsame]
      | false => rfl

/-- What a step does to the sort list. -/
theorem Reachable.sortList_after (h : q.Reachable) (op : Operation) :
    Stacks q.sortList (q.sorts op) (q.after op).sortList := by
  have hw := h.wellFormed
  cases op with
  | addTable | addItem =>
    rw [(hw.lists_of_addition h.count_lt (by simp)).2]
    exact .append _ _
  | removeTable | newConstants | removeItem => exact (h.stacks_of_removal rfl).2
  | moveItem i index =>
    rw [sortList_moveItem]
    exact .refl _
  | moveSortedItemToEnd i =>
    rw [after_moveSortedItemToEnd]
    simp only [sorts]
    split
    · exact ⟨_, List.erase_sublist, rfl⟩
    · exact .refl _
  | setSelected i v =>
    rw [sortList_setSelected]
    exact .refl _
  | setSortOrder i v =>
    rw [sortList_setSortOrder, sorts]
    cases q.itemHas _ i with
    | true => exact ⟨_, List.filter_sublist, by cases v <;> rfl⟩
    | false => exact .refl _
  | _ =>
    rw [(lists_of_not_listing rfl).2]
    exact .refl _

/-- What a step does to the selection, unless it moves an item within it. -/
theorem Reachable.selected_after (h : q.Reachable) (hop : ∀ i index, op ≠ .moveItem i index) :
    Stacks q.selected (q.selects op) (q.after op).selected := by
  have hw := h.wellFormed
  cases op with
  | addTable | addItem =>
    rw [(hw.lists_of_addition h.count_lt (by simp)).1]
    exact .append _ _
  | removeTable | newConstants | removeItem => exact (h.stacks_of_removal rfl).1
  | moveItem i index => exact absurd rfl (hop i index)
  | moveSortedItemToEnd i =>
    rw [after_moveSortedItemToEnd]
    split <;> exact .refl _
  | setSelected i v =>
    rw [hw.selected_setSelected, selects]
    cases q.itemHas _ i with
    | true =>
      cases v with
      | true => exact .append _ _
      | false => exact .filter _ _
    | false => exact .refl _
  | setSortOrder i v =>
    rw [selected_setSortOrder]
    exact .refl _
  | _ =>
    rw [(lists_of_not_listing rfl).1]
    exact .refl _

/-! ## Runs -/

/-- The query before a step of a run. -/
def before (q : Query) (ops : List Operation) (m : Nat) : Query := (ops.take m).foldl after q

/-- The items that a step of a run places. -/
def placedAt (place : Query → Operation → List ItemId) (q : Query) (ops : List Operation)
    (m : Nat) : List ItemId :=
  (ops[m]?).elim [] (place (q.before ops m))

section Runs

variable {place : Query → Operation → List ItemId} {list : Query → List ItemId}
variable {ops : List Operation}

theorem placedAt_of_length_le {m : Nat} (h : ops.length ≤ m) : placedAt place q ops m = [] := by
  rw [placedAt, List.getElem?_eq_none h]
  rfl

theorem placedAt_concat (ops : List Operation) (op : Operation) :
    placedAt place q (ops ++ [op]) =
      Function.update (placedAt place q ops) ops.length (place (ops.foldl after q) op) := by
  funext m
  rcases Nat.lt_trichotomy m ops.length with hlt | rfl | hgt
  · rw [Function.update_of_ne (Nat.ne_of_lt hlt), placedAt, placedAt, before, before,
      List.getElem?_append_left hlt, List.take_append_of_le_length (Nat.le_of_lt hlt)]
  · rw [Function.update_self, placedAt, before, List.getElem?_concat_length,
      List.take_left, Option.elim_some]
  · rw [Function.update_of_ne (Nat.ne_of_gt hgt), placedAt_of_length_le (Nat.le_of_lt hgt),
      placedAt_of_length_le (by rwa [List.length_append])]

/-- If every step places items at the end of a list and otherwise only takes some out, a run that
starts with an empty list leaves it in the order of recency. -/
theorem Reachable.recent (h : q.Reachable) (hempty : list q = [])
    (hnodup : ∀ r : Query, r.Reachable → (list r).Nodup)
    (hstep : ∀ r op, r.Reachable → op ∈ ops → Stacks (list r) (place r op) (list (r.after op)))
    (hcount : (ops.foldl Query.after q).count < UInt32.size) :
    Recent (placedAt place q ops) (list (ops.foldl Query.after q)) := by
  induction ops using List.reverseRecOn with
  | nil => constructor <;> simp [hempty]
  | append_singleton ops op ih =>
    rw [List.foldl_append, List.foldl_cons, List.foldl_nil] at hcount ⊢
    -- Before the last step the counter fits as well, so that the query there is reachable.
    have hcount' := Nat.lt_of_le_of_lt (count_le_after _ op) hcount
    have hr := h.foldl_after ops hcount'
    have hlast := ih (fun r op' hr hmem => hstep r op' hr (List.mem_append_left _ hmem)) hcount'
    rw [placedAt_concat]
    exact hlast.stack (fun m hm => placedAt_of_length_le hm) (hnodup _ hr)
      (hstep _ op hr (by simp)) (hnodup _ (hr.after op hcount))

end Runs

/-- A list of items after a run: every member has been placed, the one that was placed earlier for
the last time stands first, and items that a table brought in together stand in its order. -/
structure OrderedByRecency (place : Query → Operation → List ItemId) (q : Query)
    (ops : List Operation) (l : List ItemId) : Prop where
  exists_last : ∀ x ∈ l, ∃ m, LastPlaced (placedAt place q ops) x m
  before_iff : ∀ x ∈ l, ∀ y ∈ l, ∀ m n, LastPlaced (placedAt place q ops) x m →
    LastPlaced (placedAt place q ops) y n →
    (l.idxOf x < l.idxOf y ↔
      m < n ∨ m = n ∧ ∃ c, ops[m]? = some (.addTable c) ∧
        ((q.before ops m).itemsOf c).idxOf x < ((q.before ops m).itemsOf c).idxOf y)

/-- Several items are placed at once by the addition of a table only, and then in its order. -/
def PlacesTogether (place : Query → Operation → List ItemId) : Prop :=
  ∀ (q : Query) (op : Operation), (∃ c p, op = .addTable c ∧ place q op = (q.itemsOf c).filter p) ∨
    (∀ c, op ≠ .addTable c) ∧ ∀ x ∈ place q op, ∀ y ∈ place q op, x = y

theorem enters_together (p : Item → Bool) : PlacesTogether (enters · p) := by
  intro q op
  cases op with
  | addTable c =>
    cases hc : q.containers.contains c && !q.isAttached c with
    | true => exact Or.inl ⟨c, _, rfl, if_pos hc⟩
    | false =>
      refine Or.inl ⟨c, fun _ => false, rfl, ?_⟩
      rw [List.filter_false]
      exact if_neg (by rw [hc]; exact Bool.false_ne_true)
  | addItem c spec uuid =>
    refine Or.inr ⟨nofun, ?_⟩
    simp only [enters]
    split <;> simp
  | _ => exact Or.inr ⟨nofun, nofun⟩

theorem sorts_together : PlacesTogether sorts := by
  intro q op
  cases op with
  | setSortOrder i v =>
    refine Or.inr ⟨nofun, ?_⟩
    simp only [sorts]
    split <;> simp
  | moveSortedItemToEnd i =>
    refine Or.inr ⟨nofun, ?_⟩
    simp only [sorts]
    split <;> simp
  | _ => exact enters_together Item.isSorted q _

theorem selects_together : PlacesTogether selects := by
  intro q op
  cases op with
  | setSelected i v =>
    refine Or.inr ⟨nofun, ?_⟩
    simp only [selects]
    split <;> simp
  | _ => exact enters_together (·.selected) q _

/-- Whether a query has just been made. -/
inductive IsNew : Query → Prop where
  | create (uuid : Uuid) (mint : Minting) : IsNew (create uuid mint)
  | createWith (settings : QuerySettings) (uuid : Uuid) (mint : Minting) :
    IsNew (createWith settings uuid mint)

namespace IsNew

variable {ops : List Operation}

theorem reachable (h : q.IsNew) : q.Reachable := by
  cases h with
  | create uuid mint => exact .create uuid mint
  | createWith settings uuid mint => exact .createWith settings uuid mint

theorem lists_eq_nil (h : q.IsNew) : q.selected = [] ∧ q.sortList = [] := by
  have hcreate : ∀ uuid mint,
      (Query.create uuid mint).selected = [] ∧ (Query.create uuid mint).sortList = [] := by
    intro uuid mint
    obtain ⟨-, items, containers, heq⟩ :=
      QueryDefinition.addConstants_spec mint (.bare uuid mint) .nil builtinConstants
        (show 1 + builtinConstants.length ≤ UInt32.size by decide)
    rw [Query.create, heq]
    exact ⟨rfl, rfl⟩
  cases h with
  | create uuid mint => exact hcreate uuid mint
  | createWith settings uuid mint =>
    simp only [Query.createWith]
    exact hcreate uuid mint

end IsNew

/-- Items that one step places stand in the order of the table that it adds. -/
theorem Reachable.orderedByRecency {place : Query → Operation → List ItemId} {ops : List Operation}
    {l : List ItemId} (h : q.Reachable) (hplace : PlacesTogether place)
    (hcount : (ops.foldl Query.after q).count < UInt32.size)
    (hrecent : Recent (placedAt place q ops) l) : OrderedByRecency place q ops l := by
  refine ⟨hrecent.exists_last, fun x hx y hy m n hm hn => ?_⟩
  rw [hrecent.before_iff x hx y hy m n hm hn]
  refine or_congr_right (and_congr_right ?_)
  rintro rfl
  -- The same step placed both, which only the addition of their table does.
  have hx := hm.mem
  have hy := hn.mem
  unfold placedAt at hx hy ⊢
  cases hop : ops[m]? with
  | none =>
    rw [hop] at hx
    cases hx
  | some op =>
    rw [hop, Option.elim_some] at hx hy
    rw [Option.elim_some]
    rcases hplace (q.before ops m) op with ⟨c, p, rfl, hitems⟩ | ⟨hother, hone⟩
    · have hcount' : (q.before ops m).count < UInt32.size := by
        refine Nat.lt_of_le_of_lt ?_ hcount
        have hrun : ops.foldl Query.after q = (ops.drop m).foldl Query.after (q.before ops m) := by
          rw [before, ← List.foldl_append, List.take_append_drop]
        rw [hrun]
        exact count_le_foldl_after _ _
      have hnodup := (h.foldl_after _ hcount').wellFormed.owned.nodup_itemsOf c
      rw [hitems] at hx hy ⊢
      have hbefore : (ops.take m).foldl Query.after q = q.before ops m := rfl
      rw [hbefore] at hnodup
      rw [idxOf_lt_iff_of_sublist List.filter_sublist hnodup hx hy]
      simp
    · rw [hone x hx y hy]
      refine iff_of_false (Nat.lt_irrefl _) ?_
      rintro ⟨c, hc, -⟩
      exact hother c (Option.some.inj hc)

/-- After every run of operations from a new query the sort list is in the order in which its
items were placed for the last time; and so is the selection, if the run does not move items
within it. -/
theorem IsNew.lists_orderedByRecency (h : q.IsNew) (ops : List Operation)
    (hcount : (ops.foldl after q).count < UInt32.size) :
    OrderedByRecency sorts q ops (ops.foldl after q).sortList ∧
      ((∀ i index, .moveItem i index ∉ ops) →
        OrderedByRecency selects q ops (ops.foldl after q).selected) := by
  have hr := h.reachable
  constructor
  · refine hr.orderedByRecency sorts_together hcount ?_
    exact hr.recent h.lists_eq_nil.2 (fun r hr => hr.wellFormed.listed.sortList.nodup)
      (fun r op hr _ => hr.sortList_after op) hcount
  · intro hmove
    refine hr.orderedByRecency selects_together hcount ?_
    refine hr.recent h.lists_eq_nil.1 (fun r hr => hr.wellFormed.listed.selected.nodup)
      (fun r op hr hmem => hr.selected_after ?_) hcount
    rintro i index rfl
    exact hmove i index hmem

/-- Two tables with sorted and selected columns. One column changes its direction, the table of the
other two is taken out and put in again, and then two columns go to the end, one of each list. -/
def replacedColumns : List Operation :=
  let uuid : Uuid := .ofNat 0
  [ .newTable { name := "a" } uuid, .newTable { name := "b" } uuid,
    .addItem (.ofCount 4) { name := "x", selected := true, sortOrder := .ascending } uuid,
    .addItem (.ofCount 5) { name := "y", selected := true, sortOrder := .ascending } uuid,
    .addItem (.ofCount 5) { name := "z", selected := true, sortOrder := .descending } uuid,
    .addTable (.ofCount 4), .addTable (.ofCount 5), .setSortOrder (.ofCount 6) .descending,
    .removeTable (.ofCount 5), .addTable (.ofCount 5), .setSelected (.ofCount 6) false,
    .setSelected (.ofCount 6) true, .moveSortedItemToEnd (.ofCount 7) ]

/-- The column that changed its direction was placed first of all that are still listed. -/
theorem replacedColumns_ordered :
    ∃ q : Query, q.IsNew ∧ (replacedColumns.foldl after q).count < UInt32.size ∧
      (∀ i index, .moveItem i index ∉ replacedColumns) ∧
      OrderedByRecency sorts q replacedColumns (replacedColumns.foldl after q).sortList ∧
      OrderedByRecency selects q replacedColumns (replacedColumns.foldl after q).selected ∧
      (replacedColumns.foldl after q).sortList = [.ofCount 6, .ofCount 8, .ofCount 7] ∧
      (replacedColumns.foldl after q).selected = [.ofCount 7, .ofCount 8, .ofCount 6] := by
  have hnew : (create (.ofNat 0) fun _ => .ofNat 0).IsNew := .create _ _
  have hcount : (replacedColumns.foldl after (create (.ofNat 0) fun _ => .ofNat 0)).count <
      UInt32.size := by decide +kernel
  have hmove : ∀ i index, .moveItem i index ∉ replacedColumns := by simp [replacedColumns]
  obtain ⟨hsorted, hselected⟩ := hnew.lists_orderedByRecency replacedColumns hcount
  exact ⟨_, hnew, hcount, hmove, hsorted, hselected hmove, by decide +kernel, by decide +kernel⟩

end Query

end LiveSelect
