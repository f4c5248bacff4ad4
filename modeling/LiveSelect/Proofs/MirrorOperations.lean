import LiveSelect.Proofs.Mirror
import LiveSelect.Proofs.Outerness
import LiveSelect.Proofs.Unseen

/-! # Mirrors keep up with operations

Whatever an operation does, the notices that it sends fit the mirror of the query as it was
and turn it into the mirror of the query as it is then. So an observer that starts with the
mirror of a query has, after any run of operations, the mirror of what the query has become. -/

namespace LiveSelect

open Edit (Mirrored)

namespace Query

variable {q q' : Query} {e : Edit} {i : ItemId} {j : JoinId} {c : ContainerId} {item : Item}

/-! ## Items that are part of a query -/

theorem isPart_of_item? (h : q.item? i = some item) :
    q.isPart i = q.isAttached item.container := by
  rw [isPart, home?_of_item? h, Option.any_some]

theorem isPart_of_absent (h : q.item? i = none) : q.isPart i = false := by
  rw [isPart, home?, h]
  rfl

theorem isPart_congr (hhome : ∀ i, q'.home? i = q.home? i) (htables : q'.tables = q.tables)
    (hconstants : q'.constants = q.constants) : q'.isPart = q.isPart := by
  funext i
  have hattached : q'.isAttached = q.isAttached := by
    funext c
    rw [isAttached, htables, hconstants, isAttached]
  rw [isPart, hhome, hattached, isPart]

theorem Owned.mem_itemsOf_iff (h : q.Owned) (hitem : q.item? i = some item) :
    i ∈ q.itemsOf c ↔ item.container = c := by
  rw [h.mem_itemsOf, home?_of_item? hitem, Option.some.injEq]

theorem Owned.isPart_of_mem (h : q.Owned) (hi : i ∈ q.itemsOf c) :
    q.isPart i = q.isAttached c := by
  obtain ⟨item, hitem, rfl⟩ := h.item?_of_mem hi
  exact isPart_of_item? hitem

/-- What one of the lists holds is part of the query. -/
theorem Lists.isPart {p : Item → Bool} {l : List ItemId} (h : q.Lists p l) (hi : i ∈ l) :
    q.isPart i = true := by
  obtain ⟨item, hitem, -, hattached⟩ := (h.mem i).1 hi
  rw [isPart_of_item? hitem, hattached]

end Query

/-! ## Quiet changes and single notices -/

section Single

variable {q q' : Query} {event : Event} {e : Edit}

/-- The notices of an edit fit the mirror of a query and lead to that of the edited one. -/
def Edit.KeepsMirror (q : Query) (e : Edit) : Prop :=
  (Mirror.of q).Follows e.notices (.of e.query)

namespace Edit.KeepsMirror

theorem quiet (h : Mirror.of q' = Mirror.of q) : (start q').KeepsMirror q := by
  unfold KeepsMirror
  rw [notices_start, query_start, h]
  exact .refl _

theorem announce (hfits : (Mirror.of q).Fits ⟨event, q'⟩)
    (hears : (Mirror.of q).hear ⟨event, q'⟩ = .of q') :
    ((start q').announce event).KeepsMirror q := by
  unfold KeepsMirror
  rw [query_announce, query_start, ← hears]
  exact .single hfits

/-- At the end the right items and tables have to be shown. -/
theorem of_mirrored {shown : ItemId → Bool} {ts : List ContainerId}
    (h : Mirrored (.of q) shown ts e) (hts : e.query.tables = ts)
    (hshown : ∀ i item, e.query.item? i = some item →
      shown i = e.query.isAttached item.container) : e.KeepsMirror q := by
  unfold KeepsMirror
  rw [← Mirror.showing_eq_of hshown, hts]
  exact h

/-- At the end the same items and tables as at the start may be shown. -/
theorem of_same (h : Mirrored (.of q) q.isPart q.tables e) (hpart : e.query.isPart = q.isPart)
    (htables : e.query.tables = q.tables) : e.KeepsMirror q := by
  change (Mirror.of q).Follows e.notices (.showing e.query e.query.isPart e.query.tables)
  rw [hpart, htables]
  exact h

/-- A setting of the query changes. -/
theorem setting {change : Change} (h : e = .start q ∨ e = (Edit.start q').announce
      (.queryChanged change))
    (hold : (Mirror.of q).value? change.property = some change.old)
    (hnew : (Mirror.of q).withValue change.property change.new = .of q') : e.KeepsMirror q := by
  rcases h with rfl | rfl
  · exact quiet rfl
  · exact announce hold hnew

end Edit.KeepsMirror

end Single

namespace Query

variable {q q' : Query} {e : Edit} {i : ItemId} {j : JoinId} {c : ContainerId} {item : Item}

/-! ## Tables -/

namespace WellFormed

theorem mirror_addTable (h : q.WellFormed) (he : q.addTable c = .ok e) : e.KeepsMirror q := by
  obtain ⟨-, hconst, htable, hquery⟩ := addTable_ok he
  have hc : ¬ q.isAttached c := by
    rw [isAttached_iff]
    exact fun hor => hor.elim hconst htable
  rw [h.addTable_query hc] at hquery
  -- The items come first, the table itself comes last.
  have hitems := ((Mirrored.start q q.isPart q.tables).update
    (f := ({ · with tables := q.tables ++ [c] })) rfl).each_attachItem (h.owned.nodup_itemsOf c)
    (fun i hi => (h.owned.item?_of_mem hi).imp fun _ => And.left)
    fun i hi => (h.owned.isPart_of_mem hi).trans (Bool.eq_false_iff.2 hc)
  have hall : Mirrored (.of q) (fun k => q.isPart k || (q.itemsOf c).contains k)
      (q.tables ++ [c]) e := by
    rw [addTable_edit he]
    exact hitems.step (f := id) htable rfl
  refine .of_mirrored hall (by rw [hquery]) fun k item hitem => ?_
  have hitem' : q.item? k = some item := by
    rw [hquery] at hitem
    exact hitem
  rw [isPart_of_item? hitem', hquery, Bool.eq_iff_iff, Bool.or_eq_true, List.contains_iff_mem,
    h.owned.mem_itemsOf_iff hitem', isAttached_iff, isAttached_iff, List.mem_append,
    List.mem_singleton, or_assoc]

theorem mirror_removeTable (h : q.WellFormed) (he : q.removeTable c = .ok e) :
    e.KeepsMirror q := by
  obtain ⟨hconst, htable, hquery⟩ := removeTable_ok he
  rw [foldl_unlistItem, dropJoins_eq] at hquery
  have hjoins := ((Mirrored.start q q.isPart q.tables).update
    (f := ({ · with tables := q.tables.erase c })) rfl).each_dropJoin (q.joinsOf c)
  have hitems := hjoins.each_detachItem (h.owned.nodup_itemsOf c)
    (fun i hi => by
      rw [Edit.item?_each_dropJoin]
      exact (h.owned.item?_of_mem hi).imp fun _ => And.left)
    fun i hi => (h.owned.isPart_of_mem hi).trans ((q.isAttached_iff c).2 (Or.inr htable))
  have hall : Mirrored (.of q) (fun k => q.isPart k && !(q.itemsOf c).contains k)
      (q.tables.erase c) e := by
    rw [removeTable_edit he]
    exact hitems.step (f := id) htable rfl
  refine .of_mirrored hall (by rw [hquery]) fun k item hitem => ?_
  have hitem' : q.item? k = some item := by
    rw [hquery] at hitem
    exact hitem
  rw [isPart_of_item? hitem', hquery, Bool.eq_iff_iff, Bool.and_eq_true, Bool.not_eq_true',
    ← Bool.not_eq_true, List.contains_iff_mem, h.owned.mem_itemsOf_iff hitem', isAttached_iff,
    isAttached_iff, h.owned.nodup_tables.mem_erase_iff]
  constructor
  · rintro ⟨heq | hmem, hne⟩
    · exact Or.inl heq
    · exact Or.inr ⟨hne, hmem⟩
  · rintro (heq | ⟨hne, hmem⟩)
    · exact ⟨Or.inl heq, heq ▸ hconst.symm⟩
    · exact ⟨Or.inr hmem, hne⟩

theorem mirror_newConstants (h : q.WellFormed) (hq : q.count < UInt32.size) (uuid : Uuid) :
    (q.newConstants uuid).2.KeepsMirror q := by
  have hjoins := ((Mirrored.start q q.isPart q.tables).each_dropJoin (q.joinsOf q.constants)).update
    (f := fun d => { d with containers := d.containers.erase q.constants }) rfl
  have hitems := hjoins.each_forgetItem (h.owned.nodup_itemsOf q.constants)
    (fun i hi => by
      change ∃ item, ((Edit.start q).each _ Edit.dropJoin).query.item? i = some item
      rw [Edit.item?_each_dropJoin]
      exact (h.owned.item?_of_mem hi).imp fun _ => And.left)
    fun i hi => (h.owned.isPart_of_mem hi).trans ((q.isAttached_iff _).2 (Or.inl rfl))
  have hall : Mirrored (.of q) q.isPart q.tables (q.newConstants uuid).2 := by
    rw [newConstants_edit]
    exact hitems.update rfl
  refine .of_mirrored hall ?_ fun k item hitem => ?_
  · rw [newConstants_query]
    exact q.tables_withoutConstants
  · -- What is left is neither among the old constants nor among the new ones.
    have hkept : k ∉ q.itemsOf q.constants ∧ q.item? k = some item := by
      rw [newConstants_query] at hitem
      change q.withoutConstants.item? k = some item at hitem
      rw [item?_withoutConstants] at hitem
      split at hitem
      · cases hitem
      · rename_i hnot
        exact ⟨hnot, hitem⟩
    have hold : item.container ≠ q.constants := fun heq =>
      hkept.1 ((h.owned.mem_itemsOf_iff hkept.2).2 heq)
    have hnew : item.container ≠ q.withoutConstants.nextId := by
      rw [nextId, count_withoutConstants, ← nextId]
      exact h.numbered.ne_nextId hq (e := .container) (h.owned.knows_of_item? hkept.2)
    rw [isPart_of_item? hkept.2, newConstants_query, Bool.eq_iff_iff, isAttached_iff,
      isAttached_iff]
    exact or_congr (iff_of_false hold hnew) (by rw [← q.tables_withoutConstants]; rfl)

/-! ## Items -/

theorem mirror_insertItem (h : q.WellFormed) (hq : q.count < UInt32.size) (c : ContainerId)
    (spec : ItemSpec) (uuid : Uuid) : (q.insertItem c spec uuid).2.KeepsMirror q := by
  have hnew : q.isPart q.nextId = false := isPart_of_absent (h.numbered.item?_nextId hq)
  have hput : Mirrored (.of q) q.isPart q.tables (.start (q.putItem c spec uuid)) := by
    refine (Mirrored.start q q.isPart q.tables).update (f := fun _ => q.putItem c spec uuid) ?_
    exact congrArg ({ Mirror.of q with items := · }) (IdMap.restrict_insert hnew)
  have hold : ∀ k item, k ≠ q.nextId → (q.putItem c spec uuid).item? k = some item →
      q.isPart k = q.isAttached item.container := by
    intro k item hk hitem
    rw [item?_putItem, if_neg hk] at hitem
    exact isPart_of_item? hitem
  have hself : ∀ item, (q.putItem c spec uuid).item? q.nextId = some item →
      item.container = c := by
    intro item hitem
    rw [item?_putItem, if_pos rfl] at hitem
    cases hitem
    rfl
  rw [insertItem_edit]
  split
  · rename_i hattached
    have hitem := (q.item?_putItem c spec uuid q.nextId).trans (if_pos rfl)
    obtain ⟨selected, sortList, hlists⟩ := (q.putItem c spec uuid).attachItem_lists q.nextId
    refine .of_mirrored (hput.attachItem hitem hnew) ?_ fun k item hk => ?_
    · rw [Edit.query_attachItem, Edit.query_start, hlists]
      rfl
    · rw [Edit.query_attachItem, Edit.query_start, hlists] at hk ⊢
      change _ = q.isAttached item.container
      by_cases hnext : k = q.nextId
      · subst hnext
        simp [hself item hk, hattached]
      · simp [hnext, hold k item hnext hk]
  · rename_i hattached
    refine .of_mirrored hput rfl fun k item hk => ?_
    change _ = q.isAttached item.container
    by_cases hnext : k = q.nextId
    · subst hnext
      rw [hnew, hself item hk, Bool.eq_false_iff.2 hattached]
    · exact hold k item hnext hk

theorem mirror_moveItem (h : q.WellFormed) {index : Nat} (he : q.moveItem i index = .ok e) :
    e.KeepsMirror q := by
  obtain ⟨item, hitem, -, hattached⟩ := (h.listed.selected.mem i).1 (moveItem_ok he).1
  rw [moveItem_edit he]
  exact .announce ⟨item, (Mirror.of_item? i item).2 ⟨hitem, hattached⟩⟩ rfl

end WellFormed

theorem mirror_removeItem {x : Item × Edit} (hx : q.removeItem i = .ok x) :
    x.2.KeepsMirror q := by
  obtain ⟨hitem, -⟩ := removeItem_ok hx
  have hjoins := (Mirrored.start q q.isPart q.tables).each_dropJoin (q.usersOf x.1.container i)
  have htake : ∀ (d : Query) (c : ContainerId),
      Mirror.showing (d.takeItem c i) q.isPart q.tables =
        .showing d (fun k => q.isPart k && k ≠ i) q.tables := by
    intro d c
    exact congrArg ({ Mirror.showing d q.isPart q.tables with items := · })
      (IdMap.restrict_erase.trans IdMap.erase_restrict)
  have hall : Mirrored (.of q) q.isPart q.tables x.2 := by
    rw [removeItem_edit hx]
    unfold releaseItem
    dsimp only
    split
    · rename_i hattached
      have hlast := (Edit.item?_each_dropJoin (.start q) (q.usersOf x.1.container i) i).trans hitem
      refine (hjoins.detachItem hlast ?_).update (htake _ _)
      rw [isPart_of_item? hitem, hattached]
    · rename_i hattached
      -- An item that is not part of the query need not be taken from the mirror.
      refine (hjoins.congr fun k _ => ?_).update (htake _ _)
      by_cases hk : k = i
      · subst hk
        rw [isPart_of_item? hitem, Bool.eq_false_iff.2 hattached]
        rfl
      · simp [hk]
  obtain ⟨selected, sortList, joins, incidence, hframe⟩ := q.released_frame x.1.container i
  have hquery : x.2.query =
      { q with selected, sortList, joins, incidence }.takeItem x.1.container i := by
    rw [removeItem_edit hx, Edit.query_update, releaseItem_query, hframe]
  refine .of_mirrored hall (by rw [hquery]; rfl) fun k item hk => ?_
  rw [hquery] at hk ⊢
  rw [item?_takeItem] at hk
  split at hk
  · cases hk
  · exact isPart_of_item? hk

/-! ## Properties of items -/

/-- The value that is announced says all about a change of items, which stay where they are. -/
structure Announces (p : ItemProperty) (f : Item → Item) : Prop where
  read : ∀ item : Item, item.value? p.property = some (p.read item)
  write : ∀ item : Item, item.withValue p.property (p.read (f item)) = f item
  container : ∀ item : Item, (f item).container = item.container
  follow : ∀ q i, ∃ selected sortList, p.follow q i = { q with selected, sortList }

theorem mirror_changeItem {p : ItemProperty} {f : Item → Item} (hp : Announces p f)
    (he : q.changeItem i p f = .ok e) : e.KeepsMirror q := by
  obtain ⟨item, hitem, rfl | rfl⟩ := changeItem_edit he
  · exact .quiet rfl
  obtain ⟨selected, sortList, hchanged⟩ : ∃ selected sortList,
      q.changedItem i item p f = { q.updateItem i f with selected, sortList } := by
    unfold changedItem
    split
    · exact hp.follow _ i
    · exact ⟨_, _, rfl⟩
  have hseen : (q.changedItem i item p f).item? i = some (f item) := by
    rw [hchanged]
    change (q.items.modify i f).get? i = _
    rw [IdMap.get?_modify, if_pos rfl, ← item?, hitem, Option.map_some]
  have hpart : (q.changedItem i item p f).isPart = q.isPart := by
    rw [hchanged]
    exact isPart_congr (home?_updateItem hp.container i) rfl rfl
  refine .announce ?_ ?_
  · cases hattached : q.isAttached item.container with
    | true => exact Or.inl ⟨item, (Mirror.of_item? i item).2 ⟨hitem, hattached⟩, hp.read item⟩
    | false =>
      refine Or.inr ⟨?_, f item, hseen, ?_⟩
      · rw [Mirror.of, Mirror.showing_item?, isPart_of_item? hitem, hattached]
        rfl
      · rw [hp.container, ← hattached, hchanged]
        rfl
  · rw [Mirror.of, Mirror.of, hpart, hchanged]
    refine congrArg ({ Mirror.of q with items := · }) ?_
    change _ = (q.items.modify i f).restrict q.isPart
    rw [IdMap.restrict_modify]
    refine IdMap.modify_congr fun item' hitem' => ?_
    have heq : item' = item :=
      Option.some.inj (((Mirror.of_item? i item').1 hitem').1.symm.trans hitem)
    rw [heq]
    exact hp.write item

/-! ## Grouping -/

/-- The columns that are counted are selected, each once, and have the roles that are told. -/
theorem WellFormed.uncountedColumns (h : q.WellFormed) :
    q.uncountedColumns.Pairwise (fun x y => x.1 ≠ y.1) ∧
      ∀ x ∈ q.uncountedColumns, x.1 ∈ q.selected ∧
        ∃ item, q.item? x.1 = some item ∧ item.groupRole = x.2 := by
  constructor
  · have hnodup := h.listed.selected.nodup.filter (q.itemHas Item.isUncounted)
    rw [← fst_uncountedColumns] at hnodup
    exact List.pairwise_map.1 hnodup
  · intro x hx
    obtain ⟨hi, item, hitem, -, hrole⟩ := mem_uncountedColumns.1 hx
    exact ⟨hi, item, hitem, hrole⟩

theorem WellFormed.mirror_setGrouping (h : q.WellFormed) (enabled : Bool) :
    (q.setGrouping enabled).KeepsMirror q := by
  have hstart := (Mirrored.start q q.isPart q.tables).setCanExecute false
  obtain ⟨hdistinct, hcolumns⟩ := h.uncountedColumns
  have hcount : Mirrored (.of q) q.isPart q.tables q.countColumns := by
    refine (hstart.each_countColumn hdistinct (fun x hx => ?_) fun x hx => ?_).setCanExecute true
    · exact (hcolumns x hx).2
    · exact h.listed.selected.isPart (hcolumns x hx).1
  let Kept (e : Edit) := e.query.isPart = q.isPart ∧ e.query.tables = q.tables ∧
    e.query.grouping = q.grouping
  have hloop : Kept (q.startCompound.each q.uncountedColumns countColumn) := by
    refine Edit.each_induction (M := Kept) (fun e x _ he => ⟨?_, he.2⟩) ⟨rfl, rfl, rfl⟩
    rw [← he.1]
    exact isPart_congr (home?_countItem x) rfl rfl
  have hkept : Kept q.countColumns := by
    simp only [Kept, countColumns, Edit.query_setCanExecute]
    exact hloop
  -- The columns come first, the setting itself comes last.
  have hlast : ∀ e, Mirrored (.of q) q.isPart q.tables e → Kept e →
      ((e.update ({ · with grouping := enabled })).announce
        (.queryChanged ⟨.grouping, .flag q.grouping, .flag enabled⟩)).KeepsMirror q := by
    rintro e he ⟨hpart, htables, hgrouping⟩
    refine .of_same (he.step ?_ rfl) hpart htables
    rw [← hgrouping]
    rfl
  rcases q.setGrouping_edit enabled with heq | ⟨-, heq⟩
  · rw [heq]
    exact .quiet rfl
  · rw [heq]
    split
    · exact hlast _ hcount hkept
    · exact hlast _ (.start q _ _) ⟨rfl, rfl, rfl⟩

/-! ## Joins -/

theorem WellFormed.mirror_addJoin (h : q.WellFormed) (hq : q.count < UInt32.size) {join : Join}
    {x : JoinId × Edit} (hx : q.addJoin join = .ok x) : x.2.KeepsMirror q := by
  obtain ⟨l, r, left, right, -, -, -, -, -, -, hquery⟩ := addJoin_ok hx
  rw [addJoin_edit hx]
  have hnew : x.2.query.join? q.nextId = some (inherit (inherit join .left left) .right right) := by
    rw [hquery, join?_putJoin, if_pos rfl]
  refine .announce ⟨?_, _, hnew⟩ ?_
  · exact IdMap.get?_eq_none (h.numbered.fresh hq (e := .join))
  · simp only [Mirror.hear, hnew]
    rw [hquery]
    rfl

theorem mirror_removeJoin {x : Join × Edit} (hx : q.removeJoin j = .ok x) :
    x.2.KeepsMirror q := by
  rw [(removeJoin_edit hx).1]
  refine .of_same ((Mirrored.start q q.isPart q.tables).dropJoin j) ?_ ?_
  · rw [Edit.query_dropJoin, Edit.query_start, dropJoin_eq]
    rfl
  · rw [Edit.query_dropJoin, Edit.query_start, dropJoin_eq]

/-- Each join is changed once. -/
theorem Indexed.pairwise_differingJoins (h : q.Indexed) {outer : Bool}
    {changes : List (JoinId × Side)} (hc : q.differingJoins c outer = .ok changes) :
    changes.Pairwise fun x y => x.1 ≠ y.1 := by
  unfold differingJoins at hc
  obtain ⟨sides, hsides, hc⟩ := QueryDefinition.bind_ok hc
  cases hc
  have hnodup := h.nodup_joinsOf c
  rw [← fst_mapM_sideOf hsides] at hnodup
  exact (List.pairwise_map.1 hnodup).filter _

theorem WellFormed.mirror_setOuter (h : q.WellFormed) {side : Side} {outer : Bool}
    (he : q.setOuter j side outer = .ok e) : e.KeepsMirror q := by
  obtain ⟨c, changes, hc, rfl⟩ := setOuter_edit he
  have hall : Mirrored (.of q) q.isPart q.tables
      ((Edit.start q).each changes (flipOuter outer)) := by
    refine (Mirrored.start q _ _).each_flipOuter (h.indexed.pairwise_differingJoins hc) ?_
    rintro ⟨k, s⟩ hx
    obtain ⟨-, -, hdiffers⟩ := (mem_differingJoins hc k s).1 hx
    obtain ⟨join, hjoin, hne⟩ := (Option.any_eq_true _ _).1 hdiffers
    exact ⟨join, hjoin, Bool.eq_not.2 (of_decide_eq_true hne)⟩
  have hkept : (Edit.each (.start q) changes (flipOuter outer)).query.isPart = q.isPart ∧
      (Edit.each (.start q) changes (flipOuter outer)).query.tables = q.tables :=
    Edit.each_induction (M := fun e => e.query.isPart = q.isPart ∧ e.query.tables = q.tables)
      (fun _ _ _ he => he) ⟨rfl, rfl⟩
  exact .of_same hall hkept.1 hkept.2

theorem mirror_setComparator {comparator : String} (he : q.setComparator j comparator = .ok e) :
    e.KeepsMirror q := by
  obtain ⟨join, hjoin, rfl | rfl⟩ := setComparator_edit he
  · exact .quiet rfl
  · exact .announce ⟨join, hjoin, rfl⟩ rfl

theorem mirror_setCanExecute (q : Query) (value : Bool) :
    ((Edit.start q).setCanExecute value).KeepsMirror q := by
  refine .of_same ((Mirrored.start q q.isPart q.tables).setCanExecute value) ?_ ?_
  · rw [Edit.query_setCanExecute]
    rfl
  · rw [Edit.query_setCanExecute]
    rfl

/-! ## All operations -/

/-- The notices of an operation fit the mirror of the query and lead to that of the query as it
is afterwards. -/
theorem WellFormed.mirror_after (h : q.WellFormed) (hq : q.count < UInt32.size) (op : Operation) :
    (Mirror.of q).Follows (q.notices op) (.of (q.after op)) := by
  cases hp : q.perform op with
  | error err =>
    rw [notices_error hp, after_error hp]
    exact .refl _
  | ok x =>
    obtain ⟨reply, e⟩ := x
    rw [notices_ok hp, after_ok hp]
    change e.KeepsMirror q
    cases op with
    | newTable | setName | setZoomLevel | setStreamingRowLimit | setStreaming | setDialect =>
      cases hp
      exact .quiet rfl
    | addTable c => exact h.mirror_addTable (Outcome.ofEdit_ok hp).2
    | removeTable c => exact h.mirror_removeTable (Outcome.ofEdit_ok hp).2
    | setContainerAlias c a =>
      rw [setContainerAlias_edit (Outcome.ofEdit_ok hp).2,
        (setContainerAlias_ok (Outcome.ofEdit_ok hp).2).2]
      exact .quiet rfl
    | newConstants uuid =>
      cases hp
      exact h.mirror_newConstants hq uuid
    | addItem c spec uuid =>
      obtain ⟨x, hx, -, rfl⟩ := Outcome.map_ok hp
      obtain ⟨-, rfl⟩ := addItem_ok hx
      exact h.mirror_insertItem hq c spec uuid
    | removeItem i =>
      obtain ⟨x, hx, -, rfl⟩ := Outcome.map_ok hp
      exact mirror_removeItem hx
    | moveItem i index => exact h.mirror_moveItem (Outcome.ofEdit_ok hp).2
    | moveSortedItemToEnd i =>
      rw [moveSortedItemToEnd_edit (Outcome.ofEdit_ok hp).2,
        (moveSortedItemToEnd_ok (Outcome.ofEdit_ok hp).2).2]
      exact .quiet rfl
    | setSelected i v =>
      refine mirror_changeItem ?_ (Outcome.ofEdit_ok hp).2
      refine ⟨fun _ => rfl, fun _ => rfl, fun _ => rfl, fun q i => ?_⟩
      change ∃ selected sortList, q.syncSelection i = { q with selected, sortList }
      unfold syncSelection
      split_ifs <;> exact ⟨_, _, rfl⟩
    | setSortOrder i v | setGroupRole i v | setItemAlias i v | setFilter i v | setHaving i v
    | setItemName i v =>
      refine mirror_changeItem ?_ (Outcome.ofEdit_ok hp).2
      exact ⟨fun _ => rfl, fun _ => rfl, fun _ => rfl, fun _ _ => ⟨_, _, rfl⟩⟩
    | setGrouping v =>
      cases hp
      exact h.mirror_setGrouping v
    | addJoin join =>
      obtain ⟨x, hx, -, rfl⟩ := Outcome.map_ok hp
      exact h.mirror_addJoin hq hx
    | removeJoin j =>
      obtain ⟨x, hx, -, rfl⟩ := Outcome.map_ok hp
      exact mirror_removeJoin hx
    | setOuter j side v => exact h.mirror_setOuter (Outcome.ofEdit_ok hp).2
    | setComparator j v => exact mirror_setComparator (Outcome.ofEdit_ok hp).2
    | setGlobalFilter v =>
      cases hp
      exact .setting (q.setGlobalFilter_edit v) rfl rfl
    | setRowLimit v =>
      cases hp
      exact .announce rfl rfl
    | defineHandWritten text =>
      cases hp
      exact .setting (q.defineHandWritten_edit text) rfl rfl
    | removeHandWritten =>
      cases hp
      exact .setting q.removeHandWritten_edit rfl rfl
    | setCanExecute v =>
      cases hp
      exact q.mirror_setCanExecute v
    | startCompound =>
      cases hp
      exact q.mirror_setCanExecute false
    | endCompound =>
      cases hp
      exact q.mirror_setCanExecute true

end Query

/-! ## Runs -/

namespace ObservedQuery

variable {α : Type}

/-- Carries out operations one after the other: the calls on the way, and what is left. -/
def run (o : ObservedQuery α) : List Operation → List (α × Notice) × ObservedQuery α
  | [] => ([], o)
  | op :: rest =>
    let p := o.execute op
    let (calls, last) := p.after.run rest
    (p.calls ++ calls, last)

theorem query_run (o : ObservedQuery α) (ops : List Operation) :
    (o.run ops).2.query = ops.foldl Query.after o.query := by
  induction ops generalizing o with
  | nil => rfl
  | cons op rest ih => rw [run, ih, after_execute, List.foldl_cons]

variable [DecidableEq α]

/-- The notices that reach one observer. -/
def heardBy (a : α) (calls : List (α × Notice)) : List Notice :=
  (calls.filter (·.1 = a)).map Prod.snd

theorem heardBy_append (a : α) (calls calls' : List (α × Notice)) :
    heardBy a (calls ++ calls') = heardBy a calls ++ heardBy a calls' := by
  rw [heardBy, List.filter_append, List.map_append, heardBy, heardBy]

/-- An observer that is registered once hears every notice once. -/
theorem heardBy_deliverAll {a : α} {r : Registry α} (ha : r.callOrder.count a = 1)
    (notices : List Notice) : heardBy a (r.deliverAll notices) = notices := by
  have hone : ∀ n : Notice, heardBy a (r.deliver n) = [n] := by
    intro n
    rw [heardBy, Registry.deliver, List.filter_map, List.map_map]
    change ((r.callOrder.filter (· == a)).map fun _ => n) = [n]
    rw [List.filter_beq, ha]
    rfl
  induction notices with
  | nil => rfl
  | cons n rest ih =>
    change heardBy a (r.deliver n ++ r.deliverAll rest) = n :: rest
    rw [heardBy_append, hone, ih]
    rfl

/-- What an observer has heard during a run fits its mirror and keeps it up to date. -/
theorem mirror_run {o : ObservedQuery α} (h : o.query.Reachable) {a : α}
    (ha : o.observers.callOrder.count a = 1) (ops : List Operation)
    (hcount : (o.run ops).2.query.count < UInt32.size) :
    (Mirror.of o.query).Follows (heardBy a (o.run ops).1) (.of (o.run ops).2.query) := by
  induction ops generalizing o with
  | nil => exact .refl _
  | cons op rest ih =>
    have hle : (o.query.after op).count < UInt32.size := by
      rw [query_run, List.foldl_cons] at hcount
      exact Nat.lt_of_le_of_lt (Query.count_le_foldl_after rest _) hcount
    have hfirst := h.wellFormed.mirror_after h.count_lt op
    have hrest := ih (o := { o with query := o.query.after op }) (h.after op hle) ha
      (by rwa [run, after_execute] at hcount)
    rw [run, after_execute, calls_execute, heardBy_append, heardBy_deliverAll ha]
    exact hfirst.trans hrest

/-- An observer that starts with what a reachable query shows when it is registered, and follows
what it hears, knows after any run of operations what the query shows then; and whatever it hears
fits what it knows at that moment. -/
theorem observer_keeps_mirror (o : ObservedQuery α) (h : o.query.Reachable) (a : α)
    (ha : a ∉ o.observers.callOrder) (ops : List Operation)
    (hcount : ((o.observe a).2.run ops).2.query.count < UInt32.size) :
    let heard := heardBy a ((o.observe a).2.run ops).1
    let m := (Mirror.of o.query).hearAll heard
    let q := ((o.observe a).2.run ops).2.query
    (Mirror.of o.query).Accepts heard ∧
      (∀ i item, m.items.get? i = some item ↔
        q.item? i = some item ∧ q.isAttached item.container = true) ∧
      m.tables = q.tables ∧ m.joins = q.joins ∧ m.grouping = q.grouping ∧
      m.globalFilter = q.globalFilter ∧ m.rowLimit = q.rowLimit.toNat ∧
      m.handWritten = q.handWritten := by
  have honce : (o.observe a).2.observers.callOrder.count a = 1 := by
    have horder : (o.observe a).2.observers.callOrder = a :: o.observers.callOrder := by
      simp [observe, Registry.register, Registry.callOrder]
    rw [horder, List.count_cons_self, List.count_eq_zero.2 ha]
  have hrun := mirror_run (o := (o.observe a).2) h honce ops hcount
  intro heard m q
  have hm : m = .of q := hrun.hears
  rw [hm]
  exact ⟨hrun.accepts, Mirror.of_item?, rfl, rfl, rfl, rfl, rfl, rfl⟩

/-- A second observer of the joined tables, while one of them goes and comes back, and the selected
columns are counted. -/
theorem observedTables_mirrored :
    let ops := [Operation.removeTable (.ofCount 4), .addTable (.ofCount 4), .setGrouping true]
    let r := (observedTables.observe "mirror").2.run ops
    let m := (Mirror.of observedTables.query).hearAll (heardBy "mirror" r.1)
    observedTables.query.Reachable ∧ "mirror" ∉ observedTables.observers.callOrder ∧
      r.2.query.count < UInt32.size ∧ (heardBy "mirror" r.1).length = 8 ∧
      m.tables = r.2.query.tables ∧ m.grouping = true := by
  intro ops r m
  have ha : "mirror" ∉ observedTables.observers.callOrder := by decide
  have hcount : r.2.query.count < UInt32.size := by decide +kernel
  have hgrouping : r.2.query.grouping = true := by decide +kernel
  obtain ⟨-, -, htables, -, hm, -⟩ := observedTables.observer_keeps_mirror
    Query.joinedTables_reachable "mirror" ha ops hcount
  exact ⟨Query.joinedTables_reachable, ha, hcount, by decide +kernel, htables,
    hm.trans hgrouping⟩

end ObservedQuery

end LiveSelect
