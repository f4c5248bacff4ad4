import LiveSelect.Proofs.Inside
import LiveSelect.Proofs.Outerness

/-! # Operations outside the statement

A container that is not attached can be made, named, filled, emptied and joined, and its side of
a join can be made outer, without a trace in the text. Each of these operations leaves the inside
of the query as it was: of the joins it makes, drops or changes none leads from table to table,
although tables may list them, and the items it touches are those of detached containers. -/

namespace LiveSelect.Query

variable {q q' : Query} {e : Edit} {i : ItemId} {j : JoinId} {c d l r : ContainerId}

/-- Whether an item belongs to a table of the statement. -/
def isInTable (q : Query) (i : ItemId) : Bool := (q.home? i).any q.tables.contains

/-- The operations on containers that are not attached and their items, on joins with an end
outside the statement, and on the detached sides of joins. -/
def staysOutside (q : Query) : Operation → Bool
  | .newTable _ _ => true
  | .setContainerAlias c _ | .addItem c _ _ => !q.isAttached c
  | .removeItem i | .moveItem i _ | .moveSortedItemToEnd i | .setSelected i _ | .setSortOrder i _
  | .setGroupRole i _ | .setItemAlias i _ | .setFilter i _ | .setHaving i _
  | .setItemName i _ => !q.isInside i
  | .addJoin join => !(q.isInTable join.left && q.isInTable join.right)
  | .removeJoin j | .setComparator j _ => !q.connectsTables j
  | .setOuter j side _ => (q.join? j).all fun join => !q.isInTable (join.column side)
  | _ => false

/-- Whether a run stays outside, every operation judged by the query that it is performed on. -/
def runsOutside (q : Query) : List Operation → Bool
  | [] => true
  | op :: ops => q.staysOutside op && (q.after op).runsOutside ops

theorem isInTable_iff : q.isInTable i ↔ ∃ c, q.home? i = some c ∧ c ∈ q.tables := by
  simp only [isInTable, Option.any_eq_true, List.contains_iff_mem]

/-- A join of a container outside the statement does not lead from table to table. -/
theorem Indexed.not_connects (h : q.Indexed) (hc : c ∉ q.tables) (hj : j ∈ q.joinsOf c) :
    ¬ q.connectsTables j := by
  intro hconnects
  obtain ⟨u, v, hends, hu, hv⟩ := connectsTables_iff.1 hconnects
  obtain ⟨u', v', hends', htouch⟩ := h.mem_joinsOf.1 hj
  obtain ⟨rfl, rfl⟩ := ends?_unique hends hends'
  rcases htouch with rfl | rfl
  · exact hc hu
  · exact hc hv

theorem connectsTables_congr (htables : q'.tables = q.tables) (hends : q'.ends? j = q.ends? j) :
    q'.connectsTables j = q.connectsTables j := by
  rw [connectsTables, htables, hends, connectsTables]

namespace SameInside

/-! ## Items and containers -/

/-- The inside stays the same when joins stay between the same containers, attached containers
stay as they are, and so do their items. -/
theorem of_home (hout : q'.outline = q.outline) (hconst : q'.constants = q.constants)
    (hcontainers : ∀ c, q.isAttached c → q'.container? c = q.container? c)
    (hitems : ∀ i, q.isInside i → q'.item? i = q.item? i)
    (hhome : ∀ j join, q.join? j = some join →
      q'.home? join.left = q.home? join.left ∧ q'.home? join.right = q.home? join.right) :
    SameInside q q' := by
  have hjoins : q'.joins = q.joins := congrArg Outline.joins hout
  have hjoin : ∀ j, q'.join? j = q.join? j := by
    intro j
    rw [join?, hjoins, join?]
  refine ⟨?_, hconst, hcontainers, hitems, fun j => ?_, fun j _ => hjoin j⟩
  · exact congrArg (fun o : Outline => { o with joins := ∅, incidence := ∅ }) hout
  · exact connectsTables_congr (congrArg Outline.tables hout) (ends?_congr (hjoin j) (hhome j))

/-- A change of a container that is not attached leaves the attached ones as they are. -/
theorem container?_updateContainer (hc : ¬ q.isAttached c) (hd : q.isAttached d)
    (f : Container → Container) : (q.updateContainer c f).container? d = q.container? d := by
  have hne : d ≠ c := fun heq => hc (heq ▸ hd)
  exact (IdMap.get?_modify _ _ _ _).trans (if_neg hne)

theorem newTable (h : q.WellFormed) (hq : q.count < UInt32.size) (identity : TableIdentity)
    (uuid : Uuid) : SameInside q (q.newTable identity uuid).2 := by
  refine of_home rfl rfl ?_ (fun _ _ => rfl) fun _ _ _ => ⟨rfl, rfl⟩
  intro c hc
  have hknown : q.containers.contains c := by
    rcases (q.isAttached_iff c).1 hc with rfl | ht
    · exact h.owned.knows_constants
    · exact h.owned.knows_tables c ht
  have hne : c ≠ q.nextId := h.numbered.ne_nextId hq (e := .container) hknown
  exact (IdMap.get?_insert _ _ _ _).trans (if_neg hne)

theorem updateContainer (hc : ¬ q.isAttached c) (f : Container → Container) :
    SameInside q (q.updateContainer c f) :=
  of_home rfl rfl (fun _ hd => container?_updateContainer hc hd f) (fun _ _ => rfl)
    fun _ _ _ => ⟨rfl, rfl⟩

theorem putItem (h : q.WellFormed) (hq : q.count < UInt32.size) (hc : ¬ q.isAttached c)
    (spec : ItemSpec) (uuid : Uuid) : SameInside q (q.putItem c spec uuid) := by
  -- The number of the new item is not that of an item that has a home.
  have hold : ∀ k d, q.home? k = some d → (q.putItem c spec uuid).item? k = q.item? k := by
    intro k d hk
    obtain ⟨item, hitem, -⟩ := home?_eq_some.1 hk
    have hne : k ≠ q.nextId :=
      h.numbered.ne_nextId hq (e := .item) (IdMap.contains_of_get? hitem)
    rw [item?_putItem, if_neg hne]
  refine of_home rfl rfl (fun d hd => ?_) (fun k hk => ?_) fun j join hj => ?_
  · exact container?_updateContainer (q := { q.handOut with items := _ }) hc hd _
  · obtain ⟨d, hd, -⟩ := isInside_iff.1 hk
    exact hold k d hd
  · obtain ⟨u, v, hl, hr, -⟩ := h.indexed.home_of_join hj
    exact ⟨home?_congr (hold _ u hl), home?_congr (hold _ v hr)⟩

theorem takeItem (hunused : q.Unused i) (hi : ¬ q.isInside i) (hc : ¬ q.isAttached c) :
    SameInside q (q.takeItem c i) := by
  have hother : ∀ k, k ≠ i → (q.takeItem c i).item? k = q.item? k := by
    intro k hk
    rw [item?_takeItem, if_neg hk]
  refine of_home rfl rfl (fun d hd => ?_) (fun k hk => ?_) fun j join hj => ?_
  · exact container?_updateContainer hc hd _
  · exact hother k fun heq => hi (heq ▸ hk)
  · obtain ⟨hl, hr⟩ := hunused j join hj
    exact ⟨home?_congr (hother _ hl), home?_congr (hother _ hr)⟩

theorem updateItem (hi : ¬ q.isInside i) {f : Item → Item}
    (hf : ∀ x, (f x).container = x.container) : SameInside q (q.updateItem i f) := by
  have hhome := home?_updateItem (q := q) hf i
  refine of_home rfl rfl (fun _ _ => rfl) (fun k hk => ?_) fun _ _ _ => ⟨hhome _, hhome _⟩
  have hne : k ≠ i := fun heq => hi (heq ▸ hk)
  rw [WellFormed.item?_updateItem, if_neg hne]

/-- A property of an item outside the statement; nothing follows its change. -/
theorem changeItem (hi : ¬ q.isInside i) {p : ItemProperty} {f : Item → Item}
    (he : q.changeItem i p f = .ok e) (hf : ∀ x, (f x).container = x.container) :
    SameInside q e.query := by
  obtain ⟨item, hitem, ⟨-, heq⟩ | ⟨-, heq⟩⟩ := changeItem_ok he
  · rw [heq]
    exact refl q
  · have hdetached : ¬ q.isAttached item.container := isInside_of_item? hitem ▸ hi
    rw [heq, if_neg hdetached]
    exact updateItem hi hf

/-! ## Joins -/

/-- The inside stays the same when only joins change that do not lead from table to table,
neither before nor after. -/
theorem of_joins (hout : q'.unjoined.outline = q.unjoined.outline)
    (hconst : q'.constants = q.constants) (hcontainers : q'.containers = q.containers)
    (hitems : q'.items = q.items)
    (hjoins : ∀ j, q'.join? j = q.join? j ∨ (¬ q.connectsTables j ∧ ¬ q'.connectsTables j)) :
    SameInside q q' := by
  have hitem : ∀ i, q'.item? i = q.item? i := by
    intro i
    rw [item?, hitems, item?]
  refine ⟨hout, hconst, fun c _ => ?_, fun i _ => hitem i, fun j => ?_, fun j hj => ?_⟩
  · rw [container?, hcontainers, container?]
  · rcases hjoins j with hjoin | ⟨hbefore, hafter⟩
    · refine connectsTables_congr (congrArg Outline.tables hout) (ends?_congr hjoin fun _ _ => ?_)
      exact ⟨home?_congr (hitem _), home?_congr (hitem _)⟩
    · rw [Bool.eq_false_iff.2 hbefore, Bool.eq_false_iff.2 hafter]
  · exact (hjoins j).resolve_right fun hneither => hneither.1 hj

theorem dropJoins (h : q.Indexed) {js : List JoinId} (hjs : ∀ j ∈ js, ¬ q.connectsTables j) :
    SameInside q (q.dropJoins js) := by
  have hjoin := (h.dropJoins js).2
  have heq := dropJoins_eq q js
  refine of_joins ?_ ?_ ?_ ?_ fun j => ?_
  · rw [heq]
    rfl
  · rw [heq]
  · rw [heq]
  · rw [heq]
  · rw [hjoin j]
    split
    · rename_i hj
      have hgone : (q.dropJoins js).join? j = none := (hjoin j).trans (if_pos hj)
      refine Or.inr ⟨hjs j hj, ?_⟩
      simp [connectsTables, ends?_eq_none hgone]
    · exact Or.inl rfl

theorem putJoin (h : q.WellFormed) (hq : q.count < UInt32.size) {join : Join}
    (hl : q.home? join.left = some l) (hr : q.home? join.right = some r)
    (hout : ¬ (l ∈ q.tables ∧ r ∈ q.tables)) : SameInside q (q.putJoin l r join) := by
  refine of_joins rfl rfl rfl rfl fun j => ?_
  rw [join?_putJoin]
  split
  · rename_i hj
    subst hj
    have hfresh : q.join? q.nextId = none :=
      IdMap.get?_eq_none (h.numbered.fresh hq (e := .join))
    have hends : (q.putJoin l r join).ends? q.nextId = some (l, r) :=
      ends?_eq_some.2 ⟨join, by rw [join?_putJoin, if_pos rfl], hl, hr⟩
    refine Or.inr ⟨?_, fun hconnects => ?_⟩
    · simp [connectsTables, ends?_eq_none hfresh]
    · obtain ⟨u, v, huv, hu, hv⟩ := connectsTables_iff.1 hconnects
      obtain ⟨rfl, rfl⟩ := ends?_unique hends huv
      exact hout ⟨hu, hv⟩
  · exact Or.inl rfl

theorem updateJoin (hj : ¬ q.connectsTables j) {f : Join → Join}
    (hf : ∀ x side, (f x).column side = x.column side) : SameInside q (q.updateJoin j f) := by
  have hjoin : ∀ k, (q.updateJoin j f).join? k =
      if k = j then (q.join? k).map f else q.join? k := fun k => IdMap.get?_modify _ _ _ _
  refine of_joins rfl rfl rfl rfl fun k => ?_
  by_cases hk : k = j
  · subst hk
    refine Or.inr ⟨hj, fun hconnects => hj ?_⟩
    obtain ⟨u, v, hends, hu, hv⟩ := connectsTables_iff.1 hconnects
    obtain ⟨join', hjoin', hl, hr⟩ := ends?_eq_some.1 hends
    rw [hjoin, if_pos rfl] at hjoin'
    obtain ⟨join, hold, rfl⟩ := Option.map_eq_some_iff.1 hjoin'
    have hleft : (f join).left = join.left := hf join .left
    have hright : (f join).right = join.right := hf join .right
    refine connectsTables_iff.2 ⟨u, v, ends?_eq_some.2 ⟨join, hold, ?_, ?_⟩, hu, hv⟩
    · exact hleft ▸ hl
    · exact hright ▸ hr
  · exact Or.inl ((hjoin k).trans (if_neg hk))

theorem foldl_setFlag (outer : Bool) {xs : List (JoinId × Side)}
    (hxs : ∀ x ∈ xs, ¬ q.connectsTables x.1) : SameInside q (xs.foldl (·.setFlag outer) q) := by
  induction xs generalizing q with
  | nil => exact refl q
  | cons x rest ih =>
    have hfirst : SameInside q (q.setFlag outer x) :=
      updateJoin (hxs x List.mem_cons_self) fun join side => column_withOuter join x.2 side outer
    refine hfirst.trans (ih fun y hy => ?_)
    rw [hfirst.connects]
    exact hxs y (List.mem_cons_of_mem x hy)

/-! ## Operations -/

theorem removeItem (h : q.WellFormed) (hi : ¬ q.isInside i) {x : Item × Edit}
    (hx : q.removeItem i = .ok x) : SameInside q x.2.query := by
  obtain ⟨hitem, heq⟩ := removeItem_ok hx
  have hdetached : ¬ q.isAttached x.1.container := isInside_of_item? hitem ▸ hi
  have htable : x.1.container ∉ q.tables := fun ht =>
    hdetached ((q.isAttached_iff _).2 (Or.inr ht))
  -- Tables may list the joins that go with the item, but none of these leads to a table.
  have hdrop : SameInside q (q.dropJoins (q.usersOf x.1.container i)) :=
    dropJoins h.indexed fun j hj => h.indexed.not_connects htable (List.mem_filter.1 hj).1
  have hattached := hdrop.isAttached_eq
  have hi' : ¬ (q.dropJoins (q.usersOf x.1.container i)).isInside i := by
    have hitem' : (q.dropJoins (q.usersOf x.1.container i)).item? i = some x.1 := by
      rw [dropJoins_eq]
      exact hitem
    rw [isInside_of_item? hitem', hattached]
    exact hdetached
  rw [heq, if_neg hdetached]
  exact hdrop.trans (takeItem (h.unused_dropUsers hitem) hi' (hattached ▸ hdetached))

theorem addJoin (h : q.WellFormed) (hq : q.count < UInt32.size) {join : Join}
    (hout : ¬ (q.isInTable join.left ∧ q.isInTable join.right)) {x : JoinId × Edit}
    (hx : q.addJoin join = .ok x) : SameInside q x.2.query := by
  obtain ⟨l, r, left, right, hl, hr, -, -, -, -, heq⟩ := addJoin_ok hx
  have hcolumn := column_inherit join left right
  rw [heq]
  refine putJoin h hq ?_ ?_ fun htables => hout ?_
  · exact (congrArg q.home? (hcolumn .left)).trans (home?_of_item? hl)
  · exact (congrArg q.home? (hcolumn .right)).trans (home?_of_item? hr)
  · exact ⟨isInTable_iff.2 ⟨_, home?_of_item? hl, htables.1⟩,
      isInTable_iff.2 ⟨_, home?_of_item? hr, htables.2⟩⟩

theorem setOuter (h : q.WellFormed) {side : Side} {outer : Bool}
    (hside : ∀ join, q.join? j = some join → ¬ q.isInTable (join.column side))
    (he : q.setOuter j side outer = .ok e) : SameInside q e.query := by
  obtain ⟨join, item, changes, hjoin, hitem, hchanges, heq⟩ := setOuter_ok he
  have htable : item.container ∉ q.tables := fun ht =>
    hside join hjoin (isInTable_iff.2 ⟨_, home?_of_item? hitem, ht⟩)
  rw [heq]
  refine foldl_setFlag outer fun x hx => ?_
  have hlisted := ((mem_differingJoins hchanges x.1 x.2).1 hx).1
  exact h.indexed.not_connects htable hlisted

/-- An operation that stays outside keeps the inside of the query. -/
theorem perform (h : q.WellFormed) (hq : q.count < UInt32.size) {op : Operation} {reply : Reply}
    (hop : q.staysOutside op) (hp : q.perform op = .ok (reply, e)) : SameInside q e.query := by
  cases op with
  | newTable identity uuid =>
    cases hp
    exact newTable h hq identity uuid
  | setContainerAlias c a =>
    have hc : ¬ q.isAttached c := by simpa [staysOutside] using hop
    rw [(setContainerAlias_ok (Outcome.ofEdit_ok hp).2).2]
    exact updateContainer hc _
  | addItem c spec uuid =>
    have hc : ¬ q.isAttached c := by simpa [staysOutside] using hop
    obtain ⟨x, hx, -, rfl⟩ := Outcome.map_ok hp
    obtain ⟨-, rfl⟩ := addItem_ok hx
    rw [insertItem_query, if_neg hc]
    exact putItem h hq hc spec uuid
  | removeItem i =>
    have hi : ¬ q.isInside i := by simpa [staysOutside] using hop
    obtain ⟨x, hx, -, rfl⟩ := Outcome.map_ok hp
    exact removeItem h hi hx
  | moveItem i index =>
    have hi : ¬ q.isInside i := by simpa [staysOutside] using hop
    obtain ⟨hmem, -, -⟩ := moveItem_ok (Outcome.ofEdit_ok hp).2
    exact absurd (h.listed.selected.isInside hmem) hi
  | moveSortedItemToEnd i =>
    have hi : ¬ q.isInside i := by simpa [staysOutside] using hop
    obtain ⟨hmem, -⟩ := moveSortedItemToEnd_ok (Outcome.ofEdit_ok hp).2
    exact absurd (h.listed.sortList.isInside hmem) hi
  | setSelected i v | setSortOrder i v | setGroupRole i v | setItemAlias i v | setFilter i v
  | setHaving i v | setItemName i v =>
    have hi : ¬ q.isInside i := by simpa [staysOutside] using hop
    exact changeItem hi (Outcome.ofEdit_ok hp).2 fun _ => rfl
  | addJoin join =>
    have hout : ¬ (q.isInTable join.left ∧ q.isInTable join.right) := by
      intro hboth
      simp [staysOutside, hboth] at hop
    obtain ⟨x, hx, -, rfl⟩ := Outcome.map_ok hp
    exact addJoin h hq hout hx
  | removeJoin j =>
    have hj : ¬ q.connectsTables j := by simpa [staysOutside] using hop
    obtain ⟨x, hx, -, rfl⟩ := Outcome.map_ok hp
    rw [(removeJoin_ok hx).2]
    exact dropJoins h.indexed fun k hk => List.mem_singleton.1 hk ▸ hj
  | setComparator j v =>
    have hj : ¬ q.connectsTables j := by simpa [staysOutside] using hop
    obtain ⟨_, -, ⟨-, heq⟩ | ⟨-, heq⟩⟩ := setComparator_ok (Outcome.ofEdit_ok hp).2
    · rw [heq]
      exact refl q
    · rw [heq]
      exact updateJoin hj fun _ side => by cases side <;> rfl
  | setOuter j side v =>
    have hside : ∀ join, q.join? j = some join → ¬ q.isInTable (join.column side) := by
      intro join hjoin
      simpa [staysOutside, hjoin] using hop
    exact setOuter h hside (Outcome.ofEdit_ok hp).2
  | addTable _ | removeTable _ | newConstants _ | setGrouping _ | setName _ | setGlobalFilter _
  | setZoomLevel _ | setRowLimit _ | setStreamingRowLimit _ | setStreaming _ | setDialect _
  | defineHandWritten _ | removeHandWritten | setCanExecute _ | startCompound | endCompound =>
    cases hop

theorem after (h : q.WellFormed) (hq : q.count < UInt32.size) {op : Operation}
    (hop : q.staysOutside op) : SameInside q (q.after op) := by
  cases hp : q.perform op with
  | error err =>
    rw [after_error hp]
    exact refl q
  | ok x =>
    rw [after_ok hp]
    exact perform h hq hop hp

theorem foldl_after (h : q.WellFormed) {ops : List Operation} (hops : q.runsOutside ops)
    (hcount : (ops.foldl Query.after q).count < UInt32.size) :
    SameInside q (ops.foldl Query.after q) ∧ (ops.foldl Query.after q).WellFormed := by
  induction ops generalizing q with
  | nil => exact ⟨refl q, h⟩
  | cons op rest ih =>
    rw [runsOutside, Bool.and_eq_true] at hops
    obtain ⟨hop, hrest⟩ := hops
    have hlater : (q.after op).count ≤ ((op :: rest).foldl Query.after q).count :=
      count_le_foldl_after rest (q.after op)
    have hq : q.count < UInt32.size := by
      have hnow := count_le_after q op
      omega
    obtain ⟨hsame, hwell⟩ := ih (h.after hq op) hrest hcount
    exact ⟨(after h hq hop).trans hsame, hwell⟩

end SameInside

/-- However much is prepared outside the statement, the text does not show it. -/
theorem WellFormed.run_outside_keeps_text (h : q.WellFormed) {ops : List Operation}
    (hops : q.runsOutside ops) (hcount : (ops.foldl Query.after q).count < UInt32.size)
    (n : Naming) : (ops.foldl Query.after q).textWith n = q.textWith n := by
  obtain ⟨hsame, hwell⟩ := SameInside.foldl_after h hops hcount
  exact hsame.textWith_eq h hwell.indexed

/-- What happens outside the statement does not show in it: the text stays the same, whatever
names are spelled with, and so do the lists of the query and the order of its tables. -/
theorem Reachable.outside_does_not_show (h : q.Reachable) {op : Operation}
    (hop : q.staysOutside op) (n : Naming) :
    (q.after op).textWith n = q.textWith n ∧ (q.after op).selected = q.selected ∧
      (q.after op).sortList = q.sortList ∧ (q.after op).tables = q.tables ∧
      (q.after op).finishOrder = q.finishOrder := by
  have hsame : SameInside q (q.after op) := .after h.wellFormed h.count_lt hop
  have hindexed : (q.after op).Indexed := (h.wellFormed.after h.count_lt op).indexed
  exact ⟨hsame.textWith_eq h.wellFormed hindexed, hsame.selected_eq, hsame.sortList_eq,
    hsame.tables_eq, hsame.finishOrder_eq h.wellFormed.indexed hindexed⟩

/-- Two joined tables, and a third that is not added to the statement; its item is selected, has
a filter, and is joined with an item of the first. -/
def detachedNotes : Query :=
  let uuid : Uuid := .ofNat 0
  [ .newTable { name := "notes" } uuid,
    .addItem (.ofCount 9) { name := "x", selected := true, filter := some "> 0" } uuid,
    .addJoin { left := .ofCount 10, right := .ofCount 6 } ].foldl after joinedTables

theorem detachedNotes_reachable : detachedNotes.Reachable :=
  joinedTables_reachable.foldl_after _ (by decide +kernel)

/-- Removing the item drops a join that a table of the statement lists, but nothing shows. -/
theorem detachedNotes_loses_join :
    detachedNotes.Reachable ∧ detachedNotes.staysOutside (.removeItem (.ofCount 10)) ∧
      detachedNotes.joinsOf (.ofCount 4) = [.ofCount 8, .ofCount 11] ∧
      (detachedNotes.after (.removeItem (.ofCount 10))).joinsOf (.ofCount 4) = [.ofCount 8] ∧
      (detachedNotes.after (.removeItem (.ofCount 10))).textWith .plain =
        detachedNotes.textWith .plain ∧
      (detachedNotes.after (.removeItem (.ofCount 10))).finishOrder =
        detachedNotes.finishOrder := by
  have hop : detachedNotes.staysOutside (.removeItem (.ofCount 10)) := by decide +kernel
  obtain ⟨htext, -, -, -, horder⟩ := detachedNotes_reachable.outside_does_not_show hop .plain
  exact ⟨detachedNotes_reachable, hop, by decide +kernel, by decide +kernel, htext, horder⟩

end LiveSelect.Query
