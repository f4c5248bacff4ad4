import LiveSelect.Proofs.Indexing

/-! # The arenas of reachable queries

Who owns an item is recorded twice, in the item and in the list of its container, and all sorts of
entity share one counter. In a reachable query both records agree, one container holds the
constants, and every number in use is below the counter and names one entity. What an operation
makes gets a number that was not handed out before, so a number that was given up never comes
back. The operations that index an arena therefore always find something there. -/

namespace LiveSelect.Query

variable {q q' : Query} {e : Entity}

/-! ## New numbers -/

/-- What the second query knows, the first one knew, or it has a number that the first one had
not handed out. -/
structure Renews (q q' : Query) : Prop where
  known_or_new : ∀ {e : Entity} (i : Id e), q'.Knows i → q.Knows i ∨ q.count ≤ i.toNat

namespace Renews

theorem of_knows (h : ∀ {e : Entity} (i : Id e), q'.Knows i → q.Knows i) : Renews q q' :=
  ⟨fun i hi => Or.inl (h i hi)⟩

/-- The next number is one that was not handed out. -/
theorem of_next (hq : q.count < UInt32.size)
    (h : ∀ {e : Entity} (i : Id e), q'.Knows i → q.Knows i ∨ i = q.nextId) : Renews q q' := by
  refine ⟨fun i hi => ?_⟩
  rcases h i hi with hi | rfl
  · exact Or.inl hi
  · exact Or.inr (Nat.le_of_eq (toNat_nextId hq).symm)

theorem of_arenas (hitems : q'.items = q.items) (hcontainers : q'.containers = q.containers)
    (hjoins : q'.joins = q.joins) : Renews q q' := by
  refine of_knows fun {e} i hi => ?_
  cases e <;> simpa only [Knows, hitems, hcontainers, hjoins] using hi

theorem trans {q'' : Query} (h : Renews q q') (h' : Renews q' q'') (hcount : q.count ≤ q'.count) :
    Renews q q'' := by
  refine ⟨fun i hi => ?_⟩
  rcases h'.known_or_new i hi with hi | hi
  · exact h.known_or_new i hi
  · exact Or.inr (Nat.le_trans hcount hi)

theorem updateItem (q : Query) (i : ItemId) (f : Item → Item) : Renews q (q.updateItem i f) := by
  refine of_knows fun {e} k hk => ?_
  cases e with
  | item => exact (IdMap.contains_modify _ _ _ _).1 hk
  | container => exact hk
  | join => exact hk

theorem updateJoin (q : Query) (j : JoinId) (f : Join → Join) : Renews q (q.updateJoin j f) := by
  refine of_knows fun {e} k hk => ?_
  cases e with
  | item => exact hk
  | container => exact hk
  | join => exact (IdMap.contains_modify _ _ _ _).1 hk

theorem updateContainer (q : Query) (c : ContainerId) (f : Container → Container) :
    Renews q (q.updateContainer c f) := by
  refine of_knows fun {e} k hk => ?_
  cases e with
  | item => exact hk
  | container => exact (IdMap.contains_modify _ _ _ _).1 hk
  | join => exact hk

theorem changeItem {i : ItemId} {p : ItemProperty} {f : Item → Item} {e : Edit}
    (he : q.changeItem i p f = .ok e)
    (hfollow : ∀ q : Query, ∃ selected sortList, p.follow q i = { q with selected, sortList }) :
    Renews q e.query := by
  obtain ⟨item, -, ⟨-, heq⟩ | ⟨-, heq⟩⟩ := changeItem_ok he
  · rw [heq]
    exact of_arenas rfl rfl rfl
  · rw [heq]
    split
    · obtain ⟨selected, sortList, hlists⟩ := hfollow (q.updateItem i f)
      rw [hlists]
      exact (updateItem q i f).trans (of_arenas rfl rfl rfl) (Nat.le_refl _)
    · exact updateItem q i f

theorem takeItem (q : Query) (c : ContainerId) (i : ItemId) : Renews q (q.takeItem c i) := by
  refine of_knows fun {e} k hk => ?_
  cases e with
  | item => exact ((IdMap.contains_erase _ _ _).1 hk).2
  | container => exact (IdMap.contains_modify _ _ _ _).1 hk
  | join => exact hk

theorem putItem (hq : q.count < UInt32.size) (c : ContainerId) (spec : ItemSpec) (uuid : Uuid) :
    Renews q (q.putItem c spec uuid) := by
  refine of_next hq fun {e} k hk => ?_
  cases e with
  | item => exact ((IdMap.contains_insert _ _ _ _).1 hk).symm
  | container => exact Or.inl ((IdMap.contains_modify _ _ _ _).1 hk)
  | join => exact Or.inl hk

theorem newTable (hq : q.count < UInt32.size) (identity : TableIdentity) (uuid : Uuid) :
    Renews q (q.newTable identity uuid).2 := by
  refine of_next hq fun {e} k hk => ?_
  cases e with
  | item => exact Or.inl hk
  | container => exact ((IdMap.contains_insert _ _ _ _).1 hk).symm
  | join => exact Or.inl hk

theorem putJoin (hq : q.count < UInt32.size) (l r : ContainerId) (join : Join) :
    Renews q (q.putJoin l r join) := by
  refine of_next hq fun {e} k hk => ?_
  cases e with
  | item => exact Or.inl hk
  | container => exact Or.inl hk
  | join => exact ((IdMap.contains_insert _ _ _ _).1 hk).symm

/-- The container of new constants has the next number; the old constants are gone. -/
theorem newConstants (h : q.Indexed) (hq : q.count < UInt32.size) (uuid : Uuid) :
    Renews q (q.newConstants uuid).2.query := by
  have hwithout : Renews q q.withoutConstants := of_knows fun _ hk => h.knows_of_withoutConstants hk
  refine hwithout.trans ?_ (Nat.le_of_eq q.count_withoutConstants.symm)
  rw [newConstants_query]
  refine of_next (by rwa [q.count_withoutConstants]) fun {e} k hk => ?_
  cases e with
  | item => exact Or.inl hk
  | container => exact ((IdMap.contains_insert _ _ _ _).1 hk).symm
  | join => exact Or.inl hk

theorem dropJoins (h : q.Indexed) (js : List JoinId) : Renews q (q.dropJoins js) :=
  of_knows fun _ hk => h.knows_of_dropJoins js hk

theorem removeItem (h : q.Indexed) {i : ItemId} {x : Item × Edit}
    (hx : q.removeItem i = .ok x) : Renews q x.2.query := by
  have hdrop := dropJoins h (q.usersOf x.1.container i)
  have hcount := Nat.le_of_eq (count_dropJoins q (q.usersOf x.1.container i)).symm
  have hunlist : Renews q ((q.dropJoins (q.usersOf x.1.container i)).unlistItem i) :=
    hdrop.trans (of_arenas rfl rfl rfl) hcount
  rw [(removeItem_ok hx).2]
  split
  · exact hunlist.trans (takeItem _ _ _) hcount
  · exact hdrop.trans (takeItem _ _ _) hcount

theorem setGrouping (q : Query) (enabled : Bool) : Renews q (q.setGrouping enabled).query := by
  have hcounted : ∀ (xs : List (ItemId × GroupRole)) (q₁ : Query), q.count ≤ q₁.count →
      Renews q q₁ → Renews q (xs.foldl countItem q₁) := by
    intro xs
    induction xs with
    | nil => exact fun _ _ h => h
    | cons x rest ih => exact fun q₁ hle h => ih _ hle (h.trans (updateItem q₁ x.1 _) hle)
  rw [setGrouping_query]
  split_ifs
  · exact of_arenas rfl rfl rfl
  · have hcount : (q.uncountedColumns.foldl countItem { q with canExecute := false }).count =
        q.count := count_foldl (f := countItem) (fun _ _ => rfl) _ _
    have h := hcounted q.uncountedColumns { q with canExecute := false } (Nat.le_refl _)
      (of_arenas rfl rfl rfl)
    exact h.trans (of_arenas rfl rfl rfl) (Nat.le_of_eq hcount.symm)
  · exact of_arenas rfl rfl rfl

theorem foldl_setFlag (outer : Bool) (xs : List (JoinId × Side)) {q₁ : Query}
    (hle : q.count ≤ q₁.count) (h : Renews q q₁) : Renews q (xs.foldl (·.setFlag outer) q₁) := by
  induction xs generalizing q₁ with
  | nil => exact h
  | cons x rest ih => exact ih hle (h.trans (updateJoin q₁ x.1 _) hle)

/-- What an operation makes gets a number that was not handed out before. -/
theorem perform (h : q.WellFormed) (hq : q.count < UInt32.size) {op : Operation} {reply : Reply}
    {e : Edit} (hp : q.perform op = .ok (reply, e)) : Renews q e.query := by
  cases op with
  | newTable identity uuid =>
    cases hp
    exact newTable hq identity uuid
  | addTable c =>
    obtain ⟨-, -, -, heq⟩ := addTable_ok (Outcome.ofEdit_ok hp).2
    obtain ⟨s, t, hlists⟩ :=
      foldl_attachItem_lists (q.itemsOf c) { q with tables := q.tables ++ [c] }
    rw [heq, hlists]
    exact of_arenas rfl rfl rfl
  | removeTable c =>
    obtain ⟨-, -, heq⟩ := removeTable_ok (Outcome.ofEdit_ok hp).2
    have hindexed : Indexed { q with tables := q.tables.erase c } :=
      h.indexed.of_home rfl rfl fun _ _ _ => ⟨rfl, rfl⟩
    rw [heq, foldl_unlistItem]
    exact of_knows fun _ hk => hindexed.knows_of_dropJoins (q.joinsOf c) hk
  | setContainerAlias c a =>
    rw [(setContainerAlias_ok (Outcome.ofEdit_ok hp).2).2]
    exact updateContainer q c _
  | newConstants uuid =>
    cases hp
    exact newConstants h.indexed hq uuid
  | addItem c spec uuid =>
    obtain ⟨x, hx, -, rfl⟩ := Outcome.map_ok hp
    obtain ⟨-, rfl⟩ := addItem_ok hx
    obtain ⟨s, t, hlists⟩ := (q.putItem c spec uuid).attachItem_lists q.nextId
    have hput := putItem hq c spec uuid
    rw [insertItem_query, hlists]
    split
    · exact hput.trans (of_arenas rfl rfl rfl) (Nat.le_succ _)
    · exact hput
  | removeItem i =>
    obtain ⟨x, hx, -, rfl⟩ := Outcome.map_ok hp
    exact removeItem h.indexed hx
  | moveItem i index =>
    obtain ⟨-, -, heq⟩ := moveItem_ok (Outcome.ofEdit_ok hp).2
    rw [heq]
    exact of_arenas rfl rfl rfl
  | moveSortedItemToEnd i =>
    obtain ⟨-, heq⟩ := moveSortedItemToEnd_ok (Outcome.ofEdit_ok hp).2
    rw [heq]
    exact of_arenas rfl rfl rfl
  | setSelected i v =>
    refine changeItem (Outcome.ofEdit_ok hp).2 fun q => ?_
    simp only [ItemProperty.selected, syncSelection]
    split_ifs <;> exact ⟨_, _, rfl⟩
  | setSortOrder i v | setGroupRole i v | setItemAlias i v | setFilter i v | setHaving i v
  | setItemName i v => exact changeItem (Outcome.ofEdit_ok hp).2 fun _ => ⟨_, _, rfl⟩
  | setGrouping v =>
    cases hp
    exact setGrouping q v
  | addJoin join =>
    obtain ⟨x, hx, -, rfl⟩ := Outcome.map_ok hp
    obtain ⟨l, r, _, _, -, -, -, -, -, -, heq⟩ := addJoin_ok hx
    rw [heq]
    exact putJoin hq _ _ _
  | removeJoin j =>
    obtain ⟨x, hx, -, rfl⟩ := Outcome.map_ok hp
    rw [(removeJoin_ok hx).2]
    exact dropJoins h.indexed [j]
  | setOuter j side v =>
    obtain ⟨_, _, changes, -, -, -, heq⟩ := setOuter_ok (Outcome.ofEdit_ok hp).2
    rw [heq]
    exact foldl_setFlag v changes (Nat.le_refl _) (of_arenas rfl rfl rfl)
  | setComparator j v =>
    obtain ⟨_, -, ⟨-, heq⟩ | ⟨-, heq⟩⟩ := setComparator_ok (Outcome.ofEdit_ok hp).2
    · rw [heq]
      exact of_arenas rfl rfl rfl
    · rw [heq]
      exact updateJoin q j _
  | setName v | setZoomLevel v | setStreamingRowLimit v | setStreaming v | setDialect v
  | setRowLimit v =>
    cases hp
    exact of_arenas rfl rfl rfl
  | setGlobalFilter v =>
    cases hp
    rw [setGlobalFilter_query]
    exact of_arenas rfl rfl rfl
  | defineHandWritten text =>
    cases hp
    rw [defineHandWritten_query]
    exact of_arenas rfl rfl rfl
  | removeHandWritten =>
    cases hp
    rw [removeHandWritten_query]
    exact of_arenas rfl rfl rfl
  | setCanExecute v | startCompound | endCompound =>
    cases hp
    refine of_arenas ?_ ?_ ?_ <;> exact (Edit.query_setCanExecute _ _).symm ▸ rfl

theorem after (h : q.WellFormed) (hq : q.count < UInt32.size) (op : Operation) :
    Renews q (q.after op) := by
  cases hp : q.perform op with
  | error err =>
    rw [after_error hp]
    exact of_arenas rfl rfl rfl
  | ok x =>
    rw [after_ok hp]
    exact perform h hq hp

/-- The same of a run, as long as the counter fits. -/
theorem foldl_after (h : q.Reachable) (ops : List Operation)
    (hcount : (ops.foldl Query.after q).count < UInt32.size) :
    Renews q (ops.foldl Query.after q) := by
  induction ops generalizing q with
  | nil => exact of_arenas rfl rfl rfl
  | cons op rest ih =>
    have hstep := after h.wellFormed h.count_lt op
    have hle := count_le_foldl_after rest (q.after op)
    have hnext := h.after op (Nat.lt_of_le_of_lt hle hcount)
    exact hstep.trans (ih hnext hcount) (count_le_after q op)

end Renews

/-! ## What reachable queries hold -/

theorem Owned.items_exact (h : q.Owned) {c : ContainerId} {k : Container}
    (hk : q.container? c = some k) :
    k.items.Nodup ∧
      ∀ i, i ∈ k.items ↔ ∃ item, q.item? i = some item ∧ item.container = c := by
  have hitems : q.itemsOf c = k.items := by rw [itemsOf, hk, Option.map_some, Option.getD_some]
  rw [← hitems]
  exact ⟨h.nodup_itemsOf c, fun i => (h.mem_itemsOf c i).trans home?_eq_some⟩

theorem Owned.constants_iff (h : q.Owned) {c : ContainerId} {k : Container}
    (hk : q.container? c = some k) : k.kind = .constants ↔ c = q.constants := by
  rw [← h.isConstants_iff c k hk]
  cases hkind : k.kind <;> simp [Container.isConstants, Container.identity?, hkind]

theorem Owned.table_kind (h : q.Owned) {t : ContainerId} (ht : t ∈ q.tables) :
    ∃ k, q.container? t = some k ∧ ∃ identity, k.kind = .table identity := by
  obtain ⟨k, hk⟩ := (q.containers.contains_iff t).1 (h.knows_tables t ht)
  refine ⟨k, hk, ?_⟩
  cases hkind : k.kind with
  | table identity => exact ⟨identity, rfl⟩
  | constants => exact absurd ((h.constants_iff hk).1 hkind ▸ ht) h.constants_not_table

/-- Two entities of one number are one entity. -/
theorem Numbered.eq_of_toNat (h : q.Numbered) {e e' : Entity} {i : Id e} {i' : Id e'}
    (hi : q.Knows i) (hi' : q.Knows i') (heq : i.toNat = i'.toNat) :
    (⟨e, i⟩ : Σ e, Id e) = ⟨e', i'⟩ := by
  obtain rfl := h.apart i i' hi hi' heq
  rw [Id.toNat_inj.1 heq]

/-- A number that an entity had and gave up is not the number of anything later on. -/
theorem Reachable.gone_for_good (h : q.Reachable) {earlier later : List Operation} {e e' : Entity}
    {i : Id e} {i' : Id e'} (hi : q.Knows i) (hgone : ¬ (earlier.foldl Query.after q).Knows i)
    (hcount : ((earlier ++ later).foldl Query.after q).count < UInt32.size)
    (hi' : ((earlier ++ later).foldl Query.after q).Knows i') : i'.toNat ≠ i.toNat := by
  rw [List.foldl_append] at hcount hi'
  have hle := count_le_foldl_after later (earlier.foldl Query.after q)
  have hmid := h.foldl_after earlier (Nat.lt_of_le_of_lt hle hcount)
  have hbelow : i.toNat < (earlier.foldl Query.after q).count :=
    Nat.lt_of_lt_of_le (h.wellFormed.numbered.below i hi) (count_le_foldl_after earlier q)
  intro heq
  -- What has a number below the counter was there already when the number was given up, and by
  -- the same argument from the start on; but then it is the entity that is gone.
  rcases (Renews.foldl_after hmid later hcount).known_or_new i' hi' with hthen | hnew
  · rcases (Renews.foldl_after h earlier hmid.count_lt).known_or_new i' hthen with hstart | hnew
    · have hsame := h.wellFormed.numbered.eq_of_toNat hi hstart heq.symm
      cases hsame
      exact hgone hthen
    · have := h.wellFormed.numbered.below i hi
      omega
  · omega

/-! ## The two records of a reachable query -/

/-- In a reachable query the container of an item and the lists of the containers agree, one
container holds the constants, the tables of the statement are distinct tables, every number in
use is below the counter and names one entity, now and from then on. So the operations that index
an arena unchecked come to what they would come to with every look-up checked. -/
theorem Reachable.arenas_agree (h : q.Reachable) :
    (∀ c k, q.container? c = some k → k.items.Nodup ∧
      ∀ i, i ∈ k.items ↔ ∃ item, q.item? i = some item ∧ item.container = c) ∧
    (∀ i item, q.item? i = some item → ∃ k, q.container? item.container = some k) ∧
    (∃ k, q.container? q.constants = some k ∧ k.kind = .constants) ∧
    (∀ c k, q.container? c = some k → k.kind = .constants → c = q.constants) ∧
    q.constants ∉ q.tables ∧ q.tables.Nodup ∧
    (∀ t ∈ q.tables, ∃ k, q.container? t = some k ∧ ∃ identity, k.kind = .table identity) ∧
    (∀ {e : Entity} (i : Id e), q.Knows i → i.toNat < q.count) ∧
    (∀ {e e' : Entity} (i : Id e) (i' : Id e'), q.Knows i → q.Knows i' → i.toNat = i'.toNat →
      (⟨e, i⟩ : Σ e, Id e) = ⟨e', i'⟩) ∧
    (∀ (earlier later : List Operation) {e e' : Entity} (i : Id e) (i' : Id e'), q.Knows i →
      ¬ (earlier.foldl Query.after q).Knows i →
      ((earlier ++ later).foldl Query.after q).count < UInt32.size →
      ((earlier ++ later).foldl Query.after q).Knows i' → i'.toNat ≠ i.toNat) ∧
    (∀ c, (Guarded.addTable q c).run = .ok (q.addTable c)) ∧
    (∀ c, (Guarded.removeTable q c).run = .ok (q.removeTable c)) ∧
    (∀ i, (Guarded.removeItem q i).run = .ok (q.removeItem i)) ∧
    (∀ j side outer, (Guarded.setOuter q j side outer).run = .ok (q.setOuter j side outer)) ∧
    ∀ uuid mint, Indexing.copy q uuid mint = .ok (q.copyWithRenumbering uuid mint) := by
  have hw := h.wellFormed
  have howned := hw.owned
  obtain ⟨k, hk⟩ := (q.containers.contains_iff _).1 howned.knows_constants
  refine ⟨fun c k hk => howned.items_exact hk, ?_, ⟨k, hk, (howned.constants_iff hk).2 rfl⟩,
    fun c k hk => (howned.constants_iff hk).1, howned.constants_not_table, howned.nodup_tables,
    fun t => howned.table_kind, hw.numbered.below, fun i i' => hw.numbered.eq_of_toNat,
    fun earlier later _ _ i i' => h.gone_for_good, Guarded.addTable_run q,
    Guarded.removeTable_run howned, Guarded.removeItem_run q, Guarded.setOuter_run hw.indexed,
    Indexing.copy_eq hw⟩
  intro i item hitem
  exact (q.containers.contains_iff _).1 (howned.knows_of_item? hitem)

/-- The join of the two tables has number 8. Once the first table is taken out of the statement
the join is gone, and an item made after that has another number. -/
theorem joinedTables_renews :
    joinedTables.Reachable ∧ joinedTables.Knows (.ofCount 8 : JoinId) ∧
      ∀ i : ItemId,
        ([Operation.removeTable (.ofCount 4), .addItem (.ofCount 5) { name := "z" } (.ofNat 0)].foldl
          Query.after joinedTables).Knows i → i.toNat ≠ 8 := by
  have hknown : joinedTables.Knows (.ofCount 8 : JoinId) := by decide +kernel
  have hgone : ¬ ([Operation.removeTable (.ofCount 4)].foldl Query.after joinedTables).Knows
      (.ofCount 8 : JoinId) := by decide +kernel
  have hrenews := joinedTables_reachable.arenas_agree.2.2.2.2.2.2.2.2.2.1
  refine ⟨joinedTables_reachable, hknown, fun i => ?_⟩
  exact hrenews [.removeTable (.ofCount 4)] [.addItem (.ofCount 5) { name := "z" } (.ofNat 0)]
    (.ofCount 8 : JoinId) i hknown hgone (by decide +kernel)

end LiveSelect.Query
