import LiveSelect.Proofs.Indexing
import LiveSelect.Proofs.Snapshots

/-! # Copies that observers make

An observer is given the query to read, and may copy it. A copy indexes the containers without
asking whether they are there, so it relies on more than what is shown: the container of the
constants must exist, and so must the container of every item. Between operations they do. Within
an operation there is one exception. When new constants take the place of the old ones, the old
container goes first, and then its items one by one: as long as they are announced, a copy breaks
off. -/

namespace LiveSelect

/-- Whether an event tells of an item that goes with the old container of the constants. -/
def Operation.takesConstant : Operation → Event → Bool
  | .newConstants _, .itemRemoved .. => true
  | _, _ => false

namespace Query

variable {q : Query} {op : Operation}

/-! ## Who owns whom at every moment -/

theorem owned_robust : Robust Owned where
  attachItem {q i _} h _ _ := by
    obtain ⟨selected, sortList, hattach⟩ := q.attachItem_lists i
    rw [hattach]
    exact h.of_arenas rfl rfl rfl rfl
  unlistItem _ h := h.of_arenas rfl rfl rfl rfl
  dropJoin j h := h.dropJoins [j]
  setFlag _ _ h := h.of_arenas rfl rfl rfl rfl
  countItem x h := h.congr (fun _ => rfl) (home?_countItem x) rfl rfl fun _ => rfl
  setCanExecute _ h := h.of_arenas rfl rfl rfl rfl
  setGrouping _ h := h.of_arenas rfl rfl rfl rfl

/-- Unless the constants are replaced, items and containers agree whenever an observer is called. -/
theorem WellFormed.notices_owned (h : q.WellFormed) (hq : q.count < UInt32.size)
    (hop : ∀ uuid, op ≠ .newConstants uuid) : ∀ n ∈ q.notices op, n.seen.Owned := by
  refine owned_robust.notices h.owned h.owned (h.after hq op).owned ?_ ?_ ?_
  · intro c _ hknown hconst htable
    refine h.owned.withTables ?_ ?_ ?_
    · exact h.owned.nodup_tables.append (List.nodup_singleton c) (List.disjoint_singleton.2 htable)
    · intro k hk
      rcases List.mem_append.1 hk with hk | hk
      · exact h.owned.knows_tables k hk
      · rwa [List.mem_singleton.1 hk]
    · intro hmem
      rcases List.mem_append.1 hmem with hmem | hmem
      · exact h.owned.constants_not_table hmem
      · exact hconst (List.mem_singleton.1 hmem).symm
  · intro c _
    refine h.owned.withTables (h.owned.nodup_tables.erase c) (fun k hk => ?_) fun hmem => ?_
    · exact h.owned.knows_tables k (List.mem_of_mem_erase hk)
    · exact h.owned.constants_not_table (List.mem_of_mem_erase hmem)
  · exact fun uuid heq => absurd heq (hop uuid)

/-! ## The old constants -/

/-- The container of the constants is gone, and an item is still kept in it. -/
def Orphaned (q : Query) (i : ItemId) : Prop :=
  q.container? q.constants = none ∧ q.home? i = some q.constants

/-- While the old constants go, their joins are announced as long as their container is there, and
their items only after it. -/
theorem Owned.tells_dropConstants (h : q.Owned) :
    q.dropConstants.Tells fun event seen =>
      match event with
      | .itemRemoved i _ => seen.Orphaned i
      | _ => seen.Owned := by
  let R : Event → Query → Prop := fun event seen =>
    match event with
    | .itemRemoved i _ => seen.Orphaned i
    | _ => seen.Owned
  let d := q.dropJoins (q.joinsOf q.constants)
  let joined := (Edit.start q).each (q.joinsOf q.constants) Edit.dropJoin
  have hquery : joined.query = d := Edit.query_each _ Edit.query_dropJoin _
  have hjoins : joined.Tells R ∧ joined.query.Owned := by
    refine Edit.each_induction (M := fun e => e.Tells R ∧ e.query.Owned) ?_ ⟨.start q, h⟩
    rintro e j - ⟨he, ho⟩
    have hdropped := owned_robust.dropJoin j ho
    exact ⟨he.dropJoin fun _ => hdropped, by rwa [Edit.query_dropJoin]⟩
  let bare : Query := { d with containers := d.containers.erase q.constants }
  have hbare : bare.constants = q.constants ∧ bare.items = q.items := by
    have hd : d = _ := dropJoins_eq q _
    change d.constants = _ ∧ d.items = _
    rw [hd]
    exact ⟨rfl, rfl⟩
  -- The items that are done are known no more; those that are to come still are.
  refine (Edit.each_split (M := fun done e => e.Tells R ∧ e.query = done.foldl discardItem bare)
    ?_ ⟨hjoins.1.update _, by rw [Edit.query_update, hquery]; rfl⟩).1
  rintro done i rest e hsplit ⟨he, hdone⟩
  have hseen : (e.query.unlistItem i).Orphaned i := by
    have hi : i ∈ q.itemsOf q.constants := by simp [hsplit]
    have hnew : i ∉ done := by
      have hnodup := h.nodup_itemsOf q.constants
      rw [hsplit] at hnodup
      exact fun hmem => (List.nodup_append.1 hnodup).2.2 i hmem i List.mem_cons_self rfl
    have hhome := (h.mem_itemsOf _ i).1 hi
    rw [hdone, foldl_discardItem]
    constructor
    · change bare.containers.get? bare.constants = none
      rw [hbare.1, IdMap.get?_erase, if_pos rfl]
    · change ((done.foldl IdMap.erase bare.items).get? i).map Item.container = some bare.constants
      rw [hbare.1, hbare.2, IdMap.get?_foldl_erase, if_neg hnew]
      exact hhome
  refine ⟨?_, ?_⟩
  · rw [Edit.forgetItem_eq]
    exact (he.detachItem fun _ => hseen).update _
  · rw [Edit.query_forgetItem, hdone, List.foldl_append]
    rfl

end Query

namespace ObservedQuery

variable {α : Type}

/-- In every call that an operation makes on a reachable query, unless it tells of an item that
goes with the old constants, the container of the constants exists, and so does the container of
every item; and a copy of what is shown comes to its end. In the other calls the one is missing and
the other too, and a copy breaks off at the container of the constants. -/
theorem calls_allow_copy_iff (o : ObservedQuery α) (h : o.query.Reachable) (op : Operation)
    (x : α × Notice) (hx : x ∈ (o.execute op).calls) :
    let q := x.2.seen
    let taken := op.takesConstant x.2.event
    ((∃ k, q.container? q.constants = some k) ↔ ¬ taken) ∧
    ((∀ i item, q.item? i = some item → ∃ k, q.container? item.container = some k) ↔ ¬ taken) ∧
    ∀ uuid mint, Indexing.copy q uuid mint =
      if taken then .error (.container q.constants) else .ok (q.copyWithRenumbering uuid mint) := by
  intro q taken
  have hnotice := notice_of_call hx
  have hseen : (taken = false ∧ q.Owned) ∨ (taken = true ∧ ∃ i, q.Orphaned i) := by
    by_cases hop : ∃ uuid, op = .newConstants uuid
    · obtain ⟨uuid, rfl⟩ := hop
      have htold := h.wellFormed.owned.tells_dropConstants x.2 hnotice
      -- Other events of this operation tell of joins.
      cases hevent : x.2.event with
      | itemRemoved i was =>
        rw [hevent] at htold
        exact Or.inr ⟨by simp only [taken, hevent, Operation.takesConstant], i, htold⟩
      | _ =>
        rw [hevent] at htold
        exact Or.inl ⟨by simp only [taken, hevent, Operation.takesConstant], htold⟩
    · refine Or.inl ⟨?_, ?_⟩
      · cases op with
        | newConstants uuid => exact absurd ⟨uuid, rfl⟩ hop
        | _ => rfl
      · exact h.wellFormed.notices_owned h.count_lt (fun uuid heq => hop ⟨uuid, heq⟩) x.2 hnotice
  rcases hseen with ⟨htaken, howned⟩ | ⟨htaken, i, hmissing, hhome⟩
  · simp only [htaken, Bool.false_eq_true, not_false_eq_true, iff_true, if_false]
    refine ⟨(IdMap.contains_iff _ _).1 howned.knows_constants, fun i item hitem => ?_,
      Indexing.copy_of_owned howned⟩
    exact (IdMap.contains_iff _ _).1 (howned.knows_of_item? hitem)
  · simp only [htaken, not_true_eq_false, iff_false, if_true]
    -- The item that the event tells of is the one without a container.
    obtain ⟨item, hitem, hcontainer⟩ := Query.home?_eq_some.1 hhome
    refine ⟨?_, fun hall => ?_, Indexing.copy_of_missing hmissing⟩
    · rintro ⟨k, hk⟩
      rw [hmissing] at hk
      cases hk
    · obtain ⟨k, hk⟩ := hall i item hitem
      rw [hcontainer, hmissing] at hk
      cases hk

/-- While a joined table is removed, the observer can copy what it is shown. -/
theorem observedTables_copied_in_call :
    let op := Operation.removeTable (.ofCount 4)
    observedTables.query.Reachable ∧ ∃ x ∈ (observedTables.execute op).calls,
      ∀ uuid mint, Indexing.copy x.2.seen uuid mint =
        .ok (x.2.seen.copyWithRenumbering uuid mint) := by
  intro op
  have hsecond : ((observedTables.execute op).calls[1]?).isSome := by decide +kernel
  obtain ⟨x, hx⟩ := Option.isSome_iff_exists.1 hsecond
  have hmem := List.mem_of_getElem? hx
  obtain ⟨-, -, hcopy⟩ := observedTables.calls_allow_copy_iff Query.joinedTables_reachable op x hmem
  exact ⟨Query.joinedTables_reachable, x, hmem, hcopy⟩

/-- When new constants take the place of the old ones, the observer is shown a query in which the
container of the constants is missing while an item is still kept in it, and a copy breaks off. -/
theorem copy_breaks_off_in_call :
    ∃ (o : ObservedQuery String) (op : Operation) (x : String × Notice), o.query.Reachable ∧
      x ∈ (o.execute op).calls ∧ x.2.seen.container? x.2.seen.constants = none ∧
      x.2.seen.home? (.ofCount 1) = some x.2.seen.constants ∧
      ∀ uuid mint, Indexing.copy x.2.seen uuid mint = .error (.container x.2.seen.constants) := by
  have hfirst : ((observedTables.execute (.newConstants (.ofNat 1))).calls[0]?).map
      (fun x => ((x.2.seen.container? x.2.seen.constants).isNone,
        decide (x.2.seen.home? (.ofCount 1) = some x.2.seen.constants))) = some (true, true) := by
    decide +kernel
  obtain ⟨x, hx, hseen⟩ := Option.map_eq_some_iff.1 hfirst
  obtain ⟨hnone, hhome⟩ := Prod.mk.inj hseen
  have hmissing := Option.isNone_iff_eq_none.1 hnone
  exact ⟨observedTables, _, x, Query.joinedTables_reachable, List.mem_of_getElem? hx, hmissing,
    of_decide_eq_true hhome, Indexing.copy_of_missing hmissing⟩

end ObservedQuery

end LiveSelect
