import LiveSelect.Proofs.Refusals

/-! # What is announced

An edit carries the notices that were sent while it was made, each with the query as an
observer saw it. Here the edits of the operations are written out with their notices, and
statements about all the queries that observers get to see are proved step by step along
them. The calls of observers are then the notices of the edit, once for every observer. -/

namespace LiveSelect

namespace Edit

variable {α : Type} {e : Edit} {P : Query → Prop}

@[simp] theorem notices_start (q : Query) : (start q).notices = [] := rfl

@[simp] theorem notices_update (e : Edit) (f : Query → Query) :
    (e.update f).notices = e.notices := rfl

@[simp] theorem notices_announce (e : Edit) (event : Event) :
    (e.announce event).notices = e.notices ++ [⟨event, e.query⟩] := rfl

/-! ## Steps -/

theorem attachItem_eq (e : Edit) (i : ItemId) :
    e.attachItem i = (e.update (·.attachItem i)).announce (.itemAdded i) := rfl

/-- That a known item leaves is always announced. -/
theorem detachItem_eq {i : ItemId} {item : Item} (h : e.query.item? i = some item) :
    e.detachItem i = (e.update (·.unlistItem i)).announce (.itemRemoved i item) := by
  have hlisted : (e.query.unlistItem i).item? i = some item := h
  simp only [detachItem, query_update, hlisted]

/-- A join that is dropped is announced; else there was none to drop. -/
theorem dropJoin_cases (e : Edit) (j : JoinId) :
    (∃ join, e.query.join? j = some join ∧
      (e.query.dropJoin j).joins = e.query.joins.erase j ∧
      e.dropJoin j = (e.update (·.dropJoin j)).announce (.joinRemoved j join)) ∨
    (e.query.ends? j = none ∧ e.dropJoin j = e) := by
  cases hends : e.query.ends? j with
  | none => exact Or.inr ⟨rfl, by simp only [dropJoin, hends]⟩
  | some ends =>
    obtain ⟨left, right⟩ := ends
    obtain ⟨join, hjoin, -⟩ := Query.ends?_eq_some.1 hends
    refine Or.inl ⟨join, hjoin, ?_, ?_⟩
    · simp only [Query.dropJoin, hends, Query.unlistJoin]
    · simp only [dropJoin, update, Query.dropJoin, hends, hjoin]

theorem forgetItem_eq (e : Edit) (i : ItemId) :
    Query.forgetItem e i =
      (e.detachItem i).update fun q => { q with items := q.items.erase i } := rfl

theorem setCanExecute_cases (e : Edit) (value : Bool) :
    e.setCanExecute value = e.update ({ · with canExecute := value }) ∨
      e.setCanExecute value =
        (e.update ({ · with canExecute := value })).announce .readyToExecute := by
  simp only [setCanExecute]
  split
  · exact Or.inr rfl
  · exact Or.inl rfl

/-- What every step of a loop keeps, the loop keeps. -/
theorem each_induction {M : Edit → Prop} {l : List α} {step : Edit → α → Edit}
    (hstep : ∀ e, ∀ x ∈ l, M e → M (step e x)) (h : M e) : M (e.each l step) := by
  unfold each
  induction l generalizing e with
  | nil => exact h
  | cons x rest ih =>
    refine ih (fun e y hy => hstep e y (List.mem_cons_of_mem _ hy)) ?_
    exact hstep e x List.mem_cons_self h

/-- What a step adds to the part of a list that is done, the loop brings about for the list. -/
theorem each_split {M : List α → Edit → Prop} {l : List α} {step : Edit → α → Edit}
    (hstep : ∀ done x rest e, l = done ++ x :: rest → M done e → M (done ++ [x]) (step e x))
    (h : M [] e) : M l (e.each l step) := by
  suffices hrest : ∀ rest done e, l = done ++ rest → M done e → M l (e.each rest step) from
    hrest l [] e rfl h
  intro rest
  induction rest with
  | nil =>
    rintro done e rfl he
    rw [List.append_nil] at hstep ⊢
    exact he
  | cons x rest ih =>
    intro done e heq he
    exact ih (done ++ [x]) (step e x) (by simpa using heq) (hstep done x rest e heq he)

/-- A step may rely on how its member is related to those before it. -/
theorem each_done {M : List α → Edit → Prop} {R : α → α → Prop} {l : List α}
    {step : Edit → α → Edit} (hl : l.Pairwise R)
    (hstep : ∀ done e, ∀ x ∈ l, (∀ y ∈ done, R y x) → M done e → M (done ++ [x]) (step e x))
    (h : M [] e) : M l (e.each l step) := by
  refine each_split (fun done x rest e heq he => hstep done e x ?_ ?_ he) h
  · rw [heq]
    exact List.mem_append_right _ List.mem_cons_self
  · rw [heq, List.pairwise_append] at hl
    exact fun y hy => hl.2.2 y hy x List.mem_cons_self

/-- A loop that takes a small step and announces it sends one notice for each member, in the
order of the list. What every step keeps is seen by all of them. -/
theorem each_announce {R : α → Notice → Prop} {f : Query → α → Query} {event : α → Event}
    {l : List α} {step : Edit → α → Edit}
    (hstep : ∀ e x, step e x = (e.update (f · x)).announce (event x))
    (hf : ∀ q, ∀ x ∈ l, P q → P (f q x)) (hR : ∀ q, ∀ x ∈ l, P q → R x ⟨event x, q⟩)
    (h : P e.query) :
    ∃ told, (e.each l step).notices = e.notices ++ told ∧ List.Forall₂ R l told := by
  induction l generalizing e with
  | nil => exact ⟨[], (List.append_nil _).symm, .nil⟩
  | cons x rest ih =>
    have hx : P (f e.query x) := hf _ x List.mem_cons_self h
    have hquery : (step e x).query = f e.query x := by
      rw [hstep]
      rfl
    rcases ih (fun q y hy => hf q y (List.mem_cons_of_mem _ hy))
      (fun q y hy => hR q y (List.mem_cons_of_mem _ hy)) (hquery ▸ hx) with ⟨told, htold, hall⟩
    refine ⟨⟨event x, f e.query x⟩ :: told, ?_, .cons (hR _ x List.mem_cons_self hx) hall⟩
    have hfirst : (step e x).notices = e.notices ++ [⟨event x, f e.query x⟩] := by
      rw [hstep]
      rfl
    calc (e.each (x :: rest) step).notices = ((step e x).each rest step).notices := rfl
      _ = e.notices ++ ⟨event x, f e.query x⟩ :: told := by
        rw [htold, hfirst, List.append_assoc, List.singleton_append]

/-! ## At every moment -/

/-- A property holds of the query now, and it held whenever a notice was sent. -/
structure Throughout (P : Query → Prop) (e : Edit) : Prop where
  now : P e.query
  seen : ∀ n ∈ e.notices, P n.seen

namespace Throughout

theorem start {q : Query} (h : P q) : Throughout P (start q) where
  now := h
  seen _ hn := absurd hn List.not_mem_nil

theorem update (h : Throughout P e) {f : Query → Query} (hf : P (f e.query)) :
    Throughout P (e.update f) where
  now := hf
  seen := h.seen

theorem announce (h : Throughout P e) (event : Event) : Throughout P (e.announce event) where
  now := h.now
  seen n hn := by
    rcases List.mem_append.1 hn with hn | hn
    · exact h.seen n hn
    · rw [List.mem_singleton.1 hn]
      exact h.now

theorem detachItem (h : Throughout P e) {i : ItemId} (hi : P (e.query.unlistItem i)) :
    Throughout P (e.detachItem i) := by
  simp only [Edit.detachItem]
  split
  · exact (h.update hi).announce _
  · exact h.update hi

theorem dropJoin (h : Throughout P e) {j : JoinId} (hj : P (e.query.dropJoin j)) :
    Throughout P (e.dropJoin j) := by
  rcases e.dropJoin_cases j with ⟨join, -, -, heq⟩ | ⟨-, heq⟩
  · rw [heq]
    exact (h.update hj).announce _
  · rw [heq]
    exact h

theorem setCanExecute (h : Throughout P e) {value : Bool}
    (hq : P { e.query with canExecute := value }) : Throughout P (e.setCanExecute value) := by
  rcases e.setCanExecute_cases value with heq | heq
  · rw [heq]
    exact h.update hq
  · rw [heq]
    exact (h.update hq).announce _

end Throughout

/-! ## What a notice tells -/

/-- Every notice tells of an event that fits the query as it was seen then. -/
def Tells (R : Event → Query → Prop) (e : Edit) : Prop := ∀ n ∈ e.notices, R n.event n.seen

namespace Tells

variable {R : Event → Query → Prop}

theorem start (q : Query) : Tells R (start q) := fun _ hn => absurd hn List.not_mem_nil

theorem update (h : Tells R e) (f : Query → Query) : Tells R (e.update f) := h

theorem announce (h : Tells R e) {event : Event} (hevent : R event e.query) :
    Tells R (e.announce event) := by
  intro n hn
  rcases List.mem_append.1 hn with hn | hn
  · exact h n hn
  · rw [List.mem_singleton.1 hn]
    exact hevent

theorem attachItem (h : Tells R e) {i : ItemId}
    (hi : R (.itemAdded i) (e.query.attachItem i)) : Tells R (e.attachItem i) := by
  rw [attachItem_eq]
  exact (h.update _).announce hi

theorem dropJoin (h : Tells R e) {j : JoinId}
    (hj : ∀ join, R (.joinRemoved j join) (e.query.dropJoin j)) : Tells R (e.dropJoin j) := by
  rcases e.dropJoin_cases j with ⟨join, -, -, heq⟩ | ⟨-, heq⟩
  · rw [heq]
    exact (h.update _).announce (hj join)
  · rw [heq]
    exact h

theorem detachItem (h : Tells R e) {i : ItemId}
    (hi : ∀ item, R (.itemRemoved i item) (e.query.unlistItem i)) : Tells R (e.detachItem i) := by
  simp only [Edit.detachItem]
  split
  · exact (h.update _).announce (hi _)
  · exact h

theorem setCanExecute (h : Tells R e) {value : Bool}
    (hready : value = true → R .readyToExecute { e.query with canExecute := value }) :
    Tells R (e.setCanExecute value) := by
  simp only [Edit.setCanExecute]
  split
  · rename_i hvalue
    exact (h.update _).announce (hready (Bool.and_eq_true_iff.1 hvalue).1)
  · exact h

end Tells

/-! ## The last notice -/

/-- The last notice shows the query as it is now. -/
def Current (e : Edit) : Prop := ∀ n, e.notices.getLast? = some n → n.seen = e.query

namespace Current

theorem start (q : Query) : (start q).Current := by
  rintro n ⟨⟩

theorem announce (e : Edit) (event : Event) : (e.announce event).Current := by
  intro n hn
  rw [notices_announce, List.getLast?_concat, Option.some.injEq] at hn
  rw [← hn]
  rfl

/-- Joins that are dropped one after the other are all announced. -/
theorem dropJoin (h : e.Current) (j : JoinId) : (e.dropJoin j).Current := by
  rcases e.dropJoin_cases j with ⟨join, -, -, heq⟩ | ⟨-, heq⟩
  · rw [heq]
    exact announce _ _
  · rw [heq]
    exact h

theorem each_dropJoin (h : e.Current) (js : List JoinId) : (e.each js Edit.dropJoin).Current :=
  each_induction (fun _ j _ he => he.dropJoin j) h

end Current

/-! ## No notice at all -/

/-- As long as nothing is announced, the query is the given one. -/
def Told (q : Query) (e : Edit) : Prop := e.notices = [] → e.query = q

namespace Told

variable {q : Query}

theorem start (q : Query) : (start q).Told q := fun _ => rfl

theorem announce (e : Edit) (event : Event) : (e.announce event).Told q := by
  intro hnone
  exact absurd hnone (List.append_ne_nil_of_right_ne_nil _ (List.cons_ne_nil _ _))

theorem of_cases {q' : Query} {event : Event}
    (h : e = .start q ∨ e = (Edit.start q').announce event) : e.Told q := by
  rcases h with rfl | rfl
  · exact .start q
  · exact .announce _ event

theorem dropJoin (h : e.Told q) (j : JoinId) : (e.dropJoin j).Told q := by
  rcases e.dropJoin_cases j with ⟨join, -, -, heq⟩ | ⟨-, heq⟩
  · rw [heq]
    exact .announce _ _
  · rw [heq]
    exact h

theorem each_dropJoin (h : e.Told q) (js : List JoinId) : (e.each js Edit.dropJoin).Told q :=
  each_induction (fun _ j _ he => he.dropJoin j) h

end Told

/-! ## One notice at most -/

/-- The query is changed at once, and at most one notice tells of it. -/
def AtOnce (e : Edit) : Prop :=
  e = .start e.query ∨ ∃ event, e = (Edit.start e.query).announce event

namespace AtOnce

theorem of_cases {q q' : Query} {event : Event}
    (h : e = .start q ∨ e = (Edit.start q').announce event) : e.AtOnce := by
  rcases h with rfl | rfl
  · exact Or.inl rfl
  · exact Or.inr ⟨event, rfl⟩

theorem tells (h : e.AtOnce) {R : Event → Query → Prop} (hnow : ∀ event, R event e.query) :
    Tells R e := by
  rcases h with heq | ⟨event, heq⟩
  · rw [heq]
    exact .start _
  · rw [heq]
    exact (Tells.start _).announce (hnow event)

theorem throughout (h : e.AtOnce) (hnow : P e.query) : Throughout P e := by
  rcases h with heq | ⟨event, heq⟩
  · rw [heq]
    exact .start hnow
  · rw [heq]
    exact (Throughout.start hnow).announce event

theorem current (h : e.AtOnce) : e.Current := by
  rcases h with heq | ⟨event, heq⟩
  · rw [heq]
    exact .start _
  · rw [heq]
    exact .announce _ _

theorem setCanExecute (q : Query) (value : Bool) : ((start q).setCanExecute value).AtOnce := by
  rcases (start q).setCanExecute_cases value with heq | heq
  · rw [heq]
    exact Or.inl rfl
  · rw [heq]
    exact Or.inr ⟨_, rfl⟩

end AtOnce

end Edit

/-! ## The edits of the operations -/

/-- Whether an item is a column that does not count yet. -/
def Item.isUncounted (item : Item) : Bool := item.kind = .column && item.groupRole ≠ .count

namespace Query

variable {q : Query} {e : Edit}

theorem addTable_edit {c : ContainerId} (h : q.addTable c = .ok e) :
    e = ((Edit.start { q with tables := q.tables ++ [c] }).each (q.itemsOf c)
      Edit.attachItem).announce (.tableAdded c) := by
  unfold addTable at h
  split_ifs at h
  cases h
  rfl

theorem removeTable_edit {c : ContainerId} (h : q.removeTable c = .ok e) :
    e = (((Edit.start { q with tables := q.tables.erase c }).each (q.joinsOf c)
      Edit.dropJoin).each (q.itemsOf c) Edit.detachItem).announce (.tableRemoved c) := by
  unfold removeTable at h
  split_ifs at h
  cases h
  rfl

theorem setContainerAlias_edit {c : ContainerId} {a : Option String}
    (h : q.setContainerAlias c a = .ok e) : e = .start e.query := by
  unfold setContainerAlias at h
  split_ifs at h
  cases h
  rfl

/-- The edit in which the joins and the container of the constants are gone, and some items. -/
def dropConstantsUpTo (q : Query) (items : List ItemId) : Edit :=
  (((Edit.start q).each (q.joinsOf q.constants) Edit.dropJoin).update fun d =>
    { d with containers := d.containers.erase q.constants }).each items forgetItem

theorem dropConstantsUpTo_concat (q : Query) (items : List ItemId) (i : ItemId) :
    q.dropConstantsUpTo (items ++ [i]) = forgetItem (q.dropConstantsUpTo items) i := by
  simp only [dropConstantsUpTo, Edit.each, List.foldl_append, List.foldl_cons, List.foldl_nil]

/-- The edit in which the constants, their joins and their items are gone. -/
def dropConstants (q : Query) : Edit := q.dropConstantsUpTo (q.itemsOf q.constants)

theorem dropConstants_query (q : Query) : q.dropConstants.query = q.withoutConstants := by
  unfold dropConstants dropConstantsUpTo withoutConstants
  simp only [Edit.query_update, Edit.query_each _ Edit.query_forgetItem,
    Edit.query_each _ Edit.query_dropJoin, Edit.query_start, dropJoins]

theorem newConstants_edit (q : Query) (uuid : Uuid) :
    (q.newConstants uuid).2 = q.dropConstants.update fun w =>
      { w.handOut with
        containers := w.containers.insert q.withoutConstants.nextId (.ofConstants uuid)
        constants := q.withoutConstants.nextId } := by
  rw [← dropConstants_query]
  rfl

theorem insertItem_edit (q : Query) (c : ContainerId) (spec : ItemSpec) (uuid : Uuid) :
    (q.insertItem c spec uuid).2 =
      if q.isAttached c then (Edit.start (q.putItem c spec uuid)).attachItem q.nextId
      else .start (q.putItem c spec uuid) := rfl

/-- The edit in which the joins that use an item are gone, and the item from the lists. -/
def releaseItem (q : Query) (c : ContainerId) (i : ItemId) : Edit :=
  let e := (Edit.start q).each (q.usersOf c i) Edit.dropJoin
  if q.isAttached c then e.detachItem i else e

/-- That a known item is released is announced after its joins are gone. -/
theorem releaseItem_eq {i : ItemId} {item : Item} (hitem : q.item? i = some item) :
    q.releaseItem item.container i =
      let e := (Edit.start q).each (q.usersOf item.container i) Edit.dropJoin
      if q.isAttached item.container then
        (e.update (·.unlistItem i)).announce (.itemRemoved i item)
      else e := by
  have hknown := (Edit.item?_each_dropJoin (.start q) (q.usersOf item.container i) i).trans hitem
  simp only [releaseItem, Edit.detachItem_eq hknown]

/-- The query when an item has been taken from the joins and the lists, but is still known. -/
def released (q : Query) (c : ContainerId) (i : ItemId) : Query :=
  if q.isAttached c then (q.dropJoins (q.usersOf c i)).unlistItem i
  else q.dropJoins (q.usersOf c i)

theorem releaseItem_query (q : Query) (c : ContainerId) (i : ItemId) :
    (q.releaseItem c i).query = q.released c i := by
  unfold releaseItem released
  simp only
  split <;>
    simp only [Edit.query_detachItem, Edit.query_each _ Edit.query_dropJoin, Edit.query_start,
      dropJoins]

theorem released_frame (q : Query) (c : ContainerId) (i : ItemId) :
    ∃ selected sortList joins incidence,
      q.released c i = { q with selected, sortList, joins, incidence } := by
  unfold released
  rw [dropJoins_eq]
  split
  · exact ⟨_, _, _, _, rfl⟩
  · exact ⟨q.selected, q.sortList, _, _, rfl⟩

theorem selected_released (q : Query) (c : ContainerId) (i : ItemId) :
    (q.released c i).selected =
      if q.isAttached c then q.selected.filter (· ≠ i) else q.selected := by
  unfold released
  rw [dropJoins_eq]
  split <;> rfl

theorem sortList_released (q : Query) (c : ContainerId) (i : ItemId) :
    (q.released c i).sortList =
      if q.isAttached c then q.sortList.filter (· ≠ i) else q.sortList := by
  unfold released
  rw [dropJoins_eq]
  split <;> rfl

theorem removeItem_edit {i : ItemId} {x : Item × Edit} (h : q.removeItem i = .ok x) :
    x.2 = (q.releaseItem x.1.container i).update (·.takeItem x.1.container i) := by
  unfold removeItem at h
  split at h
  · cases h
  · cases h
    rfl

theorem moveItem_edit {i : ItemId} {index : Nat} (h : q.moveItem i index = .ok e) :
    e = (Edit.start { q with selected := (q.selected.erase i).insertIdx index i }).announce
      (.itemMoved i) := by
  unfold moveItem at h
  split_ifs at h
  cases h
  rfl

theorem moveSortedItemToEnd_edit {i : ItemId} (h : q.moveSortedItemToEnd i = .ok e) :
    e = .start e.query := by
  unfold moveSortedItemToEnd at h
  split_ifs at h
  cases h
  rfl

/-- The query after an item has been changed, with what follows the change. -/
def changedItem (q : Query) (i : ItemId) (item : Item) (p : ItemProperty) (f : Item → Item) :
    Query :=
  if q.isAttached item.container then p.follow (q.updateItem i f) i else q.updateItem i f

theorem changeItem_edit {i : ItemId} {p : ItemProperty} {f : Item → Item}
    (h : q.changeItem i p f = .ok e) :
    ∃ item, q.item? i = some item ∧
      (e = .start q ∨ e = (Edit.start (q.changedItem i item p f)).announce
        (.itemChanged i ⟨p.property, p.read item, p.read (f item)⟩)) := by
  unfold changeItem at h
  split at h
  · cases h
  · rename_i item hitem
    refine ⟨item, hitem, ?_⟩
    simp only at h
    split at h
    · cases h
      exact Or.inl rfl
    · cases h
      exact Or.inr rfl

theorem addJoin_edit {join : Join} {x : JoinId × Edit} (h : q.addJoin join = .ok x) :
    x.2 = (Edit.start x.2.query).announce (.joinAdded q.nextId) := by
  unfold addJoin at h
  split at h
  · cases h
  · cases h
  · simp only [bind, Except.bind] at h
    split_ifs at h
    split at h
    · cases h
    · split at h
      · cases h
      · cases h
        rfl

theorem removeJoin_edit {j : JoinId} {x : Join × Edit} (h : q.removeJoin j = .ok x) :
    x.2 = (Edit.start q).dropJoin j ∧ ∃ ends, q.ends? j = some ends := by
  unfold removeJoin at h
  split at h
  · cases h
  · split at h
    · cases h
    · rename_i ends hends
      cases h
      exact ⟨rfl, ends, hends⟩

theorem setOuter_edit {j : JoinId} {side : Side} {outer : Bool}
    (h : q.setOuter j side outer = .ok e) :
    ∃ c changes, q.differingJoins c outer = .ok changes ∧
      e = (Edit.start q).each changes (flipOuter outer) := by
  unfold setOuter at h
  split at h
  · cases h
  · split at h
    · cases h
    · rename_i item _
      simp only [bind, Except.bind] at h
      split at h
      · cases h
      · rename_i changes hchanges
        cases h
        exact ⟨item.container, changes, hchanges, rfl⟩

theorem setComparator_edit {j : JoinId} {comparator : String}
    (h : q.setComparator j comparator = .ok e) :
    ∃ join, q.join? j = some join ∧
      (e = .start q ∨ e = (Edit.start (q.updateJoin j ({ · with comparator }))).announce
        (.joinChanged j ⟨.comparator, .text (some join.comparator), .text (some comparator)⟩)) := by
  unfold setComparator at h
  split at h
  · cases h
  · rename_i join hjoin
    refine ⟨join, hjoin, ?_⟩
    split_ifs at h
    · cases h
      exact Or.inl rfl
    · cases h
      exact Or.inr rfl

/-- The columns that are counted are selected, and have the roles that are told. -/
theorem mem_uncountedColumns {x : ItemId × GroupRole} :
    x ∈ q.uncountedColumns ↔ x.1 ∈ q.selected ∧
      ∃ item, q.item? x.1 = some item ∧ item.isUncounted ∧ item.groupRole = x.2 := by
  unfold uncountedColumns
  rw [List.mem_filterMap]
  constructor
  · rintro ⟨i, hi, hx⟩
    obtain ⟨item, hitem, hx⟩ := Option.bind_eq_some_iff.1 hx
    split at hx
    · rename_i hcolumn
      cases hx
      exact ⟨hi, item, hitem, by simpa [Item.isUncounted] using hcolumn, rfl⟩
    · cases hx
  · obtain ⟨i, role⟩ := x
    rintro ⟨hi, item, hitem, hcolumn, rfl⟩
    refine ⟨i, hi, Option.bind_eq_some_iff.2 ⟨item, hitem, if_pos ?_⟩⟩
    simpa [Item.isUncounted] using hcolumn

/-- They stand in the order of the selection. -/
theorem fst_uncountedColumns (q : Query) :
    q.uncountedColumns.map Prod.fst = q.selected.filter (q.itemHas Item.isUncounted) := by
  unfold uncountedColumns
  rw [List.map_filterMap, ← List.filterMap_eq_filter]
  refine List.filterMap_congr fun i _ => ?_
  cases hitem : q.item? i with
  | none => simp [itemHas, hitem, Option.guard]
  | some item =>
    simp only [itemHas, hitem, Item.isUncounted, Option.guard, Option.any_some, Option.bind_some,
      bind]
    split <;> simp_all

/-- The columns are counted before grouping is on. -/
def countColumns (q : Query) : Edit :=
  (q.startCompound.each q.uncountedColumns countColumn).setCanExecute true

theorem setGrouping_edit (q : Query) (enabled : Bool) :
    q.setGrouping enabled = .start q ∨
      q.grouping ≠ enabled ∧
        q.setGrouping enabled =
          ((if enabled then q.countColumns else .start q).update
            ({ · with grouping := enabled })).announce
              (.queryChanged ⟨.grouping, .flag q.grouping, .flag enabled⟩) := by
  unfold setGrouping
  simp only
  by_cases hsame : q.grouping = enabled
  · rw [if_pos hsame]
    exact Or.inl rfl
  · rw [if_neg hsame]
    exact Or.inr ⟨hsame, rfl⟩

theorem setGlobalFilter_edit (q : Query) (condition : Option String) :
    q.setGlobalFilter condition = .start q ∨
      q.setGlobalFilter condition = (Edit.start { q with globalFilter := condition }).announce
        (.queryChanged ⟨.globalFilter, .text q.globalFilter, .text condition⟩) := by
  unfold setGlobalFilter
  split
  · exact Or.inl rfl
  · exact Or.inr rfl

theorem defineHandWritten_edit (q : Query) (text : String) :
    q.defineHandWritten text = .start q ∨
      q.defineHandWritten text = (Edit.start { q with handWritten := some text }).announce
        (.queryChanged ⟨.handWritten, .text q.handWritten, .text (some text)⟩) := by
  unfold defineHandWritten
  split
  · exact Or.inl rfl
  · exact Or.inr rfl

theorem removeHandWritten_edit (q : Query) :
    q.removeHandWritten = .start q ∨
      q.removeHandWritten = (Edit.start { q with handWritten := none }).announce
        (.queryChanged ⟨.handWritten, .text q.handWritten, .text none⟩) := by
  unfold removeHandWritten
  split
  · exact Or.inl rfl
  · rename_i text htext
    rw [htext]
    exact Or.inr rfl

end Query

/-- Whether an operation takes several steps, of which each may be announced. -/
def Operation.isCascade : Operation → Bool
  | .addTable _ | .removeTable _ | .newConstants _ | .removeItem _ | .setGrouping _
  | .setOuter .. => true
  | _ => false

namespace Query

variable {q : Query} {e : Edit} {op : Operation} {reply : Reply}

/-- The other operations change the query at once. -/
theorem perform_atOnce (h : q.perform op = .ok (reply, e)) (hop : op.isCascade = false) :
    e.AtOnce := by
  cases op with
  | addTable | removeTable | newConstants | removeItem | setGrouping | setOuter => cases hop
  | newTable | setName | setZoomLevel | setStreamingRowLimit | setStreaming | setDialect =>
    cases h
    exact Or.inl rfl
  | setContainerAlias c a =>
    exact Or.inl (setContainerAlias_edit (Outcome.ofEdit_ok h).2)
  | addItem c spec uuid =>
    obtain ⟨x, hx, -, rfl⟩ := Outcome.map_ok h
    obtain ⟨-, rfl⟩ := addItem_ok hx
    rw [insertItem_edit]
    split
    · exact Or.inr ⟨_, rfl⟩
    · exact Or.inl rfl
  | moveItem i index =>
    rw [moveItem_edit (Outcome.ofEdit_ok h).2]
    exact Or.inr ⟨_, rfl⟩
  | moveSortedItemToEnd i =>
    exact Or.inl (moveSortedItemToEnd_edit (Outcome.ofEdit_ok h).2)
  | setSelected i v | setSortOrder i v | setGroupRole i v | setItemAlias i v | setFilter i v
  | setHaving i v | setItemName i v =>
    obtain ⟨item, -, heq⟩ := changeItem_edit (Outcome.ofEdit_ok h).2
    exact .of_cases heq
  | addJoin join =>
    obtain ⟨x, hx, -, rfl⟩ := Outcome.map_ok h
    exact Or.inr ⟨_, addJoin_edit hx⟩
  | removeJoin j =>
    obtain ⟨x, hx, -, rfl⟩ := Outcome.map_ok h
    rw [(removeJoin_edit hx).1]
    rcases (Edit.start q).dropJoin_cases j with ⟨join, -, -, heq⟩ | ⟨-, heq⟩
    · rw [heq]
      exact Or.inr ⟨_, rfl⟩
    · rw [heq]
      exact Or.inl rfl
  | setComparator j v =>
    obtain ⟨join, -, heq⟩ := setComparator_edit (Outcome.ofEdit_ok h).2
    exact .of_cases heq
  | setGlobalFilter v =>
    cases h
    exact .of_cases (q.setGlobalFilter_edit v)
  | setRowLimit v =>
    cases h
    exact Or.inr ⟨_, rfl⟩
  | defineHandWritten text =>
    cases h
    exact .of_cases (q.defineHandWritten_edit text)
  | removeHandWritten =>
    cases h
    exact .of_cases q.removeHandWritten_edit
  | setCanExecute v =>
    cases h
    exact .setCanExecute q v
  | startCompound =>
    cases h
    exact .setCanExecute q false
  | endCompound =>
    cases h
    exact .setCanExecute q true

/-! ## Notices and calls -/

/-- The notices that an operation sends; a refused one sends none. -/
def notices (q : Query) (op : Operation) : List Notice :=
  match q.perform op with
  | .ok (_, e) => e.notices
  | .error _ => []

theorem notices_ok (h : q.perform op = .ok (reply, e)) :
    q.notices op = e.notices := by
  rw [notices, h]

theorem notices_error {err : QueryError} (h : q.perform op = .error err) :
    q.notices op = [] := by
  rw [notices, h]

/-- Whoever is told of an operation knows that it was not refused. -/
theorem edit_of_mem_notices {n : Notice} (hn : n ∈ q.notices op) :
    ∃ reply e, q.perform op = .ok (reply, e) ∧ n ∈ e.notices := by
  cases hp : q.perform op with
  | error err =>
    rw [notices_error hp] at hn
    cases hn
  | ok x =>
    rw [notices_ok hp] at hn
    exact ⟨x.1, x.2, rfl, hn⟩

end Query

namespace Registry

variable {α ε : Type} {r : Registry α} {events : List ε}

theorem mem_deliverAll {x : α × ε} :
    x ∈ r.deliverAll events ↔ x.1 ∈ r.callOrder ∧ x.2 ∈ events := by
  obtain ⟨a, event⟩ := x
  simp only [deliverAll, deliver, List.mem_flatMap, List.mem_map, Prod.mk.injEq]
  constructor
  · rintro ⟨event', hevent, a', ha, rfl, rfl⟩
    exact ⟨ha, hevent⟩
  · rintro ⟨ha, hevent⟩
    exact ⟨event, hevent, a, ha, rfl, rfl⟩

/-- The last call delivers the last event. -/
theorem getLast?_deliverAll {x : α × ε} (h : (r.deliverAll events).getLast? = some x) :
    events.getLast? = some x.2 := by
  rcases List.eq_nil_or_concat events with rfl | ⟨init, last, rfl⟩
  · cases h
  · rw [List.concat_eq_append] at h ⊢
    have hsplit : r.deliverAll (init ++ [last]) = r.deliverAll init ++ r.deliver last := by
      simp [deliverAll]
    rw [List.getLast?_concat]
    rcases List.eq_nil_or_concat r.callOrder with hnone | ⟨others, a, hsome⟩
    · -- Without observers there are no calls at all.
      have hnil : r.deliverAll (init ++ [last]) = [] :=
        List.flatMap_eq_nil_iff.2 fun event _ => by simp [deliver, hnone]
      rw [hnil] at h
      cases h
    · rw [hsplit, deliver, hsome, List.concat_eq_append, List.map_append, ← List.append_assoc,
        List.map_singleton, List.getLast?_concat, Option.some.injEq] at h
      rw [← h]

theorem deliverAll_eq_nil (h : r.observers ≠ []) : r.deliverAll events = [] ↔ events = [] := by
  have hsome : r.callOrder ≠ [] := by simpa [callOrder] using h
  have hdeliver : ∀ event : ε, r.deliver event ≠ [] := fun event => by simpa [deliver] using hsome
  cases events <;> simp [deliverAll, hdeliver]

end Registry

namespace ObservedQuery

variable {α : Type}

theorem calls_execute (o : ObservedQuery α) (op : Operation) :
    (o.execute op).calls = o.observers.deliverAll (o.query.notices op) := by
  cases h : o.query.perform op with
  | error err =>
    rw [execute_of_error h, Query.notices_error h]
    rfl
  | ok x => rw [execute_of_ok h, Query.notices_ok h]

/-- What an observer is called with is a notice of the operation. -/
theorem notice_of_call {o : ObservedQuery α} {op : Operation} {x : α × Notice}
    (hx : x ∈ (o.execute op).calls) : x.2 ∈ o.query.notices op := by
  rw [calls_execute, Registry.mem_deliverAll] at hx
  exact hx.2

theorem after_execute (o : ObservedQuery α) (op : Operation) :
    (o.execute op).after = { o with query := o.query.after op } := by
  cases h : o.query.perform op with
  | error err => rw [execute_of_error h, Query.after_error h]
  | ok x => rw [execute_of_ok h, Query.after_ok h]

end ObservedQuery

end LiveSelect
