import LiveSelect.Proofs.Linkage

/-! # Giving columns their properties

The properties of the columns are set when everything is made. Setting them is never refused,
as the items are known, and they are set item by item, so that in the end every item has what
its column declares. Before, no item is selected or sorted by; so the two lists get the flagged
items in the order in which the columns are described. -/

namespace LiveSelect

namespace ColumnDefinition

/-- An item with the properties of a column. A role that the column leaves out stays as it is. -/
def describe (k : ColumnDefinition) (item : Item) : Item :=
  { item with
    aliasName := k.aliasName
    selected := k.selected
    groupRole := k.groupRole.getD item.groupRole
    sortOrder := k.sortOrder
    filter := k.filter
    having := k.having }

/-- What an item has that is made of a column and has got its properties. -/
def declared (k : ColumnDefinition) (kind : ItemKind) : ItemSpec :=
  { k.made kind with
    aliasName := k.aliasName
    selected := k.selected
    groupRole := k.groupRole.getD .grouped
    sortOrder := k.sortOrder
    filter := k.filter
    having := k.having }

end ColumnDefinition

namespace QueryDefinition

open Query

variable {q q₀ : Query} {i : ItemId} {item : Item}

/-! ## One item -/

theorem item?_updateItem_self (hitem : q.item? i = some item) (f : Item → Item) :
    (q.updateItem i f).item? i = some (f item) := by
  rw [WellFormed.item?_updateItem, if_pos rfl, hitem]
  rfl

/-- Setting a property of a known item is not refused. -/
theorem accept_changeItem (hitem : q.item? i = some item) {p : ItemProperty} {f : Item → Item}
    (hread : p.read item = p.read (f item) → f item = item) :
    accept (q.changeItem i p f) = .ok
      (if p.read item ≠ p.read (f item) ∧ q.isAttached item.container then
        p.follow (q.updateItem i f) i
      else q.updateItem i f) := by
  unfold changeItem
  rw [hitem]
  by_cases heq : p.read item = p.read (f item)
  · simp only [if_pos heq]
    rw [if_neg fun h => h.1 heq, updateItem_eq_self hitem (hread heq)]
    rfl
  · have hsame : (q.updateItem i f).isAttached item.container = q.isAttached item.container := rfl
    simp only [if_neg heq, hsame]
    by_cases hattached : q.isAttached item.container
    · rw [if_pos (And.intro heq hattached), if_pos hattached]
      rfl
    · rw [if_neg hattached, if_neg fun h => hattached h.2]
      rfl

/-- A property that nothing follows is set and nothing else. -/
theorem accept_plain (hitem : q.item? i = some item) {p : ItemProperty} {f : Item → Item}
    (hread : p.read item = p.read (f item) → f item = item) (hplain : ∀ q i, p.follow q i = q) :
    accept (q.changeItem i p f) = .ok (q.updateItem i f) := by
  rw [accept_changeItem hitem hread, hplain, ite_self]

theorem accept_setSortOrder (hitem : q.item? i = some item) (value : SortOrder) :
    ∃ sortList, accept (q.setSortOrder i value) =
        .ok { q.updateItem i ({ · with sortOrder := value }) with sortList } ∧
      (item.sortOrder = .unsorted → q.isAttached item.container → i ∉ q.sortList →
        sortList = q.sortList ++ if value ≠ .unsorted then [i] else []) := by
  let f : Item → Item := ({ · with sortOrder := value })
  have hset : accept (q.setSortOrder i value) = _ :=
    accept_changeItem (p := .sortOrder) (f := f) hitem fun heq => by
      have hsame : item.sortOrder = value := PropertyValue.sortOrder.inj heq
      subst hsame
      rfl
  split at hset
  · change _ = Except.ok ((q.updateItem i f).syncSortList i) at hset
    have hnew : (q.updateItem i f).itemHas Item.isSorted i = decide (value ≠ .unsorted) :=
      itemHas_of_item? (item?_updateItem_self hitem f)
    rw [syncSortList_eq, List.filter_singleton, hnew] at hset
    refine ⟨_, hset, fun hold hattached hmem => ?_⟩
    rw [filter_ne_of_not_mem (l := (q.updateItem i f).sortList) hmem]
    cases value <;> rfl
  · rename_i hsame
    refine ⟨_, hset, fun hold hattached hmem => ?_⟩
    -- The item was not sorted by before and is not now.
    have hvalue : value = .unsorted := by
      by_contra hne
      refine hsame ⟨fun heq => hne ?_, hattached⟩
      rw [← hold]
      exact (PropertyValue.sortOrder.inj heq).symm
    rw [if_neg (not_not_intro hvalue), List.append_nil]

theorem exists_syncSelection (q : Query) (i : ItemId) :
    ∃ selected, q.syncSelection i = { q with selected } := by
  unfold syncSelection
  split
  · split
    · exact ⟨_, rfl⟩
    · exact ⟨_, rfl⟩
  · exact ⟨_, rfl⟩

theorem accept_setSelected (hitem : q.item? i = some item) (value : Bool) :
    ∃ selected, accept (q.setSelected i value) =
        .ok { q.updateItem i ({ · with selected := value }) with selected } ∧
      (item.selected = false → q.isAttached item.container → i ∉ q.selected →
        selected = q.selected ++ if value then [i] else []) := by
  let f : Item → Item := ({ · with selected := value })
  have hset : accept (q.setSelected i value) = _ :=
    accept_changeItem (p := .selected) (f := f) hitem fun heq => by
      have hsame : item.selected = value := PropertyValue.flag.inj heq
      subst hsame
      rfl
  split at hset
  · change _ = Except.ok ((q.updateItem i f).syncSelection i) at hset
    have hnew : (q.updateItem i f).itemHas (·.selected) i = value :=
      itemHas_of_item? (item?_updateItem_self hitem f)
    obtain ⟨selected, hsync⟩ := exists_syncSelection (q.updateItem i f) i
    rw [hsync] at hset
    refine ⟨selected, hset, fun hold hattached hmem => ?_⟩
    have hlast := syncSelection_of_not_mem (q := q.updateItem i f) hmem
    rw [hsync, List.filter_singleton, hnew, Bool.cond_eq_ite] at hlast
    exact congrArg Query.selected hlast
  · rename_i hsame
    refine ⟨_, hset, fun hold hattached hmem => ?_⟩
    -- The item was not selected before and is not now.
    have hvalue : value = false := by
      by_contra hne
      refine hsame ⟨fun heq => hne ?_, hattached⟩
      rw [← hold]
      exact (PropertyValue.flag.inj heq).symm
    rw [hvalue, if_neg Bool.false_ne_true, List.append_nil]

theorem updateItem_updateItem (q : Query) (i : ItemId) (f g : Item → Item) :
    (q.updateItem i f).updateItem i g = q.updateItem i (g ∘ f) := by
  unfold updateItem
  rw [IdMap.modify_modify]

/-- Gives an item the role that a column declares. -/
def setRole (q : Query) (i : ItemId) (k : ColumnDefinition) : Except DefinitionError Query :=
  match k.groupRole with
  | some role => accept (q.setGroupRole i role)
  | none => .ok q

theorem setRole_ok (hitem : q.item? i = some item) (k : ColumnDefinition) :
    setRole q i k =
      .ok (q.updateItem i fun x => { x with groupRole := k.groupRole.getD x.groupRole }) := by
  unfold setRole
  cases k.groupRole with
  | none => exact congrArg Except.ok (updateItem_eq_self hitem rfl).symm
  | some role =>
    exact accept_plain (p := .groupRole) (f := ({ · with groupRole := role })) hitem
      (fun heq => congrArg (fun r => { item with groupRole := r })
        (PropertyValue.groupRole.inj heq).symm) fun _ _ => rfl

/-- The properties are set one after the other, the flags last. -/
theorem setProperties_eq (q : Query) (i : ItemId) (k : ColumnDefinition) :
    setProperties q (i, k) = (do
      let q ← setRole q i k
      let q ← accept (q.setItemAlias i k.aliasName)
      let q ← accept (q.setFilter i k.filter)
      let q ← accept (q.setHaving i k.having)
      let q ← accept (q.setSortOrder i k.sortOrder)
      accept (q.setSelected i k.selected)) := by
  unfold setProperties setRole
  dsimp only
  cases k.groupRole <;> rfl

/-- An item of an attached container that is neither selected nor sorted by. -/
structure Untouched (q : Query) (i : ItemId) (item : Item) : Prop where
  selected : item.selected = false
  sortOrder : item.sortOrder = .unsorted
  attached : q.isAttached item.container
  not_mem_selected : i ∉ q.selected
  not_mem_sortList : i ∉ q.sortList

/-- The properties of a known item are set without a refusal. An untouched item comes to the end
of the lists in which its column puts it. -/
theorem setProperties_ok (hitem : q.item? i = some item) (k : ColumnDefinition) :
    ∃ selected sortList, setProperties q (i, k) =
        .ok { q.updateItem i k.describe with selected, sortList } ∧
      (Untouched q i item →
        selected = q.selected ++ (if k.selected then [i] else []) ∧
        sortList = q.sortList ++ if k.sortOrder ≠ .unsorted then [i] else []) := by
  -- Four properties are set and nothing else.
  let f₁ : Item → Item := fun x => { x with groupRole := k.groupRole.getD x.groupRole }
  let f₂ : Item → Item := ({ · with aliasName := k.aliasName })
  let f₃ : Item → Item := ({ · with filter := k.filter })
  let f₄ : Item → Item := ({ · with having := k.having })
  let q₁ := q.updateItem i f₁
  let q₂ := q₁.updateItem i f₂
  let q₃ := q₂.updateItem i f₃
  let q₄ := q₃.updateItem i f₄
  have h₁ : q₁.item? i = some (f₁ item) := item?_updateItem_self hitem f₁
  have h₂ : q₂.item? i = some (f₂ (f₁ item)) := item?_updateItem_self h₁ f₂
  have h₃ : q₃.item? i = some (f₃ (f₂ (f₁ item))) := item?_updateItem_self h₂ f₃
  have h₄ : q₄.item? i = some (f₄ (f₃ (f₂ (f₁ item)))) := item?_updateItem_self h₃ f₄
  have halias : accept (q₁.setItemAlias i k.aliasName) = .ok q₂ :=
    accept_plain (p := .aliasName) h₁ (fun heq =>
      congrArg (fun a => { f₁ item with aliasName := a }) (PropertyValue.text.inj heq).symm)
      fun _ _ => rfl
  have hfilter : accept (q₂.setFilter i k.filter) = .ok q₃ :=
    accept_plain (p := .filter) h₂ (fun heq =>
      congrArg (fun a => { f₂ (f₁ item) with filter := a }) (PropertyValue.text.inj heq).symm)
      fun _ _ => rfl
  have hhaving : accept (q₃.setHaving i k.having) = .ok q₄ :=
    accept_plain (p := .having) h₃ (fun heq =>
      congrArg (fun a => { f₃ (f₂ (f₁ item)) with having := a }) (PropertyValue.text.inj heq).symm)
      fun _ _ => rfl
  -- The two flags are set together with their lists.
  let f₅ : Item → Item := ({ · with sortOrder := k.sortOrder })
  let f₆ : Item → Item := ({ · with selected := k.selected })
  obtain ⟨sortList, hsort, hsorted⟩ := accept_setSortOrder h₄ k.sortOrder
  let q₅ : Query := { q₄.updateItem i f₅ with sortList }
  have h₅ : q₅.item? i = some (f₅ (f₄ (f₃ (f₂ (f₁ item))))) := item?_updateItem_self h₄ f₅
  obtain ⟨selected, hselect, hselected⟩ := accept_setSelected h₅ k.selected
  have hall : (q₄.updateItem i f₅).updateItem i f₆ = q.updateItem i k.describe := by
    simp only [q₄, q₃, q₂, q₁, updateItem_updateItem]
    rfl
  have hlast : { q₅.updateItem i f₆ with selected } =
      { q.updateItem i k.describe with selected, sortList } := by
    rw [← hall]
    rfl
  refine ⟨selected, sortList, ?_, fun h => ?_⟩
  · rw [setProperties_eq, bind_of_ok (setRole_ok hitem k), bind_of_ok halias, bind_of_ok hfilter,
      bind_of_ok hhaving, bind_of_ok hsort, hselect, hlast]
  · exact ⟨hselected h.selected h.attached h.not_mem_selected,
      hsorted h.sortOrder h.attached h.not_mem_sortList⟩

/-! ## All items -/

/-- The items of the columns with a flag, in their order. -/
def itemsWith (p : ColumnDefinition → Bool) (columns : List (ItemId × ColumnDefinition)) :
    List ItemId :=
  (columns.filter fun x => p x.2).map Prod.fst

theorem itemsWith_concat (p : ColumnDefinition → Bool) (done : List (ItemId × ColumnDefinition))
    (x : ItemId × ColumnDefinition) :
    itemsWith p (done ++ [x]) = itemsWith p done ++ if p x.2 then [x.1] else [] := by
  rw [itemsWith, List.filter_append, List.map_append, List.filter_singleton, Bool.cond_eq_ite,
    apply_ite (List.map Prod.fst)]
  rfl

theorem mem_of_mem_itemsWith {p : ColumnDefinition → Bool}
    {columns : List (ItemId × ColumnDefinition)} (h : i ∈ itemsWith p columns) :
    i ∈ columns.map Prod.fst :=
  (List.filter_sublist.map _).subset h

/-- What a query has by the time some of the columns are described, when it started from `q₀`. -/
structure Described (q₀ : Query) (done : List (ItemId × ColumnDefinition)) (q : Query) : Prop where
  rest : ∃ items, q =
    { q₀ with
      items
      selected := itemsWith (·.selected) done
      sortList := itemsWith (·.sortOrder ≠ .unsorted) done }
  described : ∀ x ∈ done, q.item? x.1 = (q₀.item? x.1).map x.2.describe
  others : ∀ i, i ∉ done.map Prod.fst → q.item? i = q₀.item? i

/-- Whether an item belongs to an attached container and has no flag. -/
def Plain (q : Query) (i : ItemId) : Prop :=
  ∃ item, q.item? i = some item ∧ item.selected = false ∧ item.sortOrder = .unsorted ∧
    q.isAttached item.container

theorem Described.step {done : List (ItemId × ColumnDefinition)} (h : Described q₀ done q)
    (hnew : i ∉ done.map Prod.fst) (hplain : Plain q₀ i) (k : ColumnDefinition) :
    ∃ q', setProperties q (i, k) = .ok q' ∧ Described q₀ (done ++ [(i, k)]) q' := by
  obtain ⟨item, hitem, hselected, hsorted, hattached⟩ := hplain
  obtain ⟨selected, sortList, hset, hlists⟩ :=
    setProperties_ok ((h.others i hnew).trans hitem) k
  obtain ⟨items, hrest⟩ := h.rest
  have huntouched : Untouched q i item := by
    refine ⟨hselected, hsorted, ?_, ?_, ?_⟩
    · rw [hrest]
      exact hattached
    · rw [hrest]
      exact fun hmem => hnew (mem_of_mem_itemsWith (p := (·.selected)) hmem)
    · rw [hrest]
      exact fun hmem => hnew (mem_of_mem_itemsWith (p := (·.sortOrder ≠ .unsorted)) hmem)
  obtain ⟨hsel, hsort⟩ := hlists huntouched
  refine ⟨_, hset, ?_, ?_, ?_⟩
  · refine ⟨(q.updateItem i k.describe).items, ?_⟩
    simp only [hsel, hsort, itemsWith_concat, decide_eq_true_eq, updateItem]
    rw [hrest]
  · intro x hx
    have hfind := WellFormed.item?_updateItem (q := q) (i := i) (f := k.describe) x.1
    refine hfind.trans ?_
    rcases List.mem_append.1 hx with hx | hx
    · have hne : x.1 ≠ i := fun heq => hnew (heq ▸ List.mem_map_of_mem hx)
      rw [if_neg hne]
      exact h.described x hx
    · obtain rfl := List.mem_singleton.1 hx
      rw [if_pos rfl, h.others i hnew]
  · intro k' hk'
    rw [List.map_append, List.mem_append, List.map_singleton, List.mem_singleton, not_or] at hk'
    refine (WellFormed.item?_updateItem (q := q) (i := i) (f := k.describe) k').trans ?_
    rw [if_neg hk'.2, h.others k' hk'.1]

/-- All columns are described, when each has an item of its own without a flag. -/
theorem describe_all {columns : List (ItemId × ColumnDefinition)}
    (hnodup : (columns.map Prod.fst).Nodup) (hplain : ∀ x ∈ columns, Plain q₀ x.1)
    (hselected : q₀.selected = []) (hsortList : q₀.sortList = []) :
    ∃ q, columns.foldlM setProperties q₀ = .ok q ∧ Described q₀ columns q := by
  have hbegin : Described q₀ [] q₀ := by
    refine ⟨⟨q₀.items, ?_⟩, fun x hx => absurd hx List.not_mem_nil, fun _ _ => rfl⟩
    cases q₀
    cases hselected
    cases hsortList
    rfl
  refine foldlM_runs hbegin fun done x rest q hsplit hdone => ?_
  rw [hsplit, List.map_append, List.map_cons, List.nodup_append] at hnodup
  refine hdone.step (fun hmem => hnodup.2.2 _ hmem _ List.mem_cons_self rfl) ?_ x.2
  exact hplain x (hsplit ▸ List.mem_append_right _ List.mem_cons_self)

end QueryDefinition

end LiveSelect
