import LiveSelect.Proofs.Unseen

/-! # The WHERE clause

The conditions of the statement come from the filters of items, and one condition may be set for
the query as a whole. The filters are read from the containers that are attached, first the
constants and then the tables in their order, whether or not the items are selected. An item is
listed once, in the container that owns it, so its filter makes one condition, and an item of any
other container makes none. The condition of the query comes last, behind the same separator; it
is written with a space before it, which is seen only where it comes first. -/

namespace LiveSelect

/-! ## Entries of a clause -/

/-- One entry more stands behind a separator. -/
theorem clause_concat (keyword separator last : String) {entries : List String}
    (h : entries ≠ []) :
    clause keyword separator (entries ++ [last]) =
      clause keyword separator entries ++ separator ++ last := by
  rw [clause_of_ne_nil _ _ h, clause_of_ne_nil _ _ (List.append_ne_nil_of_left_ne_nil h _),
    String.intercalate_append_of_ne_nil h (List.cons_ne_nil _ _), String.intercalate_singleton]
  simp only [String.append_assoc]

/-- A clause is absent just if it has no entry. -/
theorem clause_eq_empty_iff {keyword : String} (hkeyword : keyword ≠ "") (separator : String)
    (entries : List String) : clause keyword separator entries = "" ↔ entries = [] := by
  constructor
  · intro hempty
    by_contra hentries
    rw [clause_of_ne_nil _ _ hentries, String.append_eq_empty_iff] at hempty
    exact hkeyword hempty.1
  · rintro rfl
    rfl

/-! ## The items with filters -/

/-- Whether the filter of an item makes a condition. -/
def Item.isFiltered (item : Item) : Bool := item.activeFilter?.isSome

theorem Item.activeFilter?_eq_some {item : Item} {condition : String} :
    item.activeFilter? = some condition ↔
      item.filter = some condition ∧ Text.isBlank condition = false := by
  rw [activeFilter?, Text.nonBlank?, Option.filter_eq_some_iff, Bool.not_eq_true']

theorem Text.nonEmpty?_eq_none {s : Option String} :
    nonEmpty? s = none ↔ s = none ∨ s = some "" := by
  cases s with
  | none => simp [nonEmpty?]
  | some t => simp [nonEmpty?, Option.filter_eq_none_iff]

namespace Query

variable {q : Query} {i : ItemId}

/-- The items that make conditions, whether or not they are selected: those of the constants,
then those of each table. -/
def filteredItems (q : Query) : List ItemId :=
  (q.constants :: q.tables).flatMap fun c => (q.itemsOf c).filter (q.itemHas Item.isFiltered)

theorem filteredItems_eq (q : Query) :
    q.filteredItems = q.filterCandidates.filter (q.itemHas Item.isFiltered) :=
  List.filter_flatMap.symm

theorem Owned.nodup_filteredItems (h : q.Owned) : q.filteredItems.Nodup := by
  rw [filteredItems_eq]
  exact h.nodup_filterCandidates.filter _

/-- The filters that make conditions are those in the statement that are not blank. -/
theorem Owned.mem_filteredItems (h : q.Owned) :
    i ∈ q.filteredItems ↔ ∃ item condition, q.item? i = some item ∧
      (item.container = q.constants ∨ item.container ∈ q.tables) ∧
      item.filter = some condition ∧ Text.isBlank condition = false := by
  rw [filteredItems_eq, List.mem_filter, h.mem_filterCandidates]
  simp only [isAttached_iff, home?_eq_some, itemHas, Option.any_eq_true, Item.isFiltered,
    Option.isSome_iff_exists, Item.activeFilter?_eq_some]
  constructor
  · rintro ⟨⟨c, ⟨item, hitem, rfl⟩, hattached⟩, item', hitem', condition, hcondition⟩
    rw [hitem, Option.some.injEq] at hitem'
    subst hitem'
    exact ⟨item, condition, hitem, hattached, hcondition⟩
  · rintro ⟨item, condition, hitem, hattached, hcondition⟩
    exact ⟨⟨_, ⟨item, hitem, rfl⟩, hattached⟩, item, hitem, condition, hcondition⟩

/-! ## Their conditions -/

/-- Every item with a filter makes one condition. -/
theorem filterTexts_spec (q : Query) (n : Naming) :
    List.Forall₂ (fun i text => ∃ item condition, q.item? i = some item ∧
        item.filter = some condition ∧ text = q.columnText n item ++ " " ++ condition)
      q.filteredItems (q.filterTexts n) := by
  rw [filteredItems_eq, filterTexts_eq]
  refine forall₂_entries (fun i _ hi => ?_) fun i _ hi => ?_
  · obtain ⟨item, hitem, hfiltered⟩ := (Option.any_eq_true _ _).1 hi
    obtain ⟨condition, hcondition⟩ := Option.isSome_iff_exists.1 hfiltered
    refine ⟨q.columnText n item ++ " " ++ condition, ?_, item, condition, hitem, ?_, rfl⟩
    · rw [filterOf?, hitem, Option.bind_some, filterText?, hcondition, Option.map_some]
    · exact (Item.activeFilter?_eq_some.1 hcondition).1
  · cases hitem : q.item? i with
    | none => rw [filterOf?, hitem, Option.bind_none]
    | some item =>
      rw [filterOf?_eq_none hitem]
      simpa [itemHas, hitem, Item.isFiltered] using hi

/-- The condition of the query is one entry more, and the first one behind one more space. -/
theorem whereText_eq (filters : List String) (condition? : Option String) :
    whereText filters condition? = clause " \nWHERE " " AND " (filters ++
      (Text.nonEmpty? condition?).toList.map fun c => if filters = [] then " " ++ c else c) := by
  unfold whereText
  cases Text.nonEmpty? condition? with
  | none => simp
  | some condition =>
    by_cases hfilters : filters = []
    · subst hfilters
      exact String.append_assoc
    · have hseparator : " AND" ++ " " = " AND " := rfl
      simp only [if_neg hfilters, Option.toList_some, List.map_cons, List.map_nil]
      rw [clause_concat _ _ _ hfilters, hseparator, String.append_assoc]

theorem whereClause_eq_empty_iff (q : Query) (n : Naming) :
    q.whereClause n = "" ↔
      q.filteredItems = [] ∧ (q.globalFilter = none ∨ q.globalFilter = some "") := by
  have hfilters : q.filterTexts n = [] ↔ q.filteredItems = [] := by
    rw [← List.length_eq_zero_iff, ← (q.filterTexts_spec n).length_eq, List.length_eq_zero_iff]
  rw [whereClause_eq, whereText_eq, clause_eq_empty_iff (by decide), List.append_eq_nil_iff,
    List.map_eq_nil_iff, Option.toList_eq_nil_iff, Text.nonEmpty?_eq_none, hfilters]

/-! ## The clause in the statement -/

/-- In a reachable query that selects something and has no text of its own, the WHERE clause joins
one condition for each item of the constants or of a table whose filter is not blank, in the order
of the containers and of their items, and then the condition of the query, if it is not empty. No
item is named twice, none of another container is, and without any condition there is no clause. -/
theorem Reachable.whereClause_exact (h : q.Reachable) (hhand : q.handWritten = none)
    (hselected : q.selected ≠ []) (n : Naming) :
    q.textWith n = q.selectClause n ++ q.fromClause n ++ " " ++ q.whereClause n ++
      (if q.grouping then q.groupByClause n ++ " " ++ q.havingClause n ++ " " else "") ++
      q.orderByClause n ∧
    (∃ filters,
      List.Forall₂ (fun i text => ∃ item condition, q.item? i = some item ∧
          item.filter = some condition ∧ text = q.columnText n item ++ " " ++ condition)
        q.filteredItems filters ∧
      q.whereClause n = clause " \nWHERE " " AND " (filters ++
        (Text.nonEmpty? q.globalFilter).toList.map fun c => if filters = [] then " " ++ c else c)) ∧
    (∀ i, i ∈ q.filteredItems ↔ ∃ item condition, q.item? i = some item ∧
      (item.container = q.constants ∨ item.container ∈ q.tables) ∧
      item.filter = some condition ∧ Text.isBlank condition = false) ∧
    q.filteredItems.Nodup ∧
    (q.whereClause n = "" ↔
      q.filteredItems = [] ∧ (q.globalFilter = none ∨ q.globalFilter = some "")) := by
  have howned : q.Owned := h.wellFormed.owned
  refine ⟨?_, ⟨_, q.filterTexts_spec n, whereText_eq _ _⟩, fun i => howned.mem_filteredItems,
    howned.nodup_filteredItems, q.whereClause_eq_empty_iff n⟩
  rw [textWith, hhand, Option.getD_none, derivedText, if_neg hselected]
  rfl

/-- Filters on a constant, on a sorted column that is not selected, and on an item of a table
that is not in the statement, and a condition on the whole query. -/
def filteredTables : Query :=
  let uuid : Uuid := .ofNat 0
  [ .setFilter (.ofCount 7) (some "> 10"), .setFilter (.ofCount 1) (some "< 100"),
    .newTable { name := "c" } uuid,
    .addItem (.ofCount 9) { name := "v", filter := some "= 1" } uuid,
    .setGlobalFilter (some "a.x <> b.y") ].foldl after joinedTables

theorem filteredTables_reachable : filteredTables.Reachable :=
  joinedTables_reachable.foldl_after _ (by decide +kernel)

/-- The constant comes before the column, and the item of the other table is left out. -/
theorem filteredTables_conditions :
    filteredTables.Reachable ∧ filteredTables.handWritten = none ∧ filteredTables.selected ≠ [] ∧
      filteredTables.filteredItems = [.ofCount 1, .ofCount 7] ∧
      filteredTables.whereClause .plain ≠ "" := by
  have hhand : filteredTables.handWritten = none := by decide +kernel
  have hselected : filteredTables.selected ≠ [] := by decide +kernel
  have hitems : filteredTables.filteredItems = [.ofCount 1, .ofCount 7] := by decide +kernel
  refine ⟨filteredTables_reachable, hhand, hselected, hitems, fun hempty => ?_⟩
  have hexact := filteredTables_reachable.whereClause_exact hhand hselected .plain
  rw [hexact.2.2.2.2, hitems] at hempty
  exact absurd hempty.1 (List.cons_ne_nil _ _)

end Query

end LiveSelect
