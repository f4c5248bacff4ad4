import LiveSelect.Proofs.Grouping
import LiveSelect.Proofs.Spelling

/-! # One text for every expression

Four clauses write selected items as expressions, and each decides for itself which items it lists
and whether a function is put around them. A database takes a grouped statement only if all of
them agree. They do: there is one text for every item, with which its entry begins wherever it is
listed. While groups are formed, the kind and the role of an item settle what that text is and
whether rows are grouped by it; otherwise no function is written and no clause speaks of groups. -/

namespace LiveSelect

/-- What a selected item does in a statement with groups. -/
inductive GroupPart where
  /-- It counts rows by its own text. -/
  | counted
  /-- A function reduces its values in a group to one. -/
  | reduced (function : String)
  /-- Rows are grouped by it. -/
  | key
  /-- It is written as it is, and rows are not grouped by it. -/
  | neither
deriving DecidableEq, Repr

/-- The part of an item in groups. What kind of item it is comes before its role. -/
def Item.groupPart (item : Item) : GroupPart :=
  if item.kind = .count then .counted
  else match item.groupRole with
    | .plain => .neither
    | .grouped => .key
    | .sum => .reduced "SUM"
    | .count => .reduced "COUNT"
    | .min => .reduced "MIN"
    | .max => .reduced "MAX"
    | .avg => .reduced "AVG"

namespace Query

variable {q : Query} {n : Naming} {i : ItemId} {item : Item} {ids : List ItemId}

/-- The text of an item in expressions. -/
def written (q : Query) (n : Naming) (i : ItemId) : String :=
  (q.item? i).elim "" (q.expression n q.grouping)

/-- The selected items by which rows are grouped, in the order of the selection. -/
def groupKeys (q : Query) : List ItemId :=
  q.selected.filter (q.itemHas fun item => item.groupPart = .key)

theorem written_of_item? (hitem : q.item? i = some item) :
    q.written n i = q.expression n q.grouping item := by
  rw [written, hitem, Option.elim_some]

/-! ## Items in groups -/

theorem isGrouped_eq (item : Item) : isGrouped item = decide (item.groupPart = .key) := by
  unfold isGrouped Item.groupPart
  by_cases hkind : item.kind = .count
  · simp [hkind]
  · cases hrole : item.groupRole <;> simp [hkind]

/-- With groups the part of an item decides how it is written. -/
theorem expression_of_grouping (q : Query) (n : Naming) (item : Item) :
    q.expression n true item =
      match item.groupPart with
      | .counted => item.name
      | .reduced f => f ++ "(" ++ q.columnText n item ++ ")"
      | .key | .neither => q.columnText n item := by
  unfold expression Item.groupPart
  by_cases hkind : item.kind = .count
  · simp only [if_pos hkind]
  · simp only [if_neg hkind]
    cases item.groupRole <;> rfl

/-- Without groups no function is put around an item. -/
theorem expression_of_no_grouping (q : Query) (n : Naming) (item : Item) :
    q.expression n false item =
      if item.kind = .count then item.name else q.columnText n item := by
  unfold expression
  cases item.groupRole.function? <;> rfl

theorem mem_groupKeys (hi : i ∈ q.selected) (hitem : q.item? i = some item) :
    i ∈ q.groupKeys ↔ item.groupPart = .key := by
  rw [groupKeys, List.mem_filter, itemHas_of_item? hitem, decide_eq_true_eq]
  exact and_iff_right hi

/-! ## Entries of the clauses -/

/-- Entries that are made from the items of a list correspond to the items that have one. -/
theorem forall₂_resolve {R : ItemId → String → Prop} {p : Item → Bool}
    {text? : Item → Option String}
    (hsome : ∀ i item, q.item? i = some item → p item = true →
      ∃ entry, text? item = some entry ∧ R i entry)
    (hnone : ∀ item, p item = false → text? item = none) :
    List.Forall₂ R (ids.filter (q.itemHas p)) ((q.resolve ids).filterMap text?) := by
  rw [resolve, List.filterMap_filterMap]
  refine forall₂_entries (fun i _ hi => ?_) fun i _ hi => ?_
  · obtain ⟨item, hitem, hp⟩ := (Option.any_eq_true _ _).1 hi
    rw [hitem, Option.bind_some]
    exact hsome i item hitem hp
  · cases hitem : q.item? i with
    | none => rfl
    | some item => exact hnone item (by rwa [itemHas_of_item? hitem] at hi)

theorem Lists.item?_of_mem {p : Item → Bool} {l : List ItemId} (h : q.Lists p l) (hi : i ∈ l) :
    ∃ item, q.item? i = some item := by
  obtain ⟨item, hitem, -⟩ := (h.mem i).1 hi
  exact ⟨item, hitem⟩

/-- Every selected item has one entry in SELECT: its text, and its alias if it has one. -/
theorem Listed.selectClause_eq (h : q.Listed) (n : Naming) :
    ∃ entries, q.selectClause n = "SELECT" ++ clause " " ", " entries ∧
      List.Forall₂ (fun i entry => ∃ item, q.item? i = some item ∧
        entry = q.written n i ++ item.activeAlias?.elim "" (" AS " ++ ·)) q.selected entries := by
  have hknown : q.selected.filter (q.itemHas fun _ => true) = q.selected := by
    refine List.filter_eq_self.2 fun i hi => ?_
    obtain ⟨item, hitem⟩ := h.selected.item?_of_mem hi
    rw [itemHas_of_item? hitem]
  have hentries : List.Forall₂ (fun i entry => ∃ item, q.item? i = some item ∧
        entry = q.written n i ++ item.activeAlias?.elim "" (" AS " ++ ·))
      (q.selected.filter (q.itemHas fun _ => true))
      ((q.resolve q.selected).filterMap fun item => some (q.selectEntry n item)) := by
    refine forall₂_resolve (fun i item hitem _ => ⟨_, rfl, item, hitem, ?_⟩) (by simp)
    rw [selectEntry, written_of_item? hitem]
    cases item.activeAlias? <;> rfl
  rw [hknown, List.filterMap_eq_map'] at hentries
  exact ⟨_, rfl, hentries⟩

/-- The entries of ORDER BY are the texts of the items that sort, each with its direction. -/
theorem orderByClause_eq (q : Query) (n : Naming) :
    ∃ entries, q.orderByClause n = clause "\nORDER BY " ", " entries ∧
      List.Forall₂ (fun i entry => ∃ item, q.item? i = some item ∧
        entry = q.written n i ++ " " ++ item.sortOrder.keyword?.elim "" (· ++ " "))
        (q.sortList.filter (q.itemHas isSortable)) entries := by
  refine ⟨_, rfl, ?_⟩
  rw [← List.filterMap_eq_map, List.filterMap_filter]
  refine forall₂_resolve (fun i item hitem hp => ⟨_, if_pos hp, item, hitem, ?_⟩)
    fun item hp => if_neg (by simp [hp])
  rw [orderByEntry, written_of_item? hitem]
  cases item.sortOrder.keyword? <;> rfl

/-- The entries of GROUP BY are the texts of the selected items by which rows are grouped. -/
theorem groupByClause_eq (hgrouping : q.grouping = true) (n : Naming) :
    q.groupByClause n = clause "\nGROUP BY " ", " (q.groupKeys.map (q.written n)) := by
  have hentries : List.Forall₂ Eq (q.groupKeys.map (q.written n))
      (((q.resolve q.selected).filter isGrouped).map (q.columnText n)) := by
    -- A key is written without a function here, and has none in other clauses.
    rw [List.forall₂_map_left_iff, ← List.filterMap_eq_map, List.filterMap_filter]
    refine forall₂_resolve (fun i item hitem hp => ⟨q.columnText n item, ?_, ?_⟩) fun item hp => ?_
    · rw [isGrouped_eq, if_pos hp]
      rfl
    · rw [written_of_item? hitem, hgrouping, expression_of_grouping, of_decide_eq_true hp]
    · rw [isGrouped_eq, hp]
      rfl
  rw [List.forall₂_eq_eq_eq] at hentries
  rw [groupByClause, hentries]

/-- The entries of HAVING are the texts of the selected items with a condition on their groups,
each with its condition. -/
theorem havingClause_eq (hgrouping : q.grouping = true) (n : Naming) :
    ∃ entries, q.havingClause n = clause "\nHAVING " ", " entries ∧
      List.Forall₂ (fun i entry => ∃ item condition, q.item? i = some item ∧
        item.activeHaving? = some condition ∧ entry = q.written n i ++ " " ++ condition)
        (q.selected.filter (q.itemHas (·.activeHaving?.isSome))) entries := by
  refine ⟨_, rfl, forall₂_resolve (fun i item hitem hp => ?_) fun item hp => ?_⟩
  · obtain ⟨condition, hcondition⟩ := Option.isSome_iff_exists.1 hp
    refine ⟨_, by rw [havingText?, hcondition, Option.map_some], item, condition, hitem,
      hcondition, ?_⟩
    rw [written_of_item? hitem, hgrouping]
  · rw [havingText?, Option.isSome_eq_false_iff.1 hp |> Option.isNone_iff_eq_none.1, Option.map_none]

/-! ## Agreement of the clauses -/

/-- The clauses of a statement write every item with the same text. -/
structure WritesAlike (q : Query) (n : Naming) : Prop where
  /-- Every selected item has one entry in SELECT, in the order of the selection: its text, and
  its alias if it has one. -/
  select : ∃ entries, q.selectClause n = "SELECT" ++ clause " " ", " entries ∧
    List.Forall₂ (fun i entry => ∃ item, q.item? i = some item ∧
      entry = q.written n i ++ item.activeAlias?.elim "" (" AS " ++ ·)) q.selected entries
  /-- The entries of ORDER BY are texts of items, each with its direction. -/
  orderBy : ∃ entries, q.orderByClause n = clause "\nORDER BY " ", " entries ∧
    List.Forall₂ (fun i entry => ∃ item, q.item? i = some item ∧
      entry = q.written n i ++ " " ++ item.sortOrder.keyword?.elim "" (· ++ " "))
      (q.sortList.filter (q.itemHas isSortable)) entries
  /-- With groups there are two more clauses. -/
  text_of_grouping : q.grouping = true → q.textWith n =
    q.selectClause n ++ q.fromClause n ++ " " ++ q.whereClause n ++
      (q.groupByClause n ++ " " ++ q.havingClause n ++ " ") ++ q.orderByClause n
  /-- The entries of GROUP BY are texts of selected items, in the order of the selection. -/
  groupBy : q.grouping = true → q.groupKeys.Sublist q.selected ∧
    q.groupByClause n = clause "\nGROUP BY " ", " (q.groupKeys.map (q.written n))
  /-- The entries of HAVING are texts of selected items, each with its condition. -/
  having : q.grouping = true → ∃ entries,
    q.havingClause n = clause "\nHAVING " ", " entries ∧
    List.Forall₂ (fun i entry => ∃ item condition, q.item? i = some item ∧
      item.activeHaving? = some condition ∧ entry = q.written n i ++ " " ++ condition)
      (q.selected.filter (q.itemHas (·.activeHaving?.isSome))) entries
  /-- With groups the part of an item settles its text, and how often GROUP BY lists it. -/
  parts : q.grouping = true → ∀ i ∈ q.selected, ∃ item, q.item? i = some item ∧
    match item.groupPart with
    | .counted => q.written n i = item.name ∧ q.groupKeys.count i = 0
    | .reduced f => q.written n i = f ++ "(" ++ q.columnText n item ++ ")" ∧
        q.groupKeys.count i = 0
    | .key => q.written n i = q.columnText n item ∧ q.groupKeys.count i = 1
    | .neither => q.written n i = q.columnText n item ∧ q.groupKeys.count i = 0
  /-- Without groups nothing speaks of them. -/
  text_of_no_grouping : q.grouping = false → q.textWith n =
    q.selectClause n ++ q.fromClause n ++ " " ++ q.whereClause n ++ q.orderByClause n
  /-- Without groups no function is put around an item. -/
  plain : q.grouping = false → ∀ i item, q.item? i = some item →
    q.written n i = if item.kind = .count then item.name else q.columnText n item

theorem Listed.count_groupKeys (h : q.Listed) (hi : i ∈ q.selected) (hitem : q.item? i = some item) :
    q.groupKeys.count i = if item.groupPart = .key then 1 else 0 := by
  have hnodup : q.groupKeys.Nodup := h.selected.nodup.filter _
  rw [hnodup.count]
  exact if_congr (mem_groupKeys hi hitem) rfl rfl

/-- The text of a query that selects something and has no hand-written text is its statement. -/
theorem textWith_eq_statement (hhand : q.handWritten = none) (hselected : q.selected ≠ [])
    (n : Naming) : q.textWith n = q.statement n := by
  rw [textWith, hhand, Option.getD_none, derivedText, if_neg hselected]

/-- In the statement of a query all clauses write a selected item alike. -/
theorem Reachable.writesAlike (h : q.Reachable) (hhand : q.handWritten = none)
    (hselected : q.selected ≠ []) (n : Naming) : q.WritesAlike n where
  select := h.wellFormed.listed.selectClause_eq n
  orderBy := q.orderByClause_eq n
  text_of_grouping hgrouping := by
    rw [textWith_eq_statement hhand hselected, statement, if_pos hgrouping]
  groupBy hgrouping := ⟨List.filter_sublist, groupByClause_eq hgrouping n⟩
  having hgrouping := havingClause_eq hgrouping n
  parts hgrouping i hi := by
    obtain ⟨item, hitem⟩ := h.wellFormed.listed.selected.item?_of_mem hi
    refine ⟨item, hitem, ?_⟩
    rw [written_of_item? hitem, hgrouping, expression_of_grouping,
      h.wellFormed.listed.count_groupKeys hi hitem]
    cases item.groupPart <;> exact ⟨rfl, rfl⟩
  text_of_no_grouping hgrouping := by
    rw [textWith_eq_statement hhand hselected, statement, hgrouping, if_neg Bool.false_ne_true,
      String.append_empty]
  plain hgrouping i item hitem := by
    rw [written_of_item? hitem, hgrouping, expression_of_no_grouping]

/-- A plain column, a sum with an alias that is wanted to be large and sorts, two keys and a
count. -/
def groupedSelection : Query :=
  [ .addItem (.ofCount 4) { name := "count(*)", kind := .count, selected := true } (.ofNat 0),
    .setGrouping true, .setGroupRole (.ofCount 6) .plain, .setGroupRole (.ofCount 9) .sum,
    .setGroupRole (.ofCount 10) .grouped, .setHaving (.ofCount 9) (some "> 3"),
    .setItemAlias (.ofCount 9) (some "total"),
    .setSortOrder (.ofCount 9) .descending ].foldl after mixedSelection

theorem groupedSelection_reachable : groupedSelection.Reachable :=
  mixedSelection_reachable.foldl_after _ (by decide +kernel)

/-- The sum is written alike in three clauses. -/
theorem groupedSelection_writesAlike :
    groupedSelection.Reachable ∧ groupedSelection.handWritten = none ∧
      groupedSelection.selected ≠ [] ∧ groupedSelection.grouping = true ∧
      groupedSelection.selected.filterMap
          (fun i => (groupedSelection.item? i).map Item.groupPart) =
        [.neither, .reduced "SUM", .key, .key, .counted] ∧
      groupedSelection.WritesAlike Dialect.ansi.naming ∧
      groupedSelection.textWith Dialect.ansi.naming =
        "SELECT a.x, SUM(b.z) AS total, b.n, a.1 + 1, count(*) \nFROM a a " ++
        "\nINNER JOIN b b \n  ON a.x = b.y \nGROUP BY b.n, a.1 + 1 " ++
        "\nHAVING SUM(b.z) > 3 \nORDER BY b.y ASC , SUM(b.z) DESC " := by
  have hhand : groupedSelection.handWritten = none := by decide +kernel
  have hselected : groupedSelection.selected ≠ [] := by decide +kernel
  exact ⟨groupedSelection_reachable, hhand, hselected, by decide +kernel, by decide +kernel,
    groupedSelection_reachable.writesAlike hhand hselected _, by decide +kernel⟩

end Query

end LiveSelect
