import LiveSelect.Proofs.Scope

/-! # How constants and counts are spelled

What an item stands for and the container that holds it are chosen apart: a constant or a count
may be made in a table. Six clauses spell items, each from a function, a qualifier and a name.
What stands in front of a name is decided by the container alone. So a constant is bare only
where the container of constants holds it, and a count only there and in the two clauses that
look at its kind. -/

namespace LiveSelect

/-- The clauses that spell items. -/
inductive ItemClause where
  | select
  | on
  | filter
  | groupBy
  | having
  | orderBy
deriving DecidableEq, Repr

/-- How an item is spelled: a function around it, what stands before its name, and the name. -/
structure Spelling where
  function? : Option String := none
  qualifier : String := ""
  name : String
deriving DecidableEq

namespace Spelling

/-- The text of a spelling. -/
def text (s : Spelling) : String :=
  match s.function? with
  | some f => f ++ "(" ++ (s.qualifier ++ s.name) ++ ")"
  | none => s.qualifier ++ s.name

end Spelling

theorem append_point_ne_empty (name : String) : name ++ "." ≠ "" := by
  intro h
  have hlength := congrArg String.length h
  rw [String.length_append] at hlength
  exact absurd hlength (by simp)

namespace Query

variable {q : Query} {n : Naming} {item : Item} {t : ContainerId}

/-! ## Spellings of items -/

/-- An item after the qualifier of its container. -/
def named (q : Query) (n : Naming) (item : Item) : Spelling :=
  { qualifier := q.qualifier item.container, name := n.item item }

/-- An item in an expression; a count is its own name. -/
def expressed (q : Query) (n : Naming) (wrap : Bool) (item : Item) : Spelling :=
  if item.kind = .count then { name := item.name }
  else { q.named n item with function? := if wrap then item.groupRole.function? else none }

/-- An item in the condition of a join, after the name that its container goes by. -/
def compared (q : Query) (n : Naming) (item : Item) : Spelling :=
  { qualifier := (q.container? item.container).elim "" (·.correlationName ++ ".")
    name := n.item item }

/-- How an item is spelled in a clause. -/
def spelling (q : Query) (n : Naming) : ItemClause → Item → Spelling
  | .select, item | .orderBy, item => q.expressed n q.grouping item
  | .having, item => q.expressed n true item
  | .filter, item | .groupBy, item => q.named n item
  | .on, item => q.compared n item

/-- The items that a clause spells, if the clause is written at all. -/
def itemsIn (q : Query) : ItemClause → List Item
  | .select => q.resolve q.selected
  | .on => (q.placements.flatMap Placement.conditions).flatMap fun j =>
      (q.join? j).elim [] fun join => q.resolve [join.left, join.right]
  | .filter => (q.resolve q.filterCandidates).filter (·.activeFilter?.isSome)
  | .groupBy => (q.resolve q.selected).filter isGrouped
  | .having => (q.resolve q.selected).filter (·.activeHaving?.isSome)
  | .orderBy => (q.resolve q.sortList).filter isSortable

theorem text_expressed (q : Query) (n : Naming) (wrap : Bool) (item : Item) :
    (q.expressed n wrap item).text = q.expression n wrap item := by
  unfold expressed expression
  split
  · exact String.empty_append
  · cases wrap <;> cases item.groupRole.function? <;> rfl

theorem filterMap_map_eq {α β : Type} (g : α → Option String) (f : α → String → β) (l : List α) :
    l.filterMap (fun a => (g a).map (f a)) =
      (l.filter fun a => (g a).isSome).map fun a => f a ((g a).getD "") := by
  induction l with
  | nil => rfl
  | cons a rest ih =>
    cases hg : g a with
    | none =>
      rw [List.filterMap_cons_none (by rw [hg]; rfl), List.filter_cons_of_neg (by simp [hg]), ih]
    | some s =>
      rw [List.filterMap_cons_some (by rw [hg]; rfl), List.filter_cons_of_pos (by simp [hg]),
        List.map_cons, ih, hg]
      rfl

/-! ## Spellings in clauses -/

/-- The clauses of a statement put the spellings of the items that they list in a row. -/
structure Spells (q : Query) (n : Naming) : Prop where
  select : q.selectClause n = "SELECT" ++ clause " " ", " ((q.itemsIn .select).map fun item =>
    (q.spelling n .select item).text ++ item.activeAlias?.elim "" (" AS " ++ ·))
  on : ∀ p ∈ q.placements, ∀ j ∈ p.conditions, ∃ join, q.join? j = some join ∧
    ∃ left ∈ q.itemsIn .on, q.item? join.left = some left ∧
    ∃ right ∈ q.itemsIn .on, q.item? join.right = some right ∧
      q.conditionText? n j = some ((q.spelling n .on left).text ++ " " ++ join.comparator ++ " " ++
        (q.spelling n .on right).text)
  filter : q.filterTexts n = (q.itemsIn .filter).map fun item =>
    (q.spelling n .filter item).text ++ " " ++ item.activeFilter?.getD ""
  groupBy : q.groupByClause n = clause "\nGROUP BY " ", " ((q.itemsIn .groupBy).map fun item =>
    (q.spelling n .groupBy item).text)
  having : q.havingClause n = clause "\nHAVING " ", " ((q.itemsIn .having).map fun item =>
    (q.spelling n .having item).text ++ " " ++ item.activeHaving?.getD "")
  orderBy : q.orderByClause n = clause "\nORDER BY " ", " ((q.itemsIn .orderBy).map fun item =>
    (q.spelling n .orderBy item).text ++ " " ++ item.sortOrder.keyword?.elim "" (· ++ " "))

theorem mem_itemsIn_on {p : Placement} {j : JoinId} {join : Join} {i : ItemId}
    (hp : p ∈ q.placements) (hj : j ∈ p.conditions) (hjoin : q.join? j = some join)
    (hi : i = join.left ∨ i = join.right) (hitem : q.item? i = some item) :
    item ∈ q.itemsIn .on := by
  refine List.mem_flatMap.2 ⟨j, List.mem_flatMap.2 ⟨p, hp, hj⟩, ?_⟩
  rw [hjoin, Option.elim_some]
  refine List.mem_filterMap.2 ⟨i, ?_, hitem⟩
  rcases hi with rfl | rfl <;> simp

namespace Reachable

/-- What the conditions of joins spell belongs to tables of the statement. -/
theorem table_of_on (h : q.Reachable) (hitem : item ∈ q.itemsIn .on) :
    item.container ∈ q.tables := by
  rcases List.mem_flatMap.1 hitem with ⟨j, hj, hitem⟩
  have htable := (List.mem_filter.1 (h.conditions_perm.mem_iff.1 hj)).2
  rcases connectsTables_iff.1 htable with ⟨u, v, hends, hu, hv⟩
  rcases ends?_eq_some.1 hends with ⟨join, hjoin, hl, hr⟩
  rw [hjoin, Option.elim_some] at hitem
  rcases List.mem_filterMap.1 hitem with ⟨i, hi, hitem⟩
  have hhome := home?_of_item? hitem
  rcases (by simpa using hi : i = join.left ∨ i = join.right) with rfl | rfl
  · rw [hl, Option.some.injEq] at hhome
    exact hhome ▸ hu
  · rw [hr, Option.some.injEq] at hhome
    exact hhome ▸ hv

/-- The clauses spell items of attached containers only. -/
theorem attached_of_itemsIn (h : q.Reachable) {c : ItemClause} (hitem : item ∈ q.itemsIn c) :
    q.isAttached item.container := by
  cases c with
  | select => exact h.attached_of_selected hitem
  | on => exact (q.isAttached_iff _).2 (Or.inr (h.table_of_on hitem))
  | filter => exact h.attached_of_candidate (List.mem_of_mem_filter hitem)
  | groupBy => exact h.attached_of_selected (List.mem_of_mem_filter hitem)
  | having => exact h.attached_of_selected (List.mem_of_mem_filter hitem)
  | orderBy => exact h.attached_of_sorted (List.mem_of_mem_filter hitem)

theorem spells (h : q.Reachable) (n : Naming) : q.Spells n where
  select := by
    have hentry : q.selectEntry n = fun item =>
        (q.spelling n .select item).text ++ item.activeAlias?.elim "" (" AS " ++ ·) := by
      funext item
      rw [selectEntry, spelling, text_expressed]
      cases item.activeAlias? <;> rfl
    rw [selectClause, hentry]
    rfl
  on := by
    intro p hp j hj
    rcases h.conditionText?_ok n hp j hj with ⟨text, htext⟩
    simp only [conditionText?, bind, Option.bind_eq_some_iff, pure, Option.some.injEq] at htext
    rcases htext with ⟨join, hjoin, left, hleft, right, hright, k, hk, k', hk', -⟩
    refine ⟨join, hjoin, left, mem_itemsIn_on hp hj hjoin (Or.inl rfl) hleft, hleft, right,
      mem_itemsIn_on hp hj hjoin (Or.inr rfl) hright, hright, ?_⟩
    simp [conditionText?, hjoin, hleft, hright, hk, hk', spelling, compared, Spelling.text,
      String.append_assoc]
  filter := filterMap_map_eq Item.activeFilter?
    (fun item condition => q.columnText n item ++ " " ++ condition) (q.resolve q.filterCandidates)
  groupBy := rfl
  having := by
    have hentry : q.havingText? n = fun item => item.activeHaving?.map fun condition =>
        (q.spelling n .having item).text ++ " " ++ condition := by
      funext item
      rw [havingText?, spelling, text_expressed]
    rw [havingClause, hentry, filterMap_map_eq]
    rfl
  orderBy := by
    have hentry : q.orderByEntry n = fun item =>
        (q.spelling n .orderBy item).text ++ " " ++ item.sortOrder.keyword?.elim "" (· ++ " ") := by
      funext item
      rw [orderByEntry, spelling, text_expressed]
      cases item.sortOrder.keyword? <;> rfl
    rw [orderByClause, hentry]
    rfl

end Reachable

/-! ## Bare names -/

/-- Of all attached containers that of the constants alone has no qualifier. -/
theorem Owned.qualifier_eq_empty_iff (h : q.Owned) (ht : q.isAttached t) :
    q.qualifier t = "" ↔ t = q.constants := by
  rcases (q.isAttached_iff t).1 ht with hconst | htable
  · exact iff_of_true (by rw [qualifier, if_pos hconst]) hconst
  · rcases h.qualifier_of_table htable with ⟨k, -, hqualifier⟩
    refine iff_of_false ?_ fun heq => h.constants_not_table (heq ▸ htable)
    rw [hqualifier]
    exact append_point_ne_empty _

theorem kind_of_groupBy (hitem : item ∈ q.itemsIn .groupBy) : item.kind ≠ .count := by
  have hgrouped := (List.mem_filter.1 hitem).2
  simp only [isGrouped, Bool.and_eq_true, decide_eq_true_eq] at hgrouped
  exact hgrouped.1

theorem kind_of_orderBy (hitem : item ∈ q.itemsIn .orderBy) :
    item.kind ≠ .constant ∧ item.kind ≠ .count := by
  have hsortable := (List.mem_filter.1 hitem).2
  simpa only [isSortable, Bool.and_eq_true, decide_eq_true_eq] using hsortable

theorem expressed_of_count (hkind : item.kind = .count) (wrap : Bool) :
    q.expressed n wrap item = { name := item.name } := by
  rw [expressed, if_pos hkind]

theorem qualifier_expressed (hkind : item.kind ≠ .count) (wrap : Bool) :
    (q.expressed n wrap item).qualifier = q.qualifier item.container := by
  rw [expressed, if_neg hkind]
  rfl

namespace Reachable

/-- An item that a clause spells is not qualified just if it is in the container of constants,
or is a count in a clause that looks at its kind. -/
theorem qualifier_spelling_iff (h : q.Reachable) (n : Naming) {c : ItemClause}
    (hitem : item ∈ q.itemsIn c) :
    (q.spelling n c item).qualifier = "" ↔
      item.container = q.constants ∨ (item.kind = .count ∧ (c = .select ∨ c = .having)) := by
  have ho : q.Owned := h.wellFormed.owned
  have hnamed := ho.qualifier_eq_empty_iff (h.attached_of_itemsIn hitem)
  have hexpressed : ∀ wrap, (q.expressed n wrap item).qualifier = "" ↔
      item.container = q.constants ∨ item.kind = .count := by
    intro wrap
    by_cases hkind : item.kind = .count
    · rw [expressed_of_count hkind]
      exact iff_of_true rfl (Or.inr hkind)
    · rw [qualifier_expressed hkind, hnamed]
      simp [hkind]
  cases c with
  | select => simpa [spelling] using hexpressed q.grouping
  | having => simpa [spelling] using hexpressed true
  | orderBy => simpa [spelling, (kind_of_orderBy hitem).2] using hexpressed q.grouping
  | filter => simpa [spelling, named] using hnamed
  | groupBy => simpa [spelling, named] using hnamed
  | on =>
    have htable := h.table_of_on hitem
    rcases ho.container?_of_table htable with ⟨k, hk⟩
    have hne : item.container ≠ q.constants := fun heq => ho.constants_not_table (heq ▸ htable)
    have hqualifier : (q.spelling n .on item).qualifier = k.correlationName ++ "." := by
      rw [spelling, compared, hk]
      rfl
    rw [hqualifier]
    simp [hne]

/-- A count stands as its own text in SELECT and HAVING, and nowhere inside a function. -/
theorem spelling_of_count (n : Naming) {c : ItemClause} (hitem : item ∈ q.itemsIn c)
    (hkind : item.kind = .count) :
    (q.spelling n c item).function? = none ∧ c ≠ .groupBy ∧
      (c = .select ∨ c = .having → (q.spelling n c item).text = item.name) := by
  have hbare : ∀ wrap, (q.expressed n wrap item).function? = none ∧
      (q.expressed n wrap item).text = item.name := by
    intro wrap
    rw [expressed_of_count hkind]
    exact ⟨rfl, String.empty_append⟩
  cases c with
  | select => exact ⟨(hbare _).1, by simp, fun _ => (hbare _).2⟩
  | having => exact ⟨(hbare _).1, by simp, fun _ => (hbare _).2⟩
  | orderBy => exact absurd hkind (kind_of_orderBy hitem).2
  | groupBy => exact absurd hkind (kind_of_groupBy hitem)
  | filter => exact ⟨rfl, by simp, by simp⟩
  | on => exact ⟨rfl, by simp, by simp⟩

/-- In the statement of a reachable query that has no text of its own, constants and counts are
written without a qualifier where the container of constants holds them. Made in a table they
are qualified, but for counts in SELECT and HAVING. No function is ever put around a count, and
neither sorts the rows. -/
theorem spelling_exact (h : q.Reachable) (hhand : q.handWritten = none) (n : Naming) :
    q.textWith n = q.derivedText n ∧ q.Spells n ∧
    ∀ c, ∀ item ∈ q.itemsIn c, item.kind = .constant ∨ item.kind = .count →
      ((q.spelling n c item).qualifier = "" ↔
        item.container = q.constants ∨ (item.kind = .count ∧ (c = .select ∨ c = .having))) ∧
      (item.kind = .count → (q.spelling n c item).function? = none ∧ c ≠ .groupBy ∧
        (c = .select ∨ c = .having → (q.spelling n c item).text = item.name)) ∧
      c ≠ .orderBy := by
  refine ⟨by rw [textWith, hhand, Option.getD_none], h.spells n, ?_⟩
  intro c item hitem hkind
  refine ⟨h.qualifier_spelling_iff n hitem, spelling_of_count n hitem, ?_⟩
  rintro rfl
  have hnot := kind_of_orderBy hitem
  exact hkind.elim hnot.1 hnot.2

end Reachable

/-- A table that holds a selected constant and a count with a filter. -/
def datedTable : Query :=
  let uuid : Uuid := .ofNat 0
  [ .newTable { name := "T" } uuid,
    .addItem (.ofCount 4) { name := "current_date", kind := .constant, selected := true } uuid,
    .addItem (.ofCount 4) { name := "COUNT(*)", kind := .count, filter := some "> 1" } uuid,
    .addTable (.ofCount 4) ].foldl after (create uuid fun _ => uuid)

theorem datedTable_reachable : datedTable.Reachable :=
  (Reachable.create _ _).foldl_after _ (by decide +kernel)

/-- The count of the table is qualified in its filter, but in SELECT it would not be. -/
theorem datedTable_qualifies_count :
    datedTable.Reachable ∧ datedTable.handWritten = none ∧
      ∃ item ∈ datedTable.itemsIn .filter, item.kind = .count ∧
        (datedTable.spelling .plain .filter item).qualifier ≠ "" := by
  have hhand : datedTable.handWritten = none := by decide +kernel
  have hspelled := (datedTable_reachable.spelling_exact hhand .plain).2.2 .filter
  refine ⟨datedTable_reachable, hhand,
    { name := "COUNT(*)", kind := .count, filter := some "> 1", container := .ofCount 4
      uuid := .ofNat 0 }, by decide +kernel, rfl, ?_⟩
  rw [Ne, (hspelled _ (by decide +kernel) (Or.inr rfl)).1]
  decide +kernel

/-- A constant and a count may be written with a qualifier. -/
theorem bare_spellings_fail :
    datedTable.textWith .plain = "SELECT T.current_date \nFROM T T  \nWHERE T.COUNT(*) > 1" ∧
    ¬ ∀ (q : Query) (n : Naming) (c : ItemClause), q.Reachable → q.handWritten = none →
      ∀ item ∈ q.itemsIn c, item.kind = .constant ∨ item.kind = .count →
        (q.spelling n c item).qualifier = "" ∧
          (item.kind = .count → (q.spelling n c item).text = item.name) := by
  refine ⟨by decide +kernel, ?_⟩
  intro hall
  have hbare := hall datedTable .plain .filter datedTable_reachable (by decide +kernel)
    { name := "COUNT(*)", kind := .count, filter := some "> 1", container := .ofCount 4
      uuid := .ofNat 0 } (by decide +kernel) (Or.inr rfl)
  exact absurd hbare.1 (by decide +kernel)

end Query

end LiveSelect
