import LiveSelect.Proofs.FromClause
import LiveSelect.Proofs.Unseen

/-! # Names in scope

The FROM clause introduces a name for every table, and the other clauses put such a name before
the columns of the table. What the clauses list belongs to attached containers, so a column is
either a constant, which is not qualified, or belongs to a table of the statement, and the name
before it is the one that the FROM clause gave to this table. A condition of a join stands with
one table and compares it with an earlier one, so both its names are known where it stands. -/

namespace LiveSelect.Query

variable {q : Query} {n : Naming} {item : Item} {names : List (ContainerId × String)}
  {t : ContainerId} {j : JoinId}

/-- Tables with the names by which the FROM clause refers to them. -/
def namesOf (q : Query) (ts : List ContainerId) : List (ContainerId × String) :=
  ts.filterMap fun t => (q.container? t).map fun k => (t, k.correlationName)

/-- The names that the whole FROM clause introduces. -/
def scope (q : Query) : List (ContainerId × String) := q.namesOf q.finishOrder

/-- How an item is named where some tables are in scope: a constant without a qualifier, a
column after the name of its table. -/
inductive NamedIn (q : Query) (n : Naming) (names : List (ContainerId × String)) (item : Item) :
    String → Prop where
  | constant (h : item.container = q.constants) : NamedIn q n names item (n.item item)
  | column {name : String} (h : (item.container, name) ∈ names) :
    NamedIn q n names item (name ++ "." ++ n.item item)

/-- How an item stands in an expression: a count as its bare name, any other item named, inside
its aggregate function if it is to be wrapped and has one. -/
inductive ExpressedIn (q : Query) (n : Naming) (names : List (ContainerId × String)) (wrap : Bool)
    (item : Item) : String → Prop where
  | count (hkind : item.kind = .count) : ExpressedIn q n names wrap item item.name
  | plain {name : String} (hkind : item.kind ≠ .count)
    (hwrap : wrap = false ∨ item.groupRole.function? = none) (hname : NamedIn q n names item name) :
    ExpressedIn q n names wrap item name
  | aggregate {name f : String} (hkind : item.kind ≠ .count) (hwrap : wrap = true)
    (hf : item.groupRole.function? = some f) (hname : NamedIn q n names item name) :
    ExpressedIn q n names wrap item (f ++ "(" ++ name ++ ")")

/-- The comparison of a join where some tables are in scope: both its columns stand after the
names of their tables. -/
inductive ComparedIn (q : Query) (n : Naming) (names : List (ContainerId × String)) (j : JoinId) :
    String → Prop where
  | columns {join : Join} {left right : Item} {l r : String} (hjoin : q.join? j = some join)
    (hleft : q.item? join.left = some left) (hright : q.item? join.right = some right)
    (hl : (left.container, l) ∈ names) (hr : (right.container, r) ∈ names) :
    ComparedIn q n names j
      (l ++ "." ++ n.item left ++ " " ++ join.comparator ++ " " ++ r ++ "." ++ n.item right)

/-- The tables of a FROM clause after some earlier ones. Each is written with its name, and its
conditions may refer to it and to those before it. -/
inductive PlacedIn (q : Query) (n : Naming) :
    List ContainerId → List ContainerId → String → Prop where
  | nil {earlier : List ContainerId} : PlacedIn q n earlier [] ""
  | cons {earlier rest : List ContainerId} {t : ContainerId} {k : Container} {type : JoinType}
    {js : List JoinId} {conditions : List String} {text : String} (hk : q.container? t = some k)
    (hconditions : List.Forall₂ (ComparedIn q n (q.namesOf (earlier ++ [t]))) js conditions)
    (hrest : PlacedIn q n (earlier ++ [t]) rest text) :
    PlacedIn q n earlier (t :: rest)
      (" \n" ++ type.keyword ++ " " ++ (n.table k ++ " " ++ k.correlationName) ++ " \n  ON " ++
        (if conditions = [] then "0 = 0" else " \n    AND ".intercalate conditions) ++ text)

theorem mem_namesOf {ts : List ContainerId} {name : String} :
    (t, name) ∈ q.namesOf ts ↔ t ∈ ts ∧ ∃ k, q.container? t = some k ∧ name = k.correlationName := by
  simp only [namesOf, List.mem_filterMap, Option.map_eq_some_iff, Prod.mk.injEq]
  constructor
  · rintro ⟨t, ht, k, hk, rfl, rfl⟩
    exact ⟨ht, k, hk, rfl⟩
  · rintro ⟨ht, k, hk, rfl⟩
    exact ⟨t, ht, k, hk, rfl, rfl⟩

/-! ## Items -/

/-- The qualifier of a table is the name that the FROM clause gives to it. -/
theorem Owned.qualifier_of_table (h : q.Owned) (ht : t ∈ q.tables) :
    ∃ k, q.container? t = some k ∧ q.qualifier t = k.correlationName ++ "." := by
  obtain ⟨k, hk⟩ := h.container?_of_table ht
  have hne : t ≠ q.constants := by
    rintro rfl
    exact h.constants_not_table ht
  refine ⟨k, hk, ?_⟩
  cases ha : k.activeAlias? with
  | none => simp [qualifier, hne, hk, Container.correlationName, ha, ht]
  | some a => simp [qualifier, hne, hk, Container.correlationName, ha]

namespace Reachable

/-- An item of an attached container is named in the scope of the whole statement. -/
theorem namedIn_columnText (h : q.Reachable) (n : Naming)
    (hattached : q.isAttached item.container) :
    NamedIn q n q.scope item (q.columnText n item) := by
  rcases (q.isAttached_iff _).1 hattached with hconst | htable
  · have hqualifier : q.qualifier item.container = "" := by rw [qualifier, if_pos hconst]
    rw [columnText, hqualifier, String.empty_append]
    exact .constant hconst
  · obtain ⟨k, hk, hqualifier⟩ := h.wellFormed.owned.qualifier_of_table htable
    rw [columnText, hqualifier]
    exact .column (mem_namesOf.2 ⟨h.mem_finishOrder.2 htable, k, hk, rfl⟩)

theorem expressedIn_expression (h : q.Reachable) (n : Naming) (wrap : Bool)
    (hattached : q.isAttached item.container) :
    ExpressedIn q n q.scope wrap item (q.expression n wrap item) := by
  have hname := h.namedIn_columnText n hattached
  unfold expression
  by_cases hkind : item.kind = .count
  · rw [if_pos hkind]
    exact .count hkind
  · rw [if_neg hkind]
    cases hf : item.groupRole.function? with
    | none => exact .plain hkind (Or.inr hf) hname
    | some f =>
      cases wrap with
      | false => exact .plain hkind (Or.inl rfl) hname
      | true => exact .aggregate hkind rfl hf hname

theorem attached_of_selected (h : q.Reachable) (hitem : item ∈ q.resolve q.selected) :
    q.isAttached item.container := by
  obtain ⟨i, hi, hitem⟩ := List.mem_filterMap.1 hitem
  exact ((shows_iff hitem).1 ((h.wellFormed.listed.selected.mem i).1 hi)).2

theorem attached_of_sorted (h : q.Reachable) (hitem : item ∈ q.resolve q.sortList) :
    q.isAttached item.container := by
  obtain ⟨i, hi, hitem⟩ := List.mem_filterMap.1 hitem
  exact ((shows_iff hitem).1 ((h.wellFormed.listed.sortList.mem i).1 hi)).2

theorem attached_of_candidate (h : q.Reachable) (hitem : item ∈ q.resolve q.filterCandidates) :
    q.isAttached item.container := by
  obtain ⟨i, hi, hitem⟩ := List.mem_filterMap.1 hitem
  obtain ⟨c, hc, hattached⟩ := h.wellFormed.owned.mem_filterCandidates.1 hi
  rw [home?_of_item? hitem] at hc
  cases hc
  exact hattached

end Reachable

/-! ## Clauses -/

/-- A join of a table with an earlier one compares columns of tables that are known by then. -/
theorem WellFormed.comparedIn (h : q.WellFormed) (n : Naming) {earlier : List ContainerId}
    (hearlier : ∀ u ∈ earlier, u ∈ q.tables) (ht : t ∈ q.tables)
    (hj : j ∈ q.conditionsOn earlier t) :
    ∃ text, q.conditionText? n j = some text ∧
      ComparedIn q n (q.namesOf (earlier ++ [t])) j text := by
  obtain ⟨hlisted, hpartner⟩ := List.mem_filter.1 hj
  obtain ⟨u, -, hu, hends⟩ := h.indexed.partner_of_mem hlisted
  rw [hu, Option.any_some, List.contains_iff_mem] at hpartner
  have hmem : ∀ c, c = u ∨ c = t → c ∈ earlier ++ [t] ∧ ∃ k, q.container? c = some k := by
    rintro c (rfl | rfl)
    · exact ⟨List.mem_append_left _ hpartner,
        h.owned.container?_of_table (hearlier _ hpartner)⟩
    · exact ⟨List.mem_append_right _ List.mem_cons_self, h.owned.container?_of_table ht⟩
  obtain ⟨l, r, hlr, hl, hr⟩ : ∃ l r, q.ends? j = some (l, r) ∧ (l = u ∨ l = t) ∧
      (r = u ∨ r = t) := by
    rcases hends with hends | hends
    · exact ⟨u, t, hends, Or.inl rfl, Or.inr rfl⟩
    · exact ⟨t, u, hends, Or.inr rfl, Or.inl rfl⟩
  obtain ⟨join, hjoin, hhome, hhome'⟩ := ends?_eq_some.1 hlr
  obtain ⟨left, hleft, rfl⟩ := home?_eq_some.1 hhome
  obtain ⟨right, hright, rfl⟩ := home?_eq_some.1 hhome'
  obtain ⟨hlmem, k, hk⟩ := hmem _ hl
  obtain ⟨hrmem, k', hk'⟩ := hmem _ hr
  refine ⟨_, ?_, .columns hjoin hleft hright (mem_namesOf.2 ⟨hlmem, k, hk, rfl⟩)
    (mem_namesOf.2 ⟨hrmem, k', hk', rfl⟩)⟩
  simp [conditionText?, hjoin, hleft, hright, hk, hk']

/-- The tables after the first are written with their names, and their conditions keep to the
tables that stand before. The induction is on the tables still to come. -/
theorem WellFormed.placedIn (h : q.WellFormed) (n : Naming) {earlier rest : List ContainerId}
    (previous : ContainerId) (hearlier : ∀ u ∈ earlier, u ∈ q.tables)
    (hrest : ∀ u ∈ rest, u ∈ q.tables) :
    PlacedIn q n earlier rest
      (String.join ((q.placeAfter earlier previous rest).map (q.placementText n))) := by
  induction rest generalizing earlier previous with
  | nil => exact .nil
  | cons t rest ih =>
    have ht := hrest t List.mem_cons_self
    obtain ⟨k, hk⟩ := h.owned.container?_of_table ht
    have hseen : ∀ u ∈ earlier ++ [t], u ∈ q.tables := by
      intro u hu
      rcases List.mem_append.1 hu with hu | hu
      · exact hearlier u hu
      · exact List.mem_singleton.1 hu ▸ ht
    have hnext := ih t hseen fun u hu => hrest u (List.mem_cons_of_mem _ hu)
    have hconditions : List.Forall₂ (ComparedIn q n (q.namesOf (earlier ++ [t])))
        (q.conditionsOn earlier t) ((q.conditionsOn earlier t).filterMap (q.conditionText? n)) :=
      forall₂_filterMap fun j hj => h.comparedIn n hearlier ht hj
    have htext : q.placementText n ⟨t, q.joinTypeAfter previous t, q.conditionsOn earlier t⟩ =
        " \n" ++ (q.joinTypeAfter previous t).keyword ++ " " ++
          (n.table k ++ " " ++ k.correlationName) ++ " \n  ON " ++
            q.onText n (q.conditionsOn earlier t) := by
      rw [placementText, hk]
      rfl
    rw [placeAfter, List.map_cons, String.join_cons, htext, onText_eq]
    exact .cons hk hconditions hnext

namespace Reachable

theorem selectClause_named (h : q.Reachable) (n : Naming) :
    ∃ entries, q.selectClause n = "SELECT" ++ clause " " ", " entries ∧
      List.Forall₂ (fun item entry => ∃ text, ExpressedIn q n q.scope q.grouping item text ∧
        entry = text ++ item.activeAlias?.elim "" (" AS " ++ ·)) (q.resolve q.selected) entries := by
  refine ⟨_, rfl, List.forall₂_map_right_iff.2 (List.forall₂_same.2 fun item hitem => ?_)⟩
  refine ⟨_, h.expressedIn_expression n q.grouping (h.attached_of_selected hitem), ?_⟩
  rw [selectEntry]
  cases item.activeAlias? <;> rfl

theorem fromClause_named (h : q.Reachable) (n : Naming) :
    (q.tables = [] ∧ q.finishOrder = [] ∧ q.fromClause n = "") ∨
    ∃ first k rest text, q.finishOrder = first :: rest ∧ q.container? first = some k ∧
      q.fromClause n = " \nFROM " ++ (n.table k ++ " " ++ k.correlationName) ++ text ∧
      PlacedIn q n [first] rest text := by
  by_cases htables : q.tables = []
  · have horder : q.finishOrder = [] := List.perm_nil.1 (htables ▸ h.finishOrder_perm)
    exact Or.inl ⟨htables, horder, by rw [fromClause, if_pos htables]⟩
  · obtain ⟨first, k, horder, hk, hfrom⟩ := h.fromClause_eq htables n
    have hmem : ∀ u ∈ first :: q.placements.map Placement.table, u ∈ q.tables := by
      rw [← horder]
      exact fun u hu => h.mem_finishOrder.1 hu
    refine Or.inr ⟨first, k, _, _, horder, hk, hfrom, ?_⟩
    have hplacements : q.placements =
        q.placeAfter [first] first (q.placements.map Placement.table) := by
      conv_lhs => rw [placements, horder]
    rw [hplacements, tables_placeAfter]
    exact h.wellFormed.placedIn n first
      (fun u hu => hmem u (List.mem_singleton.1 hu ▸ List.mem_cons_self))
      fun u hu => hmem u (List.mem_cons_of_mem _ hu)

theorem whereClause_named (h : q.Reachable) (n : Naming) :
    ∃ conditions, q.whereClause n = clause " \nWHERE " " AND " conditions ++
        (Text.nonEmpty? q.globalFilter).elim ""
          (fun c => (if conditions = [] then " \nWHERE " else " AND") ++ " " ++ c) ∧
      List.Forall₂ (fun item entry => ∃ text c, NamedIn q n q.scope item text ∧
          item.activeFilter? = some c ∧ entry = text ++ " " ++ c)
        ((q.resolve q.filterCandidates).filter (·.activeFilter?.isSome)) conditions := by
  refine ⟨q.filterTexts n, ?_, forall₂_entries (fun item hitem hfilter => ?_) ?_⟩
  · rw [whereClause]
    cases Text.nonEmpty? q.globalFilter <;> rfl
  · obtain ⟨c, hc⟩ := Option.isSome_iff_exists.1 hfilter
    refine ⟨_, by rw [filterText?, hc, Option.map_some], _, c, ?_, hc, rfl⟩
    exact h.namedIn_columnText n (h.attached_of_candidate hitem)
  · intro item _ hfilter
    have hnone := Option.isNone_iff_eq_none.1 (Option.isSome_eq_false_iff.1 hfilter)
    rw [filterText?, hnone, Option.map_none]

theorem groupByClause_named (h : q.Reachable) (n : Naming) :
    ∃ entries, q.groupByClause n = clause "\nGROUP BY " ", " entries ∧
      List.Forall₂ (NamedIn q n q.scope) ((q.resolve q.selected).filter isGrouped) entries := by
  refine ⟨_, rfl, List.forall₂_map_right_iff.2 (List.forall₂_same.2 fun item hitem => ?_)⟩
  exact h.namedIn_columnText n (h.attached_of_selected (List.mem_of_mem_filter hitem))

theorem havingClause_named (h : q.Reachable) (n : Naming) :
    ∃ entries, q.havingClause n = clause "\nHAVING " ", " entries ∧
      List.Forall₂ (fun item entry => ∃ text c, ExpressedIn q n q.scope true item text ∧
          item.activeHaving? = some c ∧ entry = text ++ " " ++ c)
        ((q.resolve q.selected).filter (·.activeHaving?.isSome)) entries := by
  refine ⟨_, rfl, forall₂_entries (fun item hitem hhaving => ?_) fun item _ hhaving => ?_⟩
  · obtain ⟨c, hc⟩ := Option.isSome_iff_exists.1 hhaving
    refine ⟨_, by rw [havingText?, hc, Option.map_some], _, c, ?_, hc, rfl⟩
    exact h.expressedIn_expression n true (h.attached_of_selected hitem)
  · have hnone := Option.isNone_iff_eq_none.1 (Option.isSome_eq_false_iff.1 hhaving)
    rw [havingText?, hnone, Option.map_none]

theorem orderByClause_named (h : q.Reachable) (n : Naming) :
    ∃ entries, q.orderByClause n = clause "\nORDER BY " ", " entries ∧
      List.Forall₂ (fun item entry => ∃ text, ExpressedIn q n q.scope q.grouping item text ∧
          entry = text ++ " " ++ item.sortOrder.keyword?.elim "" (· ++ " "))
        ((q.resolve q.sortList).filter isSortable) entries := by
  refine ⟨_, rfl, List.forall₂_map_right_iff.2 (List.forall₂_same.2 fun item hitem => ?_)⟩
  refine ⟨_, h.expressedIn_expression n q.grouping
    (h.attached_of_sorted (List.mem_of_mem_filter hitem)), ?_⟩
  rw [orderByEntry]
  cases item.sortOrder.keyword? <;> rfl

/-- In a reachable query that selects something and has no text of its own, every name in the
statement is known where it stands. An item in one of the clauses is a bare count, or a constant
without a qualifier, or a column after the name that the FROM clause gave to its table; and the
conditions of a table in the FROM clause refer to this table and to those before it. -/
theorem names_in_scope (h : q.Reachable) (hhand : q.handWritten = none)
    (hselected : q.selected ≠ []) (n : Naming) :
    q.textWith n = q.selectClause n ++ q.fromClause n ++ " " ++ q.whereClause n ++
      (if q.grouping then q.groupByClause n ++ " " ++ q.havingClause n ++ " " else "") ++
      q.orderByClause n ∧
    (∃ entries, q.selectClause n = "SELECT" ++ clause " " ", " entries ∧
      List.Forall₂ (fun item entry => ∃ text, ExpressedIn q n q.scope q.grouping item text ∧
        entry = text ++ item.activeAlias?.elim "" (" AS " ++ ·)) (q.resolve q.selected) entries) ∧
    ((q.tables = [] ∧ q.finishOrder = [] ∧ q.fromClause n = "") ∨
      ∃ first k rest text, q.finishOrder = first :: rest ∧ q.container? first = some k ∧
        q.fromClause n = " \nFROM " ++ (n.table k ++ " " ++ k.correlationName) ++ text ∧
        PlacedIn q n [first] rest text) ∧
    (∃ conditions, q.whereClause n = clause " \nWHERE " " AND " conditions ++
        (Text.nonEmpty? q.globalFilter).elim ""
          (fun c => (if conditions = [] then " \nWHERE " else " AND") ++ " " ++ c) ∧
      List.Forall₂ (fun item entry => ∃ text c, NamedIn q n q.scope item text ∧
          item.activeFilter? = some c ∧ entry = text ++ " " ++ c)
        ((q.resolve q.filterCandidates).filter (·.activeFilter?.isSome)) conditions) ∧
    (∃ entries, q.groupByClause n = clause "\nGROUP BY " ", " entries ∧
      List.Forall₂ (NamedIn q n q.scope) ((q.resolve q.selected).filter isGrouped) entries) ∧
    (∃ entries, q.havingClause n = clause "\nHAVING " ", " entries ∧
      List.Forall₂ (fun item entry => ∃ text c, ExpressedIn q n q.scope true item text ∧
          item.activeHaving? = some c ∧ entry = text ++ " " ++ c)
        ((q.resolve q.selected).filter (·.activeHaving?.isSome)) entries) ∧
    ∃ entries, q.orderByClause n = clause "\nORDER BY " ", " entries ∧
      List.Forall₂ (fun item entry => ∃ text, ExpressedIn q n q.scope q.grouping item text ∧
          entry = text ++ " " ++ item.sortOrder.keyword?.elim "" (· ++ " "))
        ((q.resolve q.sortList).filter isSortable) entries := by
  have htext : q.textWith n = q.statement n := by
    rw [textWith, hhand, Option.getD_none, derivedText, if_neg hselected]
  exact ⟨htext, h.selectClause_named n, h.fromClause_named n, h.whereClause_named n,
    h.groupByClause_named n, h.havingClause_named n, h.orderByClause_named n⟩

end Reachable

/-- The looped tables stand in a FROM clause whose conditions know the tables they refer to. -/
theorem loopedTables_names_in_scope :
    loopedTables.Reachable ∧ loopedTables.handWritten = none ∧ loopedTables.selected ≠ [] ∧
      ∃ first k rest text, loopedTables.finishOrder = first :: rest ∧
        loopedTables.container? first = some k ∧
        loopedTables.fromClause .plain = " \nFROM " ++ (k.name ++ " " ++ k.correlationName) ++ text ∧
        PlacedIn loopedTables .plain [first] rest text := by
  have hhand : loopedTables.handWritten = none := by decide +kernel
  have hselected : loopedTables.selected ≠ [] := by decide +kernel
  have htables : loopedTables.tables ≠ [] := by decide +kernel
  refine ⟨loopedTables_reachable, hhand, hselected, ?_⟩
  have hfrom := (loopedTables_reachable.names_in_scope hhand hselected .plain).2.2.1
  exact hfrom.resolve_left fun hnone => htables hnone.1

end LiveSelect.Query
