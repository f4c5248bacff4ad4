import LiveSelect.Proofs.FromClause
import LiveSelect.Proofs.Snapshots

/-! # What the text of a query depends on

Two queries with the same lists, joins and settings have the same text as soon as they agree
on the items that the statement mentions and on the names of the containers of these items.
So what lies outside the statement does not matter, and neither does an item that is on its
way out. The WHERE clause is kept apart from the others: it is read from the item lists of
the containers, and all else from the lists of the query. -/

namespace LiveSelect

/-- What a statement shows of a container. -/
def Container.face (k : Container) : String × Option String × ContainerKind :=
  (k.name, k.aliasName, k.kind)

namespace Container

variable {k k' : Container}

theorem name_of_face (h : k'.face = k.face) : k'.name = k.name := congrArg Prod.fst h

theorem activeAlias?_of_face (h : k'.face = k.face) : k'.activeAlias? = k.activeAlias? := by
  simp only [face, Prod.mk.injEq] at h
  rw [activeAlias?, activeAlias?, h.2.1]

theorem correlationName_of_face (h : k'.face = k.face) :
    k'.correlationName = k.correlationName := by
  rw [correlationName, correlationName, activeAlias?_of_face h, name_of_face h]

theorem tableText_of_face {n : Naming} (hn : n.Blind) (h : k'.face = k.face) :
    Query.tableText n k' = Query.tableText n k := by
  have hparts := h
  simp only [face, Prod.mk.injEq] at hparts
  rw [Query.tableText, Query.tableText, hn.table k' k hparts.1 hparts.2.2,
    correlationName_of_face h]

end Container

/-- The lists, joins and settings of a query on which its text depends. -/
structure Outline where
  tables : List ContainerId
  selected : List ItemId
  sortList : List ItemId
  joins : IdMap .join Join
  incidence : IdMap .container (List JoinId)
  grouping : Bool
  globalFilter : Option String
  handWritten : Option String

namespace Query

def outline (q : Query) : Outline where
  tables := q.tables
  selected := q.selected
  sortList := q.sortList
  joins := q.joins
  incidence := q.incidence
  grouping := q.grouping
  globalFilter := q.globalFilter
  handWritten := q.handWritten

def face? (q : Query) (c : ContainerId) := (q.container? c).map Container.face

/-- Two queries with the same outline agree on some items, among them all columns of joins,
and on what is shown of the tables and of the containers of these items. -/
structure AgreeOn (W : ItemId → Prop) (q q' : Query) : Prop where
  outline : q'.outline = q.outline
  items : ∀ i, W i → q'.item? i = q.item? i
  columns : ∀ j join, q.join? j = some join → W join.left ∧ W join.right
  faces : ∀ c, (c ∈ q.tables ∨ ∃ i, W i ∧ q.home? i = some c) → q'.face? c = q.face? c
  constants : ∀ i c, W i → q.home? i = some c → (c = q'.constants ↔ c = q.constants)

theorem face?_cases {q q' : Query} {c : ContainerId} (h : q'.face? c = q.face? c) :
    (q'.container? c = none ∧ q.container? c = none) ∨
      ∃ k' k, q'.container? c = some k' ∧ q.container? c = some k ∧ k'.face = k.face := by
  unfold face? at h
  cases hk' : q'.container? c with
  | none =>
    rw [hk', Option.map_none, eq_comm, Option.map_eq_none_iff] at h
    exact Or.inl ⟨rfl, h⟩
  | some k' =>
    rw [hk', Option.map_some, eq_comm, Option.map_eq_some_iff] at h
    obtain ⟨k, hk, hface⟩ := h
    exact Or.inr ⟨k', k, rfl, hk, hface.symm⟩

/-- Where the tables stand is a matter of their order and of the joins between them. -/
theorem placements_congr {q q' : Query} (horder : q'.finishOrder = q.finishOrder)
    (htype : ∀ s t, q'.joinTypeAfter s t = q.joinTypeAfter s t)
    (hconditions : ∀ earlier t, q'.conditionsOn earlier t = q.conditionsOn earlier t) :
    q'.placements = q.placements := by
  have hplaced : ∀ rest earlier previous,
      q'.placeAfter earlier previous rest = q.placeAfter earlier previous rest := by
    intro rest
    induction rest with
    | nil => exact fun _ _ => rfl
    | cons t rest ih =>
      intro earlier previous
      rw [placeAfter, placeAfter, htype, hconditions, ih]
  unfold placements
  rw [horder]
  split
  · rfl
  · exact hplaced _ _ _

/-- Where the tables stand is decided by the joins, the index and the containers of columns. -/
theorem layout_congr {q q' : Query} (htables : q'.tables = q.tables) (hjoin : q'.join? = q.join?)
    (hindex : q'.joinsOf = q.joinsOf) (hends : q'.ends? = q.ends?) :
    q'.finishOrder = q.finishOrder ∧ q'.placements = q.placements := by
  have harcs : q'.arcsFrom = q.arcsFrom := by
    funext t
    rw [arcsFrom, hindex, hends, arcsFrom]
  have horder : q'.finishOrder = q.finishOrder := by
    rw [finishOrder, graph, htables, harcs, finishOrder, graph]
  refine ⟨horder, placements_congr horder (fun s t => ?_) fun earlier t => ?_⟩
  · have hlink : q'.linkType? s t = q.linkType? s t := by
      funext j
      simp only [linkType?, hjoin, hends]
    rw [joinTypeAfter, hlink, hindex, joinTypeAfter]
  · simp only [conditionsOn, partner?, hindex, hends]

/-- The FROM clause shows neither whether groups are formed nor a hand-written text. -/
theorem fromClause_of_settings (q : Query) (n : Naming) (grouping : Bool)
    (handWritten : Option String) :
    fromClause { q with grouping, handWritten } n = q.fromClause n := by
  have hplaced : placements { q with grouping, handWritten } = q.placements :=
    placements_congr rfl (fun _ _ => rfl) fun _ _ => rfl
  rw [fromClause, hplaced]
  rfl

namespace AgreeOn

variable {W : ItemId → Prop} {q q' : Query} {n : Naming} {c : ContainerId} {i : ItemId}
variable {item : Item} {l : List ItemId}

variable (h : AgreeOn W q q')

include h

theorem tables_eq : q'.tables = q.tables := congrArg Outline.tables h.outline

theorem selected_eq : q'.selected = q.selected := congrArg Outline.selected h.outline

theorem sortList_eq : q'.sortList = q.sortList := congrArg Outline.sortList h.outline

theorem grouping_eq : q'.grouping = q.grouping := congrArg Outline.grouping h.outline

theorem globalFilter_eq : q'.globalFilter = q.globalFilter :=
  congrArg Outline.globalFilter h.outline

theorem handWritten_eq : q'.handWritten = q.handWritten := congrArg Outline.handWritten h.outline

theorem join?_eq : q'.join? = q.join? := by
  have hjoins : q'.joins = q.joins := congrArg Outline.joins h.outline
  funext j
  rw [join?, hjoins, join?]

theorem joinsOf_eq : q'.joinsOf = q.joinsOf := by
  have hincidence : q'.incidence = q.incidence := congrArg Outline.incidence h.outline
  funext c
  rw [joinsOf, hincidence, joinsOf]

theorem ends?_eq : q'.ends? = q.ends? := by
  funext j
  refine ends?_congr (congrFun h.join?_eq j) fun join hj => ?_
  obtain ⟨hl, hr⟩ := h.columns j join hj
  exact ⟨home?_congr (h.items _ hl), home?_congr (h.items _ hr)⟩

/-! ## Names -/

theorem qualifier (hi : W i) (hc : q.home? i = some c) : q'.qualifier c = q.qualifier c := by
  have hconst := h.constants i c hi hc
  unfold Query.qualifier
  simp only [hconst, h.tables_eq]
  rcases face?_cases (h.faces c (Or.inr ⟨i, hi, hc⟩)) with ⟨hk', hk⟩ | ⟨k', k, hk', hk, hface⟩
  · rw [hk', hk]
  · simp only [hk', hk, Container.activeAlias?_of_face hface, Container.name_of_face hface]

theorem columnText (hitem : ∃ i, W i ∧ q.item? i = some item) :
    q'.columnText n item = q.columnText n item := by
  obtain ⟨i, hi, hitem⟩ := hitem
  rw [Query.columnText, Query.columnText, h.qualifier hi (home?_of_item? hitem)]

theorem expression (wrap : Bool) (hitem : ∃ i, W i ∧ q.item? i = some item) :
    q'.expression n wrap item = q.expression n wrap item := by
  simp only [Query.expression, h.columnText hitem]

theorem resolve (hl : ∀ i ∈ l, W i) : q'.resolve l = q.resolve l :=
  List.filterMap_congr fun i hi => h.items i (hl i hi)

omit h in
theorem of_mem_resolve (hl : ∀ i ∈ l, W i) (hitem : item ∈ q.resolve l) :
    ∃ i, W i ∧ q.item? i = some item := by
  obtain ⟨i, hi, hitem⟩ := List.mem_filterMap.1 hitem
  exact ⟨i, hl i hi, hitem⟩

/-! ## The clauses -/

theorem selectClause (hl : ∀ i ∈ q.selected, W i) : q'.selectClause n = q.selectClause n := by
  have hentries : (q.resolve q.selected).map (q'.selectEntry n) =
      (q.resolve q.selected).map (q.selectEntry n) := by
    refine List.map_congr_left fun item hitem => ?_
    simp only [selectEntry, h.grouping_eq, h.expression _ (of_mem_resolve hl hitem)]
  rw [Query.selectClause, Query.selectClause, h.selected_eq, h.resolve hl, hentries]

theorem groupByClause (hl : ∀ i ∈ q.selected, W i) : q'.groupByClause n = q.groupByClause n := by
  have hentries : ((q.resolve q.selected).filter isGrouped).map (q'.columnText n) =
      ((q.resolve q.selected).filter isGrouped).map (q.columnText n) := by
    refine List.map_congr_left fun item hitem => ?_
    exact h.columnText (of_mem_resolve hl (List.mem_of_mem_filter hitem))
  rw [Query.groupByClause, Query.groupByClause, h.selected_eq, h.resolve hl, hentries]

theorem havingClause (hl : ∀ i ∈ q.selected, W i) : q'.havingClause n = q.havingClause n := by
  have hentries : (q.resolve q.selected).filterMap (q'.havingText? n) =
      (q.resolve q.selected).filterMap (q.havingText? n) := by
    refine List.filterMap_congr fun item hitem => ?_
    simp only [havingText?, h.expression _ (of_mem_resolve hl hitem)]
  rw [Query.havingClause, Query.havingClause, h.selected_eq, h.resolve hl, hentries]

theorem orderByClause (hl : ∀ i ∈ q.sortList, W i) : q'.orderByClause n = q.orderByClause n := by
  have hentries : ((q.resolve q.sortList).filter isSortable).map (q'.orderByEntry n) =
      ((q.resolve q.sortList).filter isSortable).map (q.orderByEntry n) := by
    refine List.map_congr_left fun item hitem => ?_
    simp only [orderByEntry, h.grouping_eq,
      h.expression _ (of_mem_resolve hl (List.mem_of_mem_filter hitem))]
  rw [Query.orderByClause, Query.orderByClause, h.sortList_eq, h.resolve hl, hentries]

theorem filterTexts (hc : q'.filterCandidates = q.filterCandidates)
    (hl : ∀ i ∈ q.filterCandidates, W i) : q'.filterTexts n = q.filterTexts n := by
  rw [Query.filterTexts, Query.filterTexts, hc, h.resolve hl]
  refine List.filterMap_congr fun item hitem => ?_
  simp only [filterText?, h.columnText (of_mem_resolve hl hitem)]

/-! ## The FROM clause -/

theorem finishOrder_eq : q'.finishOrder = q.finishOrder :=
  (layout_congr h.tables_eq h.join?_eq h.joinsOf_eq h.ends?_eq).1

theorem placements_eq : q'.placements = q.placements :=
  (layout_congr h.tables_eq h.join?_eq h.joinsOf_eq h.ends?_eq).2

theorem conditionText?_eq : q'.conditionText? n = q.conditionText? n := by
  funext j
  unfold conditionText?
  rw [h.join?_eq]
  cases hj : q.join? j with
  | none => rfl
  | some join =>
    obtain ⟨hl, hr⟩ := h.columns j join hj
    simp only [bind, Option.bind_some, h.items _ hl, h.items _ hr]
    cases hleft : q.item? join.left with
    | none => rfl
    | some left =>
      cases hright : q.item? join.right with
      | none => rfl
      | some right =>
        have hface := h.faces left.container (Or.inr ⟨_, hl, home?_of_item? hleft⟩)
        have hface' := h.faces right.container (Or.inr ⟨_, hr, home?_of_item? hright⟩)
        simp only [Option.bind_some]
        rcases face?_cases hface with ⟨hk', hk⟩ | ⟨k', k, hk', hk, hleftFace⟩
        · rw [hk', hk]
          rfl
        · rcases face?_cases hface' with ⟨hm', hm⟩ | ⟨m', m, hm', hm, hrightFace⟩
          · simp only [hk', hk, hm', hm, Option.bind_some, Option.bind_none]
          · simp only [hk', hk, hm', hm, Option.bind_some,
              Container.correlationName_of_face hleftFace,
              Container.correlationName_of_face hrightFace]

variable (hn : n.Blind)

include hn

theorem firstTableText (hnodup : q.tables.Nodup) :
    q'.firstTableText n = q.firstTableText n := by
  unfold Query.firstTableText
  rw [h.finishOrder_eq]
  cases hfirst : q.finishOrder.head? with
  | none => rfl
  | some t =>
    have ht : t ∈ q.tables :=
      (finishOrder_perm_tables hnodup).mem_iff.1 (List.mem_of_mem_head? hfirst)
    simp only [Option.bind_some]
    rcases face?_cases (h.faces t (Or.inl ht)) with ⟨hk', hk⟩ | ⟨k', k, hk', hk, hface⟩
    · rw [hk', hk]
    · simp only [hk', hk, Container.tableText_of_face hn hface]

theorem placementText {p : Placement} (hp : p.table ∈ q.tables) :
    q'.placementText n p = q.placementText n p := by
  unfold Query.placementText onText
  rw [h.conditionText?_eq]
  rcases face?_cases (h.faces p.table (Or.inl hp)) with ⟨hk', hk⟩ | ⟨k', k, hk', hk, hface⟩
  · rw [hk', hk]
  · simp only [hk', hk, Container.tableText_of_face hn hface]

theorem fromClause (hnodup : q.tables.Nodup) : q'.fromClause n = q.fromClause n := by
  have hplaced : q.placements.map (q'.placementText n) = q.placements.map (q.placementText n) := by
    refine List.map_congr_left fun p hp => h.placementText hn ?_
    have hmem : p.table ∈ q.finishOrder.tail := by
      rw [← tables_placements]
      exact List.mem_map_of_mem hp
    exact (finishOrder_perm_tables hnodup).mem_iff.1 (List.mem_of_mem_tail hmem)
  rw [Query.fromClause, Query.fromClause, h.tables_eq, h.firstTableText hn hnodup,
    h.placements_eq, hplaced]

/-! ## The statement -/

/-- When the items on the lists are among those on which two queries agree, their texts differ
only by the conditions on items, and only where these show. -/
theorem textWith_eq_iff (hnodup : q.tables.Nodup) (hs : ∀ i ∈ q.selected, W i)
    (ht : ∀ i ∈ q.sortList, W i) :
    q'.textWith n = q.textWith n ↔
      (q.handWritten = none → q.selected ≠ [] → q'.whereClause n = q.whereClause n) := by
  have hstatement : q'.statement n = q.statement n ↔ q'.whereClause n = q.whereClause n := by
    rw [statement, statement, h.selectClause hs, h.fromClause hn hnodup, h.groupByClause hs,
      h.havingClause hs, h.orderByClause ht, h.grouping_eq]
    simp only [String.append_left_inj, String.append_right_inj]
  rw [Query.textWith, Query.textWith, h.handWritten_eq]
  cases q.handWritten with
  | some text => simp
  | none =>
    rw [Option.getD_none, Option.getD_none, derivedText, derivedText, h.selected_eq]
    by_cases hempty : q.selected = []
    · simp [hempty]
    · rw [if_neg hempty, if_neg hempty, hstatement]
      simp [hempty]

/-- Two queries that agree on all items that a statement can mention have the same text. -/
theorem textWith_eq (hnodup : q.tables.Nodup) (hs : ∀ i ∈ q.selected, W i)
    (ht : ∀ i ∈ q.sortList, W i) (hc : q'.filterCandidates = q.filterCandidates)
    (hl : ∀ i ∈ q.filterCandidates, W i) : q'.textWith n = q.textWith n := by
  refine (h.textWith_eq_iff hn hnodup hs ht).2 fun _ _ => ?_
  rw [whereClause, whereClause, h.filterTexts hc hl, h.globalFilter_eq]

end AgreeOn

end Query

end LiveSelect
