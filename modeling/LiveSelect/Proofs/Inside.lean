import LiveSelect.Proofs.Unseen

/-! # What the tables of a statement and the constants say

Attached containers with their items, and the joins from table to table, are the inside of a
query; all else is outside. Two queries with the same inside have the same text, whatever the
names are spelled with: the graph has no arc for a join that leads outside, no such join links
two tables or makes a condition, and the lists of a query hold items of the inside only. -/

namespace LiveSelect

namespace JoinGraph

/-- Only arcs between nodes are added to a graph. -/
theorem foldl_addArc_filter (g : JoinGraph) (arcs : List (ContainerId × ContainerId)) :
    arcs.foldl addArc g =
      (arcs.filter fun x => g.nodes.contains x.1 && g.nodes.contains x.2).foldl addArc g := by
  induction arcs generalizing g with
  | nil => rfl
  | cons x rest ih =>
    have hnodes : (g.addArc x).nodes = g.nodes := nodes_foldl_addArc g [x]
    rw [List.foldl_cons, ih, hnodes, List.filter_cons]
    split
    · rfl
    · rename_i hout
      have hskip : g.addArc x = g := by
        refine if_neg fun hadd => hout ?_
        rw [Bool.and_eq_true] at hadd
        exact hadd.1
      rw [hskip]

end JoinGraph

namespace Query

variable {q q' : Query} {n : Naming} {i : ItemId} {j : JoinId} {c s t : ContainerId}
variable {earlier rest : List ContainerId}

/-- Whether an item belongs to an attached container. -/
def isInside (q : Query) (i : ItemId) : Bool := (q.home? i).any q.isAttached

/-- The query without joins. -/
def unjoined (q : Query) : Query := { q with joins := ∅, incidence := ∅ }

/-- Two queries that differ only in containers outside the statement, in items of these, and
in joins with an end there. -/
structure SameInside (q q' : Query) : Prop where
  outline : q'.unjoined.outline = q.unjoined.outline
  constants : q'.constants = q.constants
  containers : ∀ c, q.isAttached c → q'.container? c = q.container? c
  items : ∀ i, q.isInside i → q'.item? i = q.item? i
  connects : ∀ j, q'.connectsTables j = q.connectsTables j
  joins : ∀ j, q.connectsTables j → q'.join? j = q.join? j

theorem isInside_iff : q.isInside i ↔ ∃ c, q.home? i = some c ∧ q.isAttached c := by
  simp only [isInside, Option.any_eq_true]

theorem isInside_of_item? {item : Item} (h : q.item? i = some item) :
    q.isInside i = q.isAttached item.container := by
  rw [isInside, home?_of_item? h, Option.any_some]

/-- The lists of a query hold items of the inside. -/
theorem Lists.isInside {p : Item → Bool} {l : List ItemId} (h : q.Lists p l) (hi : i ∈ l) :
    q.isInside i := by
  obtain ⟨item, hitem, -, hattached⟩ := (h.mem i).1 hi
  rw [isInside_of_item? hitem]
  exact hattached

/-! ## Joins from table to table -/

/-- A join from table to table is known, and its columns are items of the inside. -/
theorem join_of_connects (hj : q.connectsTables j) :
    ∃ join, q.join? j = some join ∧ q.isInside join.left ∧ q.isInside join.right := by
  obtain ⟨u, v, hends, hu, hv⟩ := connectsTables_iff.1 hj
  obtain ⟨join, hjoin, hl, hr⟩ := ends?_eq_some.1 hends
  refine ⟨join, hjoin, ?_, ?_⟩
  · exact isInside_iff.2 ⟨u, hl, (q.isAttached_iff u).2 (Or.inr hu)⟩
  · exact isInside_iff.2 ⟨v, hr, (q.isAttached_iff v).2 (Or.inr hv)⟩

theorem mem_tableJoins : j ∈ q.tableJoins ↔ q.connectsTables j := by
  refine List.mem_filter.trans ⟨fun hj => hj.2, fun hj => ⟨?_, hj⟩⟩
  obtain ⟨join, hjoin, -, -⟩ := join_of_connects hj
  exact mem_allJoins.2 ⟨join, hjoin⟩

/-- A condition on which a table is joined with earlier ones comes from a join of tables. -/
theorem Indexed.connects_of_condition (h : q.Indexed) (hearlier : ∀ u ∈ earlier, u ∈ q.tables)
    (ht : t ∈ q.tables) (hj : j ∈ q.conditionsOn earlier t) : q.connectsTables j := by
  obtain ⟨hj, hpartner⟩ := List.mem_filter.1 hj
  obtain ⟨u, -, hu, hends⟩ := h.partner_of_mem hj
  rw [hu, Option.any_some, List.contains_iff_mem] at hpartner
  refine connectsTables_iff.2 ?_
  rcases hends with hends | hends
  · exact ⟨u, t, hends, hearlier u hpartner, ht⟩
  · exact ⟨t, u, hends, ht, hearlier u hpartner⟩

/-- A place is that of a table, and its conditions come from joins of tables. -/
theorem Indexed.of_placement (h : q.Indexed) (hnodup : q.tables.Nodup) {p : Placement}
    (hp : p ∈ q.placements) : p.table ∈ q.tables ∧ ∀ j ∈ p.conditions, q.connectsTables j := by
  have horder : ∀ t ∈ q.finishOrder, t ∈ q.tables := fun t ht =>
    (finishOrder_perm_tables hnodup).mem_iff.1 ht
  obtain ⟨before, after, hsplit, hconditions⟩ := conditions_placements hp
  have hbefore : ∀ u ∈ before, u ∈ q.tables := fun u hu =>
    horder u (hsplit ▸ List.mem_append_left _ hu)
  have htable : p.table ∈ q.tables :=
    horder p.table (hsplit ▸ List.mem_append_right _ List.mem_cons_self)
  exact ⟨htable, fun j hj => h.connects_of_condition hbefore htable (hconditions ▸ hj)⟩

/-- The index restricted to the joins of tables. -/
theorem Indexed.filter_joinsOf (h : q.Indexed) (t : ContainerId) :
    (q.joinsOf t).filter q.connectsTables = q.tableJoins.filter (q.touches t) := by
  rw [h.joinsOf_eq, tableJoins, List.filter_filter, List.filter_filter]
  refine List.filter_congr fun j _ => ?_
  exact Bool.and_comm _ _

/-- The conditions on which a table is joined, read from the joins of tables alone. -/
theorem Indexed.conditionsOn_eq (h : q.Indexed) (hearlier : ∀ u ∈ earlier, u ∈ q.tables)
    (ht : t ∈ q.tables) :
    q.conditionsOn earlier t = ((q.joinsOf t).filter q.connectsTables).filter
      fun j => (q.partner? t j).any earlier.contains := by
  rw [conditionsOn, List.filter_filter]
  refine List.filter_congr fun j hj => ?_
  cases hpartner : (q.partner? t j).any earlier.contains with
  | false => rfl
  | true =>
    have hmem : j ∈ q.conditionsOn earlier t := List.mem_filter.2 ⟨hj, hpartner⟩
    rw [h.connects_of_condition hearlier ht hmem, Bool.and_self]

/-- A join that links two tables is a join of tables. -/
theorem connects_of_linkType? {type : JoinType} (hs : s ∈ q.tables) (ht : t ∈ q.tables)
    (hlink : q.linkType? s t j = some type) : q.connectsTables j := by
  unfold linkType? at hlink
  obtain ⟨join, -, hlink⟩ := Option.bind_eq_some_iff.1 hlink
  obtain ⟨⟨u, v⟩, hends, hlink⟩ := Option.bind_eq_some_iff.1 hlink
  refine connectsTables_iff.2 ⟨u, v, hends, ?_⟩
  simp only at hlink
  split at hlink
  · rename_i hst
    exact ⟨hst.1 ▸ hs, hst.2 ▸ ht⟩
  · split at hlink
    · rename_i hts
      exact ⟨hts.2 ▸ ht, hts.1 ▸ hs⟩
    · cases hlink

/-- The combination of two tables, read from the joins of tables alone. -/
theorem joinTypeAfter_eq (hs : s ∈ q.tables) (ht : t ∈ q.tables) :
    q.joinTypeAfter s t =
      (((q.joinsOf t).filter q.connectsTables).findSome? (q.linkType? s t)).getD
        JoinType.inner := by
  have hlinks : (q.joinsOf t).filterMap (q.linkType? s t) =
      ((q.joinsOf t).filter q.connectsTables).filterMap (q.linkType? s t) := by
    rw [List.filterMap_filter]
    refine List.filterMap_congr fun j _ => ?_
    cases hlink : q.linkType? s t j with
    | none => simp
    | some type => rw [if_pos (connects_of_linkType? hs ht hlink)]
  rw [joinTypeAfter, ← List.head?_filterMap, hlinks, List.head?_filterMap]

/-- The arcs of a table that lead to tables. -/
theorem filter_arcsFrom (t : ContainerId) :
    ((q.arcsFrom t).filter fun x => q.tables.contains x.1 && q.tables.contains x.2) =
      (((q.joinsOf t).filter q.connectsTables).filterMap q.ends?).filter (·.1 = t) := by
  rw [arcsFrom, List.filter_comm, List.filter_filterMap, List.filterMap_filter]
  refine congrArg _ (List.filterMap_congr fun j _ => ?_)
  cases hends : q.ends? j with
  | none => simp
  | some x => simp [connectsTables, hends, Option.filter]

theorem graph_eq (q : Query) :
    q.graph = (q.tables.flatMap fun t =>
      (((q.joinsOf t).filter q.connectsTables).filterMap q.ends?).filter (·.1 = t)).foldl
        .addArc { nodes := q.tables } := by
  rw [graph, JoinGraph.foldl_addArc_filter, List.filter_flatMap]
  simp only [filter_arcsFrom]

/-! ## The same inside -/

namespace SameInside

theorem refl (q : Query) : SameInside q q :=
  ⟨rfl, rfl, fun _ _ => rfl, fun _ _ => rfl, fun _ => rfl, fun _ _ => rfl⟩

section

variable (h : SameInside q q')

include h

theorem tables_eq : q'.tables = q.tables := congrArg Outline.tables h.outline

theorem selected_eq : q'.selected = q.selected := congrArg Outline.selected h.outline

theorem sortList_eq : q'.sortList = q.sortList := congrArg Outline.sortList h.outline

theorem isAttached_eq : q'.isAttached = q.isAttached := by
  funext c
  rw [isAttached, h.constants, h.tables_eq, isAttached]

theorem isInside_of (hi : q.isInside i) : q'.isInside i := by
  have hitem := h.items i hi
  rw [isInside, home?, hitem, h.isAttached_eq]
  exact hi

theorem trans {q'' : Query} (h' : SameInside q' q'') : SameInside q q'' where
  outline := h'.outline.trans h.outline
  constants := h'.constants.trans h.constants
  containers c hc := by
    have hc' : q'.isAttached c := by rwa [h.isAttached_eq]
    exact (h'.containers c hc').trans (h.containers c hc)
  items i hi := (h'.items i (h.isInside_of hi)).trans (h.items i hi)
  connects j := (h'.connects j).trans (h.connects j)
  joins j hj := by
    have hj' : q'.connectsTables j := by rwa [h.connects]
    exact (h'.joins j hj').trans (h.joins j hj)

/-! ## The FROM clause -/

theorem ends?_eq (hj : q.connectsTables j) : q'.ends? j = q.ends? j := by
  refine ends?_congr (h.joins j hj) fun join hjoin => ?_
  obtain ⟨join', hjoin', hl, hr⟩ := join_of_connects hj
  obtain rfl : join = join' := Option.some.inj (hjoin.symm.trans hjoin')
  exact ⟨home?_congr (h.items _ hl), home?_congr (h.items _ hr)⟩

/-- Both queries have the same joins from table to table, in the same order. -/
theorem tableJoins_eq : q'.tableJoins = q.tableJoins := by
  have hnodup : ∀ q : Query, q.tableJoins.Nodup := fun q => q.allJoins_nodup.filter _
  have hperm : q'.tableJoins.Perm q.tableJoins := by
    refine (List.perm_ext_iff_of_nodup (hnodup q') (hnodup q)).2 fun j => ?_
    rw [mem_tableJoins, mem_tableJoins, h.connects]
  refine hperm.eq_of_pairwise ?_ (q'.joins.keys_ascending.filter _)
    (q.joins.keys_ascending.filter _)
  intro j k _ _ hjk hkj
  omega

variable (hi : q.Indexed) (hi' : q'.Indexed)

include hi hi'

theorem filter_joinsOf_eq (t : ContainerId) :
    (q'.joinsOf t).filter q'.connectsTables = (q.joinsOf t).filter q.connectsTables := by
  rw [hi'.filter_joinsOf, hi.filter_joinsOf, h.tableJoins_eq]
  refine List.filter_congr fun j hj => ?_
  rw [touches, h.ends?_eq (List.mem_filter.1 hj).2, touches]

theorem graph_eq : q'.graph = q.graph := by
  have harcs : ∀ t, ((q'.joinsOf t).filter q'.connectsTables).filterMap q'.ends? =
      ((q.joinsOf t).filter q.connectsTables).filterMap q.ends? := by
    intro t
    rw [h.filter_joinsOf_eq hi hi']
    exact List.filterMap_congr fun j hj => h.ends?_eq (List.mem_filter.1 hj).2
  rw [Query.graph_eq, Query.graph_eq, h.tables_eq]
  simp only [harcs]

theorem finishOrder_eq : q'.finishOrder = q.finishOrder := by
  rw [finishOrder, h.graph_eq hi hi', finishOrder]

theorem joinTypeAfter_eq (hs : s ∈ q.tables) (ht : t ∈ q.tables) :
    q'.joinTypeAfter s t = q.joinTypeAfter s t := by
  have hlinks : ((q.joinsOf t).filter q.connectsTables).filterMap (q'.linkType? s t) =
      ((q.joinsOf t).filter q.connectsTables).filterMap (q.linkType? s t) := by
    refine List.filterMap_congr fun j hj => ?_
    have hconnects := (List.mem_filter.1 hj).2
    rw [linkType?, h.joins j hconnects, h.ends?_eq hconnects, linkType?]
  rw [Query.joinTypeAfter_eq (h.tables_eq ▸ hs) (h.tables_eq ▸ ht), Query.joinTypeAfter_eq hs ht,
    h.filter_joinsOf_eq hi hi', ← List.head?_filterMap, hlinks, List.head?_filterMap]

theorem conditionsOn_eq (hearlier : ∀ u ∈ earlier, u ∈ q.tables) (ht : t ∈ q.tables) :
    q'.conditionsOn earlier t = q.conditionsOn earlier t := by
  have hearlier' : ∀ u ∈ earlier, u ∈ q'.tables := h.tables_eq ▸ hearlier
  rw [hi'.conditionsOn_eq hearlier' (h.tables_eq ▸ ht), hi.conditionsOn_eq hearlier ht,
    h.filter_joinsOf_eq hi hi']
  refine List.filter_congr fun j hj => ?_
  rw [partner?, h.ends?_eq (List.mem_filter.1 hj).2, partner?]

theorem placeAfter_eq (hearlier : ∀ u ∈ earlier, u ∈ q.tables) (hs : s ∈ q.tables)
    (hrest : ∀ u ∈ rest, u ∈ q.tables) :
    q'.placeAfter earlier s rest = q.placeAfter earlier s rest := by
  induction rest generalizing earlier s with
  | nil => rfl
  | cons t rest ih =>
    have ht : t ∈ q.tables := hrest t List.mem_cons_self
    have hearlier' : ∀ u ∈ earlier ++ [t], u ∈ q.tables := by
      intro u hu
      rcases List.mem_append.1 hu with hu | hu
      · exact hearlier u hu
      · exact List.mem_singleton.1 hu ▸ ht
    rw [placeAfter, placeAfter, h.joinTypeAfter_eq hi hi' hs ht,
      h.conditionsOn_eq hi hi' hearlier ht,
      ih hearlier' ht fun u hu => hrest u (List.mem_cons_of_mem t hu)]

theorem placements_eq (hnodup : q.tables.Nodup) : q'.placements = q.placements := by
  unfold placements
  rw [h.finishOrder_eq hi hi']
  split
  · rfl
  · rename_i first rest horder
    have hmem : ∀ u ∈ first :: rest, u ∈ q.tables := by
      intro u hu
      exact (finishOrder_perm_tables hnodup).mem_iff.1 (horder ▸ hu)
    have hfirst : ∀ u ∈ [first], u ∈ q.tables := by
      intro u hu
      exact List.mem_singleton.1 hu ▸ hmem first List.mem_cons_self
    exact h.placeAfter_eq hi hi' hfirst (hmem first List.mem_cons_self) fun u hu =>
      hmem u (List.mem_cons_of_mem first hu)

omit hi hi'

theorem table_eq (ht : t ∈ q.tables) : q'.container? t = q.container? t :=
  h.containers t ((q.isAttached_iff t).2 (Or.inr ht))

theorem home_eq {item : Item} (hi : q.isInside i) (hitem : q.item? i = some item) :
    q'.container? item.container = q.container? item.container := by
  rw [isInside_of_item? hitem] at hi
  exact h.containers _ hi

theorem conditionText?_eq (hj : q.connectsTables j) :
    q'.conditionText? n j = q.conditionText? n j := by
  obtain ⟨join, hjoin, hl, hr⟩ := join_of_connects hj
  unfold conditionText?
  simp only [h.joins j hj, hjoin, bind, Option.bind_some, h.items _ hl, h.items _ hr]
  refine Option.bind_congr fun left hleft => ?_
  refine Option.bind_congr fun right hright => ?_
  rw [h.home_eq hl hleft, h.home_eq hr hright]

theorem placementText_eq {p : Placement} (hp : p.table ∈ q.tables)
    (hconditions : ∀ j ∈ p.conditions, q.connectsTables j) :
    q'.placementText n p = q.placementText n p := by
  have htexts : p.conditions.filterMap (q'.conditionText? n) =
      p.conditions.filterMap (q.conditionText? n) :=
    List.filterMap_congr fun j hj => h.conditionText?_eq (hconditions j hj)
  rw [placementText, h.table_eq hp, onText, htexts, placementText, onText]

theorem fromClause_eq (ho : q.Owned) (hi : q.Indexed) (hi' : q'.Indexed) :
    q'.fromClause n = q.fromClause n := by
  have hfirst : q'.firstTableText n = q.firstTableText n := by
    rw [firstTableText, h.finishOrder_eq hi hi', firstTableText]
    cases hhead : q.finishOrder.head? with
    | none => rfl
    | some t =>
      have ht : t ∈ q.tables :=
        (finishOrder_perm_tables ho.nodup_tables).mem_iff.1 (List.mem_of_mem_head? hhead)
      rw [Option.bind_some, Option.bind_some, h.table_eq ht]
  have hplaced : q.placements.map (q'.placementText n) =
      q.placements.map (q.placementText n) := by
    refine List.map_congr_left fun p hp => ?_
    obtain ⟨htable, hconditions⟩ := hi.of_placement ho.nodup_tables hp
    exact h.placementText_eq htable hconditions
  rw [fromClause, h.tables_eq, hfirst, h.placements_eq hi hi' ho.nodup_tables, hplaced, fromClause]

/-! ## The statement -/

/-- But for the FROM clause a query reads as it does without its joins. -/
theorem agreeOn : AgreeOn (fun i => q.isInside i) q.unjoined q'.unjoined where
  outline := h.outline
  items i hi := h.items i hi
  columns j join hj := by
    have hnone : q.unjoined.join? j = none := IdMap.get?_empty j
    rw [hnone] at hj
    cases hj
  faces c hc := by
    have hattached : q.isAttached c := by
      rcases hc with ht | ⟨i, hi, hhome⟩
      · exact (q.isAttached_iff c).2 (Or.inr ht)
      · obtain ⟨c', hc', hattached⟩ := isInside_iff.1 hi
        obtain rfl : c = c' := Option.some.inj (hhome.symm.trans hc')
        exact hattached
    exact congrArg (Option.map Container.face) (h.containers c hattached)
  constants i c _ _ := by
    have hconst : q'.unjoined.constants = q.unjoined.constants := h.constants
    rw [hconst]

end

/-- Queries with the same inside have the same text. -/
theorem textWith_eq (h : SameInside q q') (hw : q.WellFormed) (hi' : q'.Indexed) :
    q'.textWith n = q.textWith n := by
  have hselected : ∀ i ∈ q.selected, q.isInside i := fun _ => hw.listed.selected.isInside
  have hsorted : ∀ i ∈ q.sortList, q.isInside i := fun _ => hw.listed.sortList.isInside
  have hcandidates : ∀ i ∈ q.filterCandidates, q.isInside i := fun i hi =>
    isInside_iff.2 (hw.owned.mem_filterCandidates.1 hi)
  have hcandidates_eq : q'.filterCandidates = q.filterCandidates := by
    rw [filterCandidates, filterCandidates, h.constants, h.tables_eq]
    refine List.flatMap_congr fun c hc => ?_
    rw [itemsOf, h.containers c ((q.isAttached_iff c).2 (List.mem_cons.1 hc)), itemsOf]
  have hselect : q'.selectClause n = q.selectClause n := h.agreeOn.selectClause hselected
  have hgroup : q'.groupByClause n = q.groupByClause n := h.agreeOn.groupByClause hselected
  have hhaving : q'.havingClause n = q.havingClause n := h.agreeOn.havingClause hselected
  have horder : q'.orderByClause n = q.orderByClause n := h.agreeOn.orderByClause hsorted
  have hfilters : q'.filterTexts n = q.filterTexts n :=
    h.agreeOn.filterTexts hcandidates_eq hcandidates
  have hwhere : q'.whereClause n = q.whereClause n := by
    have hglobal : q'.globalFilter = q.globalFilter := h.agreeOn.globalFilter_eq
    rw [whereClause, hfilters, hglobal, whereClause]
  have hgrouping : q'.grouping = q.grouping := h.agreeOn.grouping_eq
  have hhand : q'.handWritten = q.handWritten := h.agreeOn.handWritten_eq
  rw [textWith, textWith, hhand, derivedText, derivedText, h.selected_eq, statement, statement,
    hselect, h.fromClause_eq hw.owned hw.indexed hi', hwhere, hgrouping, hgroup, hhaving, horder]

end SameInside

end Query

end LiveSelect
