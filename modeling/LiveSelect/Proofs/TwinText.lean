import LiveSelect.Query.Statement
import LiveSelect.Proofs.Twin

/-! # Twins have the same text

The text of a query is decided by names, properties and orders, never by a number. So the
clauses of twins are decided alike, entry by entry, and a naming that does not look at
numbers and identifiers spells them alike. The order of the tables needs a search of the
graph of joins; the searches of twins proceed in step. -/

namespace LiveSelect

/-- A naming that looks at no number and at no identifier. -/
structure Naming.Blind (n : Naming) : Prop where
  item : ∀ x y : Item, x.toItemSpec = y.toItemSpec → n.item x = n.item y
  table : ∀ x y : Container, x.name = y.name → x.kind = y.kind → n.table x = n.table y

theorem Naming.plain_blind : Naming.plain.Blind where
  item _ _ h := congrArg ItemSpec.name h
  table _ _ h _ := h

theorem Dialect.naming_blind (d : Dialect) : d.naming.Blind where
  item x y h := by
    have hname : x.name = y.name := congrArg ItemSpec.name h
    have hkind : x.kind = y.kind := congrArg ItemSpec.kind h
    simp only [naming, hname, hkind]
  table x y hname hkind := by
    simp only [naming, hname, hkind]

/-! ## The order of the tables -/

namespace JoinGraph

variable {r : Renumbering}

/-- Ends of arcs that stand for each other. -/
def ArcMatches (r : Renumbering) (x y : ContainerId × ContainerId) : Prop :=
  r.Pairs x.1 y.1 ∧ r.Pairs x.2 y.2

/-- Graphs that are the same but for the numbers of their nodes. -/
structure Matches (r : Renumbering) (g g' : JoinGraph) : Prop where
  nodes : List.Forall₂ r.Pairs g.nodes g'.nodes
  arcs : List.Forall₂ (ArcMatches r) g.arcs g'.arcs

/-- Searches that have come equally far. -/
structure Search.Matches (r : Renumbering) (s s' : Search) : Prop where
  reached : List.Forall₂ r.Pairs s.reached s'.reached
  finished : List.Forall₂ r.Pairs s.finished s'.finished

theorem arcMatches_biUnique (hr : r.OneToOne) : Relator.BiUnique (ArcMatches r) := by
  constructor
  · intro x y z hxz hyz
    exact Prod.ext ((hr _).1 hxz.1 hyz.1) ((hr _).1 hxz.2 hyz.2)
  · intro x y z hxy hxz
    exact Prod.ext ((hr _).2 hxy.1 hxz.1) ((hr _).2 hxy.2 hxz.2)

namespace Matches

variable {g g' : JoinGraph} (hr : r.OneToOne)

include hr

theorem addArc (h : g.Matches r g') {x y : ContainerId × ContainerId} (hxy : ArcMatches r x y) :
    (g.addArc x).Matches r (g'.addArc y) := by
  unfold JoinGraph.addArc
  rw [contains_eq (hr _) hxy.1 h.nodes, contains_eq (hr _) hxy.2 h.nodes,
    contains_eq (arcMatches_biUnique hr) hxy h.arcs]
  split
  · exact { h with arcs := List.rel_append h.arcs (.cons hxy .nil) }
  · exact h

theorem foldl_addArc (h : g.Matches r g') {xs ys : List (ContainerId × ContainerId)}
    (hl : List.Forall₂ (ArcMatches r) xs ys) :
    (xs.foldl JoinGraph.addArc g).Matches r (ys.foldl JoinGraph.addArc g') :=
  foldl_matches h hl fun _ _ _ _ h hxy => h.addArc hr hxy

theorem successors (h : g.Matches r g') {t t' : ContainerId} (ht : r.Pairs t t') :
    List.Forall₂ r.Pairs (g.successors t) (g'.successors t') := by
  have hfrom : List.Forall₂ (ArcMatches r) (g.arcs.filter (·.1 = t))
      (g'.arcs.filter (·.1 = t')) := by
    refine forall₂_filter ?_ h.arcs
    intro x y hxy
    rw [decide_eq_decide]
    exact eq_iff_eq (hr _) hxy.1 ht
  exact List.rel_map (fun _ _ hxy => hxy.2) hfrom

/-- Searches proceed in step. -/
theorem visit (h : g.Matches r g') (depth : Nat) {s s' : Search} (hs : s.Matches r s')
    {t t' : ContainerId} (ht : r.Pairs t t') :
    (g.visit depth s t).Matches r (g'.visit depth s' t') := by
  induction depth generalizing s s' t t' with
  | zero => exact hs
  | succ depth ih =>
    simp only [JoinGraph.visit]
    rw [contains_eq (hr _) ht hs.reached]
    split
    · exact hs
    · -- The table is entered on both sides, then its successors are visited in turn.
      have hloop : Search.Matches r
          ((g.successors t).foldl (g.visit depth) { s with reached := t :: s.reached })
          ((g'.successors t').foldl (g'.visit depth) { s' with reached := t' :: s'.reached }) :=
        foldl_matches (P := Search.Matches r) ⟨.cons ht hs.reached, hs.finished⟩
          (h.successors hr ht) fun _ _ _ _ hs ht => ih hs ht
      exact { hloop with finished := .cons ht hloop.finished }

theorem finishOrder (h : g.Matches r g') :
    List.Forall₂ r.Pairs g.finishOrder g'.finishOrder := by
  have hloop : Search.Matches r (g.nodes.foldl (g.visit g.nodes.length) {})
      (g'.nodes.foldl (g'.visit g.nodes.length) {}) :=
    foldl_matches (P := Search.Matches r) ⟨.nil, .nil⟩ h.nodes fun _ _ _ _ hs ht =>
      h.visit hr _ hs ht
  unfold JoinGraph.finishOrder
  -- The number of nodes bounds both searches.
  rw [← h.nodes.length_eq]
  exact hloop.finished

end Matches

end JoinGraph

/-- Where matching tables stand. -/
structure Placement.Matches (r : Renumbering) (x y : Placement) : Prop where
  table : r.Pairs x.table y.table
  joinType : x.joinType = y.joinType
  conditions : List.Forall₂ r.Pairs x.conditions y.conditions

section Properties

variable {r : Renumbering} {x y : Item} {k k' : Container}

theorem Container.Matches.activeAlias? (h : k.Matches r k') : k.activeAlias? = k'.activeAlias? := by
  rw [Container.activeAlias?, Container.activeAlias?, h.aliasName]

theorem Container.Matches.correlationName (h : k.Matches r k') :
    k.correlationName = k'.correlationName := by
  rw [Container.correlationName, Container.correlationName, h.activeAlias?, h.name]

end Properties

namespace Query.Twin

variable {r : Renumbering} {q q' : Query} {n : Naming} {c c' : ContainerId} {x y : Item}

theorem graph (h : Twin r q q') (hi : q.Indexed) (hi' : q'.Indexed) :
    q.graph.Matches r q'.graph := by
  refine JoinGraph.Matches.foldl_addArc h.oneToOne ⟨h.tables, .nil⟩ ?_
  apply List.rel_flatMap h.tables
  intro t t' ht
  -- Arcs of a table are its joins to the right.
  refine forall₂_filter (fun x y hxy => ?_)
    (List.rel_filterMap (P := JoinGraph.ArcMatches r) (fun _ _ hj => h.ends? hj)
      (h.joinsOf hi hi' ht))
  rw [decide_eq_decide]
  exact eq_iff_eq (h.oneToOne _) hxy.1 ht

theorem finishOrder (h : Twin r q q') (hi : q.Indexed) (hi' : q'.Indexed) :
    List.Forall₂ r.Pairs q.finishOrder q'.finishOrder :=
  (h.graph hi hi').finishOrder h.oneToOne

/-! ## Names and expressions -/

theorem grouping_eq (h : Twin r q q') : q.grouping = q'.grouping := by
  have heq := congrArg Query.grouping h.emptied
  exact heq

theorem globalFilter_eq (h : Twin r q q') : q.globalFilter = q'.globalFilter := by
  have heq := congrArg Query.globalFilter h.emptied
  exact heq

theorem handWritten_eq (h : Twin r q q') : q.handWritten = q'.handWritten := by
  have heq := congrArg Query.handWritten h.emptied
  exact heq

theorem dialect_eq (h : Twin r q q') : q.dialect = q'.dialect := by
  have heq := congrArg Query.dialect h.emptied
  exact heq

theorem resolve (h : Twin r q q') {ids ids' : List ItemId} (hids : List.Forall₂ r.Pairs ids ids') :
    List.Forall₂ (Item.Matches r) (q.resolve ids) (q'.resolve ids') :=
  List.rel_filterMap (fun _ _ hi => h.item? hi) hids

theorem qualifier (h : Twin r q q') (hc : r.Pairs c c') : q.qualifier c = q'.qualifier c' := by
  have hconst := eq_iff_eq (h.oneToOne _) hc h.constants
  unfold Query.qualifier
  rw [contains_eq (h.oneToOne _) hc h.tables]
  simp only [hconst]
  rcases rel_cases (h.container? hc) with ⟨hq, hq'⟩ | ⟨k, k', hq, hq', hk⟩
  · rw [hq, hq']
  · simp only [hq, hq', hk.activeAlias?, hk.name]

variable (hn : n.Blind)

include hn

theorem columnText (h : Twin r q q') (hxy : x.Matches r y) :
    q.columnText n x = q'.columnText n y := by
  rw [Query.columnText, Query.columnText, h.qualifier hxy.container, hn.item x y hxy.spec]

theorem expression (h : Twin r q q') (hxy : x.Matches r y) (wrap : Bool) :
    q.expression n wrap x = q'.expression n wrap y := by
  have hkind : x.kind = y.kind := congrArg ItemSpec.kind hxy.spec
  have hname : x.name = y.name := congrArg ItemSpec.name hxy.spec
  have hrole : x.groupRole = y.groupRole := congrArg ItemSpec.groupRole hxy.spec
  simp only [Query.expression, hkind, hname, hrole, h.columnText hn hxy]

/-! ## The clauses -/

theorem selectClause (h : Twin r q q') : q.selectClause n = q'.selectClause n := by
  have hentries : (q.resolve q.selected).map (q.selectEntry n) =
      (q'.resolve q'.selected).map (q'.selectEntry n) := by
    apply map_eq_map (h.resolve h.selected)
    intro x y hxy
    have halias : x.aliasName = y.aliasName := congrArg ItemSpec.aliasName hxy.spec
    simp only [selectEntry, Item.activeAlias?, halias, h.grouping_eq, h.expression hn hxy]
  rw [Query.selectClause, Query.selectClause, hentries]

omit hn in
theorem linkType? (h : Twin r q q') {t t' : ContainerId} (ht : r.Pairs t t')
    (hc : r.Pairs c c') {j j' : JoinId} (hj : r.Pairs j j') :
    q.linkType? t c j = q'.linkType? t' c' j' := by
  unfold Query.linkType?
  rcases rel_cases (h.join? hj) with ⟨hq, hq'⟩ | ⟨k, k', hq, hq', hk⟩
  · rw [hq, hq']
    rfl
  · rcases rel_cases (h.ends? hj) with ⟨he, he'⟩ | ⟨⟨u, v⟩, ⟨u', v'⟩, he, he', hu, hv⟩
    · rw [hq, hq', he, he']
      rfl
    · -- Which end of the join is meant is decided by equal numbers on both sides.
      have hut := eq_iff_eq (h.oneToOne _) hu ht
      have huc := eq_iff_eq (h.oneToOne _) hu hc
      have hvt := eq_iff_eq (h.oneToOne _) hv ht
      have hvc := eq_iff_eq (h.oneToOne _) hv hc
      simp only [hq, hq', he, he', bind, Option.bind_some, hut, huc, hvt, hvc, hk.leftOuter,
        hk.rightOuter]

omit hn in
theorem joinTypeAfter (h : Twin r q q') (hi : q.Indexed) (hi' : q'.Indexed) {t t' : ContainerId}
    (ht : r.Pairs t t') (hc : r.Pairs c c') : q.joinTypeAfter t c = q'.joinTypeAfter t' c' := by
  rw [Query.joinTypeAfter, Query.joinTypeAfter,
    findSome?_eq_findSome? (h.joinsOf hi hi' hc) fun _ _ hj => h.linkType? ht hc hj]

omit hn in
theorem conditionsOn (h : Twin r q q') (hi : q.Indexed) (hi' : q'.Indexed)
    {earlier earlier' : List ContainerId} (he : List.Forall₂ r.Pairs earlier earlier')
    (hc : r.Pairs c c') :
    List.Forall₂ r.Pairs (q.conditionsOn earlier c) (q'.conditionsOn earlier' c') := by
  refine forall₂_filter ?_ (h.joinsOf hi hi' hc)
  intro j j' hj
  have hpartner : Option.Rel r.Pairs (q.partner? c j) (q'.partner? c' j') := by
    refine rel_map ?_ (h.ends? hj)
    intro x y hxy
    simp only [eq_iff_eq (h.oneToOne _) hxy.1 hc]
    split
    · exact hxy.2
    · exact hxy.1
  exact rel_any (fun x y hxy => contains_eq (h.oneToOne _) hxy he) hpartner

omit hn in
theorem placeAfter (h : Twin r q q') (hi : q.Indexed) (hi' : q'.Indexed)
    {earlier earlier' : List ContainerId} (he : List.Forall₂ r.Pairs earlier earlier')
    (hc : r.Pairs c c') {rest rest' : List ContainerId}
    (hrest : List.Forall₂ r.Pairs rest rest') :
    List.Forall₂ (Placement.Matches r) (q.placeAfter earlier c rest)
      (q'.placeAfter earlier' c' rest') := by
  induction hrest generalizing earlier earlier' c c' with
  | nil => exact .nil
  | cons ht _ ih =>
    exact .cons ⟨ht, h.joinTypeAfter hi hi' hc ht, h.conditionsOn hi hi' he ht⟩
      (ih (List.rel_append he (.cons ht .nil)) ht)

omit hn in
theorem placements (h : Twin r q q') (hi : q.Indexed) (hi' : q'.Indexed) :
    List.Forall₂ (Placement.Matches r) q.placements q'.placements := by
  unfold Query.placements
  have horder := h.finishOrder hi hi'
  revert horder
  cases q.finishOrder <;> cases q'.finishOrder <;> intro horder <;> cases horder
  · exact .nil
  · rename_i ht hrest
    exact h.placeAfter hi hi' (.cons ht .nil) ht hrest

theorem conditionText? (h : Twin r q q') {j j' : JoinId} (hj : r.Pairs j j') :
    q.conditionText? n j = q'.conditionText? n j' := by
  -- The join, its two items and their two containers are looked up in this order.
  refine eq_of_rel (rel_bind ?_ (h.join? hj))
  intro k k' hk
  refine rel_bind ?_ (h.item? hk.left)
  intro x y hxy
  refine rel_bind ?_ (h.item? hk.right)
  intro u v huv
  refine rel_bind ?_ (h.container? hxy.container)
  intro a b hab
  refine rel_bind ?_ (h.container? huv.container)
  intro s t hst
  refine .some ?_
  rw [hab.correlationName, hst.correlationName, hn.item x y hxy.spec, hn.item u v huv.spec,
    hk.comparator]

theorem placementText (h : Twin r q q') {p p' : Placement} (hp : p.Matches r p') :
    q.placementText n p = q'.placementText n p' := by
  have hconditions : p.conditions.filterMap (q.conditionText? n) =
      p'.conditions.filterMap (q'.conditionText? n) :=
    filterMap_eq_filterMap hp.conditions fun _ _ hj => h.conditionText? hn hj
  unfold Query.placementText onText
  rw [hconditions, hp.joinType]
  rcases rel_cases (h.container? hp.table) with ⟨hq, hq'⟩ | ⟨k, k', hq, hq', hk⟩
  · rw [hq, hq']
  · simp only [hq, hq', tableText, hn.table k k' hk.name hk.kind, hk.correlationName]

theorem firstTableText (h : Twin r q q') (hi : q.Indexed) (hi' : q'.Indexed) :
    q.firstTableText n = q'.firstTableText n := by
  have hfirst : Option.Rel (Container.Matches r) (q.finishOrder.head?.bind q.container?)
      (q'.finishOrder.head?.bind q'.container?) :=
    rel_bind (fun _ _ hc => h.container? hc) (rel_head? (h.finishOrder hi hi'))
  unfold Query.firstTableText
  rcases rel_cases hfirst with ⟨hq, hq'⟩ | ⟨k, k', hq, hq', hk⟩
  · rw [hq, hq']
  · simp only [hq, hq', tableText, hn.table k k' hk.name hk.kind, hk.correlationName]

theorem fromClause (h : Twin r q q') (hi : q.Indexed) (hi' : q'.Indexed) :
    q.fromClause n = q'.fromClause n := by
  have hplaced := map_eq_map (h.placements hi hi') fun _ _ hp => h.placementText hn hp
  have hempty : q.tables = [] ↔ q'.tables = [] := nil_iff_nil h.tables
  rw [Query.fromClause, Query.fromClause, hplaced, h.firstTableText hn hi hi']
  simp only [hempty]

theorem whereClause (h : Twin r q q') : q.whereClause n = q'.whereClause n := by
  have hcandidates : List.Forall₂ r.Pairs q.filterCandidates q'.filterCandidates :=
    List.rel_flatMap (.cons h.constants h.tables) fun _ _ hc => h.itemsOf hc
  have hfilters : q.filterTexts n = q'.filterTexts n := by
    apply filterMap_eq_filterMap (h.resolve hcandidates)
    intro x y hxy
    have hfilter : x.filter = y.filter := congrArg ItemSpec.filter hxy.spec
    simp only [filterText?, Item.activeFilter?, hfilter, h.columnText hn hxy]
  rw [Query.whereClause, Query.whereClause, hfilters, h.globalFilter_eq]

theorem groupByClause (h : Twin r q q') : q.groupByClause n = q'.groupByClause n := by
  have hgrouped : List.Forall₂ (Item.Matches r) ((q.resolve q.selected).filter isGrouped)
      ((q'.resolve q'.selected).filter isGrouped) := by
    refine forall₂_filter ?_ (h.resolve h.selected)
    intro x y hxy
    have hkind : x.kind = y.kind := congrArg ItemSpec.kind hxy.spec
    have hrole : x.groupRole = y.groupRole := congrArg ItemSpec.groupRole hxy.spec
    simp only [isGrouped, hkind, hrole]
  rw [Query.groupByClause, Query.groupByClause,
    map_eq_map hgrouped fun _ _ hxy => h.columnText hn hxy]

theorem havingClause (h : Twin r q q') : q.havingClause n = q'.havingClause n := by
  have hconditions : (q.resolve q.selected).filterMap (q.havingText? n) =
      (q'.resolve q'.selected).filterMap (q'.havingText? n) := by
    apply filterMap_eq_filterMap (h.resolve h.selected)
    intro x y hxy
    have hhaving : x.having = y.having := congrArg ItemSpec.having hxy.spec
    simp only [havingText?, Item.activeHaving?, hhaving, h.expression hn hxy]
  rw [Query.havingClause, Query.havingClause, hconditions]

theorem orderByClause (h : Twin r q q') : q.orderByClause n = q'.orderByClause n := by
  have hsortable : List.Forall₂ (Item.Matches r) ((q.resolve q.sortList).filter isSortable)
      ((q'.resolve q'.sortList).filter isSortable) := by
    refine forall₂_filter ?_ (h.resolve h.sortList)
    intro x y hxy
    have hkind : x.kind = y.kind := congrArg ItemSpec.kind hxy.spec
    simp only [isSortable, hkind]
  have hentries := map_eq_map (f := q.orderByEntry n) hsortable fun x y hxy => by
    have hsort : x.sortOrder = y.sortOrder := congrArg ItemSpec.sortOrder hxy.spec
    show _ = q'.orderByEntry n y
    simp only [orderByEntry, hsort, h.grouping_eq, h.expression hn hxy]
  rw [Query.orderByClause, Query.orderByClause, hentries]

/-! ## The statement -/

/-- Twins have the same text in every naming that looks at no number. -/
theorem textWith (h : Twin r q q') (hi : q.Indexed) (hi' : q'.Indexed) :
    q.textWith n = q'.textWith n := by
  have hempty : q.selected = [] ↔ q'.selected = [] := nil_iff_nil h.selected
  have hstatement : q.statement n = q'.statement n := by
    rw [statement, statement, h.selectClause hn, h.fromClause hn hi hi', h.whereClause hn,
      h.groupByClause hn, h.havingClause hn, h.orderByClause hn, h.grouping_eq]
  simp only [Query.textWith, derivedText, hempty, hstatement, h.handWritten_eq]

omit hn in
theorem text (h : Twin r q q') (hi : q.Indexed) (hi' : q'.Indexed) : q.text = q'.text := by
  rw [Query.text, Query.text, h.dialect_eq, h.textWith q'.dialect.naming_blind hi hi']

end Query.Twin

end LiveSelect
