import Mathlib.Data.List.Induction
import LiveSelect.Proofs.Inside

/-! # The graph and the index of joins

A graph of the tables is made from the index: an arc is added for the first join that leads from
one table to another, and further joins between the two add nothing. The joins of a table, on the
other hand, are read from the index whenever they are asked for. Both views agree. Every join from
table to table is outbound at one table and inbound at another one, although the index lists it
under both; and the tables that arcs lead to are those that outbound joins lead to, in the order of
the oldest join to each. -/

namespace LiveSelect

/-! ## Repetitions -/

theorem eraseDups_concat {α : Type} [DecidableEq α] (l : List α) (x : α) :
    (l ++ [x]).eraseDups = if x ∈ l then l.eraseDups else l.eraseDups ++ [x] := by
  rw [List.eraseDups_append, List.removeAll, List.filter_singleton]
  by_cases hx : x ∈ l
  · simp [hx]
  · simp [hx, List.eraseDups_cons]

/-- One after the other, blocks of which all but one are empty are that one. -/
theorem flatMap_eq_of_mem {α β : Type} {l : List α} {f : α → List β} {x : α} (hl : l.Nodup)
    (hx : x ∈ l) (hf : ∀ y ∈ l, y ≠ x → f y = []) : l.flatMap f = f x := by
  obtain ⟨before, after, rfl⟩ := List.append_of_mem hx
  have hnot : x ∉ before ++ after := (List.nodup_middle.1 hl).notMem
  have hempty : ∀ l' ⊆ before ++ after, l'.flatMap f = [] := by
    intro l' hl'
    refine List.flatMap_eq_nil_iff.2 fun y hy => hf y ?_ fun heq => hnot (heq ▸ hl' hy)
    exact List.perm_middle.mem_iff.2 (List.mem_cons_of_mem x (hl' hy))
  rw [List.flatMap_append, List.flatMap_cons, hempty before (List.subset_append_left _ _),
    hempty after (List.subset_append_right _ _), List.nil_append, List.append_nil]

namespace JoinGraph

variable {g : JoinGraph} {arc : ContainerId × ContainerId} {t : ContainerId}

/-- An arc between nodes makes its target the last successor of its source, unless it is one. -/
theorem successors_addArc (hsource : arc.1 ∈ g.nodes) (htarget : arc.2 ∈ g.nodes) :
    (g.addArc arc).successors arc.1 =
      if arc.2 ∈ g.successors arc.1 then g.successors arc.1
      else g.successors arc.1 ++ [arc.2] := by
  have hlisted : arc ∈ g.arcs ↔ arc.2 ∈ g.successors arc.1 := mem_successors.symm
  unfold addArc
  by_cases hold : arc ∈ g.arcs
  · rw [if_pos (hlisted.1 hold), if_neg (by simp [hold])]
  · rw [if_neg (hold ∘ hlisted.2), if_pos (by simp [hold, hsource, htarget])]
    simp [successors]

theorem successors_addArc_of_ne (hne : arc.1 ≠ t) :
    (g.addArc arc).successors t = g.successors t := by
  unfold addArc
  split
  · simp [successors, hne]
  · rfl

/-- The successors of a node are the targets of the arcs that were added from it. -/
theorem successors_foldl_addArc {nodes : List ContainerId}
    {arcs : List (ContainerId × ContainerId)} (harcs : ∀ x ∈ arcs, x.1 ∈ nodes ∧ x.2 ∈ nodes)
    (t : ContainerId) :
    (arcs.foldl addArc { nodes }).successors t =
      ((arcs.filter (·.1 = t)).map Prod.snd).eraseDups := by
  -- The arc that is added last comes to the end, or is there already.
  induction arcs using List.reverseRecOn with
  | nil => rfl
  | append_singleton before arc ih =>
    let g := before.foldl addArc { nodes }
    have hg : g.successors t = _ := ih fun x hx => harcs x (List.mem_append_left _ hx)
    have hnodes : g.nodes = nodes := nodes_foldl_addArc _ before
    have hends := harcs arc (List.mem_append_right _ List.mem_cons_self)
    rw [List.foldl_concat, List.filter_append, List.map_append]
    change (g.addArc arc).successors t = _
    by_cases hsame : arc.1 = t
    · have hlast : ([arc].filter (·.1 = t)).map Prod.snd = [arc.2] := by simp [hsame]
      subst hsame
      rw [successors_addArc (hnodes ▸ hends.1) (hnodes ▸ hends.2), hlast, eraseDups_concat]
      simp only [hg, List.mem_eraseDups]
    · have hlast : ([arc].filter (·.1 = t)).map Prod.snd = [] := by simp [hsame]
      rw [successors_addArc_of_ne hsame, hlast, List.append_nil, hg]

end JoinGraph

namespace Query

variable {q : Query} {j : JoinId} {t : ContainerId}

/-! ## Joins at a table -/

theorem mem_outbound (h : q.Indexed) :
    j ∈ q.outbound t ↔ ∃ v, q.ends? j = some (t, v) ∧ t ∈ q.tables ∧ v ∈ q.tables := by
  rw [outbound, List.mem_filter, Bool.and_eq_true, connectsTables_iff, Option.any_eq_true]
  constructor
  · rintro ⟨-, ⟨u, v, hends, hu, hv⟩, x, hx, hsource⟩
    obtain rfl : (u, v) = x := Option.some.inj (hends.symm.trans hx)
    obtain rfl : u = t := by simpa using hsource
    exact ⟨v, hends, hu, hv⟩
  · rintro ⟨v, hends, ht, hv⟩
    exact ⟨h.mem_joinsOf.2 ⟨t, v, hends, Or.inl rfl⟩, ⟨t, v, hends, ht, hv⟩, (t, v), hends, by simp⟩

theorem mem_inbound (h : q.Indexed) :
    j ∈ q.inbound t ↔ ∃ u, q.ends? j = some (u, t) ∧ u ∈ q.tables ∧ t ∈ q.tables := by
  rw [inbound, List.mem_filter, Bool.and_eq_true, connectsTables_iff, Option.any_eq_true]
  constructor
  · rintro ⟨-, ⟨u, v, hends, hu, hv⟩, x, hx, htarget⟩
    obtain rfl : (u, v) = x := Option.some.inj (hends.symm.trans hx)
    obtain rfl : v = t := by simpa using htarget
    exact ⟨u, hends, hu, hv⟩
  · rintro ⟨u, hends, hu, ht⟩
    exact ⟨h.mem_joinsOf.2 ⟨u, t, hends, Or.inr rfl⟩, ⟨u, t, hends, hu, ht⟩, (u, t), hends, by simp⟩

namespace Indexed

/-- Lists that hold each join of tables at one of its two tables hold them all, each once. -/
theorem flatMap_perm_tableJoins (hnodup : q.tables.Nodup) {f : ContainerId → List JoinId}
    (side : ContainerId × ContainerId → ContainerId) (hside : ∀ x, side x = x.1 ∨ side x = x.2)
    (hf : ∀ t, (f t).Nodup)
    (hmem : ∀ t j, j ∈ f t ↔ q.connectsTables j ∧ (q.ends? j).map side = some t) :
    (q.tables.flatMap f).Perm q.tableJoins := by
  have hall : (q.tables.flatMap f).Nodup := by
    refine List.nodup_flatMap.2 ⟨fun t _ => hf t, hnodup.imp fun hne j hj hj' => hne ?_⟩
    exact Option.some.inj (((hmem _ j).1 hj).2.symm.trans ((hmem _ j).1 hj').2)
  refine (List.perm_ext_iff_of_nodup hall (q.allJoins_nodup.filter _)).2 fun j => ?_
  change _ ↔ j ∈ q.tableJoins
  simp only [List.mem_flatMap, hmem, mem_tableJoins]
  constructor
  · rintro ⟨t, -, hj, -⟩
    exact hj
  · intro hj
    obtain ⟨u, v, hends, hu, hv⟩ := connectsTables_iff.1 hj
    refine ⟨side (u, v), ?_, hj, by rw [hends, Option.map_some]⟩
    rcases hside (u, v) with heq | heq
    · exact heq ▸ hu
    · exact heq ▸ hv

theorem outbound_perm (h : q.Indexed) (hnodup : q.tables.Nodup) :
    (q.tables.flatMap q.outbound).Perm q.tableJoins := by
  refine flatMap_perm_tableJoins hnodup Prod.fst (fun _ => Or.inl rfl)
    (fun t => (h.nodup_joinsOf t).filter _) fun t j => ?_
  rw [mem_outbound h, connectsTables_iff]
  constructor
  · rintro ⟨v, hends, ht, hv⟩
    exact ⟨⟨t, v, hends, ht, hv⟩, by rw [hends, Option.map_some]⟩
  · rintro ⟨⟨u, v, hends, hu, hv⟩, hsource⟩
    obtain rfl : u = t := by simpa [hends] using hsource
    exact ⟨v, hends, hu, hv⟩

theorem inbound_perm (h : q.Indexed) (hnodup : q.tables.Nodup) :
    (q.tables.flatMap q.inbound).Perm q.tableJoins := by
  refine flatMap_perm_tableJoins hnodup Prod.snd (fun _ => Or.inr rfl)
    (fun t => (h.nodup_joinsOf t).filter _) fun t j => ?_
  rw [mem_inbound h, connectsTables_iff]
  constructor
  · rintro ⟨u, hends, hu, ht⟩
    exact ⟨⟨u, t, hends, hu, ht⟩, by rw [hends, Option.map_some]⟩
  · rintro ⟨⟨u, v, hends, hu, hv⟩, htarget⟩
    obtain rfl : v = t := by simpa [hends] using htarget
    exact ⟨u, hends, hu, hv⟩

/-- A join has two containers, so it is not both at one of them. -/
theorem not_outbound_and_inbound (h : q.Indexed) : ¬ (j ∈ q.outbound t ∧ j ∈ q.inbound t) := by
  rintro ⟨hout, hin⟩
  obtain ⟨v, hends, -⟩ := (mem_outbound h).1 hout
  obtain ⟨u, hends', -⟩ := (mem_inbound h).1 hin
  rw [hends, Option.some.injEq, Prod.mk.injEq] at hends'
  obtain ⟨join, hjoin, -⟩ := ends?_eq_some.1 hends
  obtain ⟨l, r, hlr, hne⟩ := h.ends_of_join hjoin
  rw [hends, Option.some.injEq, Prod.mk.injEq] at hlr
  exact hne (hlr.1.symm.trans (hends'.2.symm.trans hlr.2))

end Indexed

/-! ## Arcs and joins -/

/-- The ends of outbound joins, read from the index. -/
theorem filterMap_outbound (q : Query) (t : ContainerId) :
    (q.outbound t).filterMap q.ends? =
      (((q.joinsOf t).filter q.connectsTables).filterMap q.ends?).filter (·.1 = t) := by
  rw [outbound, List.filterMap_filter, List.filter_filterMap, List.filterMap_filter]
  refine List.filterMap_congr fun j _ => ?_
  cases hends : q.ends? j with
  | none => simp
  | some x => by_cases hj : q.connectsTables j <;> by_cases hx : x.1 = t <;> simp [hj, hx, Option.filter]

/-- The arcs that start at a table lead where its outbound joins lead, the oldest join first. -/
theorem successors_graph (hnodup : q.tables.Nodup) (t : ContainerId) :
    q.graph.successors t = (((q.outbound t).filterMap q.ends?).map Prod.snd).eraseDups := by
  have hinside : ∀ x ∈ q.tables.flatMap fun u => (q.outbound u).filterMap q.ends?,
      x.1 ∈ q.tables ∧ x.2 ∈ q.tables := by
    intro x hx
    obtain ⟨u, -, hx⟩ := List.mem_flatMap.1 hx
    obtain ⟨j, hj, hends⟩ := List.mem_filterMap.1 hx
    have hconnects := (Bool.and_eq_true_iff.1 (List.mem_filter.1 hj).2).1
    obtain ⟨l, r, hlr, hl, hr⟩ := connectsTables_iff.1 hconnects
    obtain rfl : (l, r) = x := Option.some.inj (hlr.symm.trans hends)
    exact ⟨hl, hr⟩
  have hsource : ∀ u, ∀ x ∈ (q.outbound u).filterMap q.ends?, x.1 = u := by
    intro u x hx
    rw [filterMap_outbound] at hx
    simpa using (List.mem_filter.1 hx).2
  -- Of all arcs that are added, those that start at the table come from its own joins.
  have harcs : (q.tables.flatMap fun u => (q.outbound u).filterMap q.ends?).filter (·.1 = t) =
      (q.outbound t).filterMap q.ends? := by
    have hself : ((q.outbound t).filterMap q.ends?).filter (·.1 = t) =
        (q.outbound t).filterMap q.ends? :=
      List.filter_eq_self.2 fun x hx => decide_eq_true (hsource t x hx)
    have hother : ∀ u ∈ q.tables, u ≠ t →
        ((q.outbound u).filterMap q.ends?).filter (·.1 = t) = [] := by
      intro u _ hne
      refine List.filter_eq_nil_iff.2 fun x hx heq => hne ?_
      rw [← hsource u x hx]
      exact of_decide_eq_true heq
    rw [List.filter_flatMap]
    by_cases ht : t ∈ q.tables
    · rw [flatMap_eq_of_mem hnodup ht hother, hself]
    · have hnone : (q.outbound t).filterMap q.ends? = [] := by
        refine List.eq_nil_iff_forall_not_mem.2 fun x hx => ht ?_
        obtain ⟨j, hj, hends⟩ := List.mem_filterMap.1 hx
        have hconnects := (Bool.and_eq_true_iff.1 (List.mem_filter.1 hj).2).1
        obtain ⟨l, r, hlr, hl, -⟩ := connectsTables_iff.1 hconnects
        obtain rfl : (l, r) = x := Option.some.inj (hlr.symm.trans hends)
        exact hsource t _ hx ▸ hl
      rw [hnone]
      refine List.flatMap_eq_nil_iff.2 fun u hu => hother u hu fun heq => ht (heq ▸ hu)
  have hgraph : q.graph = (q.tables.flatMap fun u => (q.outbound u).filterMap q.ends?).foldl
      .addArc { nodes := q.tables } := by
    rw [graph_eq]
    simp only [filterMap_outbound]
  rw [hgraph, JoinGraph.successors_foldl_addArc hinside, harcs]

/-- In a reachable query the graph has the tables as its nodes. Its edges are, in the order in
which they were made, the joins whose containers are both tables; each of them is outbound at one
table and inbound at another. Arcs lead from a table to the right containers of its outbound joins,
each listed once, where the oldest of these joins stands. -/
theorem Reachable.graph_consistent (h : q.Reachable) :
    q.graph.nodes = q.tables ∧
    (q.graph.nodes.flatMap q.outbound).Perm q.tableJoins ∧
    (q.graph.nodes.flatMap q.inbound).Perm q.tableJoins ∧
    (∀ t j, ¬ (j ∈ q.outbound t ∧ j ∈ q.inbound t)) ∧
    (q.tableJoins.Pairwise fun j k => j.toNat < k.toNat) ∧
    (∀ j, j ∈ q.tableJoins ↔ ∃ u v, q.ends? j = some (u, v) ∧ u ∈ q.tables ∧ v ∈ q.tables) ∧
    (∀ t j, j ∈ q.outbound t ↔ ∃ v, q.ends? j = some (t, v) ∧ t ∈ q.tables ∧ v ∈ q.tables) ∧
    (∀ t j, j ∈ q.inbound t ↔ ∃ u, q.ends? j = some (u, t) ∧ u ∈ q.tables ∧ t ∈ q.tables) ∧
    ∀ t, q.graph.successors t = (((q.outbound t).filterMap q.ends?).map Prod.snd).eraseDups := by
  have hi : q.Indexed := h.wellFormed.indexed
  have hnodup : q.tables.Nodup := h.wellFormed.owned.nodup_tables
  rw [nodes_graph]
  refine ⟨rfl, hi.outbound_perm hnodup, hi.inbound_perm hnodup,
    fun _ _ => hi.not_outbound_and_inbound, q.joins.keys_ascending.filter _, fun j => ?_,
    fun _ _ => mem_outbound hi, fun _ _ => mem_inbound hi, successors_graph hnodup⟩
  rw [mem_tableJoins, connectsTables_iff]

/-- Of three tables with joins both ways one has two joins to another; joins lead to the constants
and from a table outside the statement as well. -/
def tangledTables : Query :=
  let uuid : Uuid := .ofNat 0
  [ .addItem (.ofCount 4) { name := "Y" } uuid,
    .addJoin { left := .ofCount 13, right := .ofCount 7 },
    .addJoin { left := .ofCount 5, right := .ofCount 9 },
    .addJoin { left := .ofCount 5, right := .ofCount 1 },
    .newTable { name := "V" } uuid, .addItem (.ofCount 17) { name := "X" } uuid,
    .addJoin { left := .ofCount 18, right := .ofCount 7 } ].foldl after loopedTables

theorem tangledTables_reachable : tangledTables.Reachable :=
  loopedTables_reachable.foldl_after _ (by decide +kernel)

/-- Two joins make one arc, and joins that lead outside make none. -/
theorem tangledTables_graph :
    tangledTables.Reachable ∧
      tangledTables.joinsOf (.ofCount 4) =
        [.ofCount 10, .ofCount 11, .ofCount 14, .ofCount 15, .ofCount 16] ∧
      tangledTables.outbound (.ofCount 4) = [.ofCount 10, .ofCount 14, .ofCount 15] ∧
      tangledTables.graph.successors (.ofCount 4) = [.ofCount 6, .ofCount 8] ∧
      (tangledTables.tables.flatMap tangledTables.outbound).Perm
        [.ofCount 10, .ofCount 11, .ofCount 12, .ofCount 14, .ofCount 15] := by
  rcases tangledTables_reachable.graph_consistent with ⟨hnodes, hperm, -, -, -, -, -, -, harcs⟩
  rw [hnodes] at hperm
  refine ⟨tangledTables_reachable, by decide +kernel, by decide +kernel, ?_, ?_⟩
  · rw [harcs]
    decide +kernel
  · have hjoins : tangledTables.tableJoins =
        [.ofCount 10, .ofCount 11, .ofCount 12, .ofCount 14, .ofCount 15] := by decide +kernel
    rwa [hjoins] at hperm

end Query

end LiveSelect
