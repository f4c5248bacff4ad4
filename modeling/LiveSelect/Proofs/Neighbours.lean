import LiveSelect.Proofs.FinishOrder

/-! # Neighbours in the order of the tables

A table gets a condition in the statement only if a table that it is joined to stands before
it. A table that the search reaches from another one follows the table through which it was
reached. A table that starts a search stands before everything that it leads to; so the only
neighbours that can stand before it are those from which a join leads to it, but to which none
leads back. That a table is connected with an earlier one is therefore not enough. -/

namespace LiveSelect

namespace JoinGraph

variable {g : JoinGraph} {s s' : Search} {ts ts₁ ts₂ : List ContainerId} {t u v : ContainerId}

/-! ## Searches from nothing -/

namespace Visits

theorem split (h : g.Visits s (ts₁ ++ ts₂) s') :
    ∃ s₁, g.Visits s ts₁ s₁ ∧ g.Visits s₁ ts₂ s' := by
  induction ts₁ generalizing s with
  | nil => exact ⟨s, .nil s, h⟩
  | cons t rest ih =>
    cases h with
    | known ht hrest =>
      obtain ⟨s₁, hfirst, hlast⟩ := ih hrest
      exact ⟨s₁, .known ht hfirst, hlast⟩
    | new ht hsucc hrest =>
      obtain ⟨s₁, hfirst, hlast⟩ := ih hrest
      exact ⟨s₁, .new ht hsucc hfirst, hlast⟩

/-- What is reached is led to from the nodes that are searched from. -/
theorem led_to (h : g.Visits s ts s') (hu : u ∈ s'.reached) :
    u ∈ s.reached ∨ ∃ t ∈ ts, g.Reaches t u := by
  induction h with
  | nil s => exact Or.inl hu
  | known _ _ ih =>
    rcases ih hu with hold | ⟨t, ht, hreach⟩
    · exact Or.inl hold
    · exact Or.inr ⟨t, List.mem_cons_of_mem _ ht, hreach⟩
  | @new s s₁ s' t ts _ _ _ ihsucc ihrest =>
    rcases ihrest hu with hinner | ⟨w, hw, hreach⟩
    · rcases ihsucc hinner with hold | ⟨w, hw, hreach⟩
      · rcases List.mem_cons.1 hold with rfl | hold
        · exact Or.inr ⟨u, List.mem_cons_self, .refl⟩
        · exact Or.inl hold
      · exact Or.inr ⟨t, List.mem_cons_self, .head hw hreach⟩
    · exact Or.inr ⟨w, List.mem_cons_of_mem _ hw, hreach⟩

/-- The successors of a node that is finished on the way are reached. -/
theorem reaches_successors (h : g.Visits s ts s') (hu : u ∈ s'.finished) :
    u ∈ s.finished ∨ ∀ v ∈ g.successors u, v ∈ s'.reached := by
  induction h with
  | nil s => exact Or.inl hu
  | known _ _ ih => exact ih hu
  | @new s s₁ s' t ts _ hsucc hrest ihsucc ihrest =>
    have hkeep : ∀ v ∈ s₁.reached, v ∈ s'.reached := fun v hv => hrest.reached_subset hv
    rcases ihrest hu with hinner | hall
    · rcases List.mem_cons.1 hinner with rfl | hinner
      · exact Or.inr fun v hv => hkeep v (hsucc.reaches_all v hv)
      · exact (ihsucc hinner).imp id fun hall v hv => hkeep v (hall v hv)
    · exact Or.inr hall

/-- A node that is finished on the way is one of those that are searched from, or an arc leads
to it from a node that stands before it. -/
theorem follows (h : g.Visits s ts s') (hu : u ∈ s'.finished) (hnew : u ∉ s.finished) :
    u ∈ ts ∨ ∃ p l₁ l₂, s'.finished = l₁ ++ u :: l₂ ∧ p ∈ l₁ ∧ u ∈ g.successors p := by
  induction h with
  | nil s => exact absurd hu hnew
  | known _ _ ih => exact (ih hu hnew).imp (List.mem_cons_of_mem _) id
  | @new s s₁ s' t ts _ _ hrest ihsucc ihrest =>
    by_cases hinner : u ∈ s₁.finished
    · -- The node itself is finished right after everything that it leads to.
      obtain ⟨later, hfinished, -⟩ := hrest.added
      rcases ihsucc hinner hnew with hsucc | ⟨p, l₁, l₂, hlist, hp, harc⟩
      · obtain ⟨l₁, l₂, hlist⟩ := List.append_of_mem hinner
        refine Or.inr ⟨t, later ++ t :: l₁, l₂, ?_, by simp, hsucc⟩
        simp [hfinished, hlist]
      · refine Or.inr ⟨p, later ++ t :: l₁, l₂, ?_, by simp [hp], harc⟩
        simp [hfinished, hlist]
    · by_cases hut : u = t
      · exact Or.inl (hut ▸ List.mem_cons_self)
      · have hnew' : u ∉ t :: s₁.finished := fun hmem =>
          (List.mem_cons.1 hmem).elim hut hinner
        exact (ihrest hu hnew').imp (List.mem_cons_of_mem _) id

/-- A search from nothing finishes exactly what the nodes that are searched from lead to. -/
theorem mem_finished_iff (h : g.Visits {} ts s) :
    u ∈ s.finished ↔ ∃ t ∈ ts, g.Reaches t u := by
  obtain ⟨new, hfinished, hreached⟩ := h.added
  rw [List.append_nil] at hfinished hreached
  have hsame : ∀ v, v ∈ s.finished ↔ v ∈ s.reached := by
    intro v
    rw [hfinished, hreached.mem_iff]
  constructor
  · intro hu
    exact (h.led_to ((hsame u).1 hu)).resolve_left List.not_mem_nil
  · rintro ⟨t, ht, hreach⟩
    induction hreach with
    | refl => exact (hsame t).2 (h.reaches_all t ht)
    | tail _ harc ih =>
      have hclosed := (h.reaches_successors ih).resolve_left List.not_mem_nil
      exact (hsame _).2 (hclosed _ harc)

/-- A node that an earlier one leads to follows a node with an arc to it. -/
theorem follows_of_reaches (h : g.Visits {} (ts₁ ++ ts₂) s) (ht : t ∉ ts₁) (hu : u ∈ ts₁)
    (hreach : g.Reaches u t) :
    ∃ p l₁ l₂, s.finished = l₁ ++ t :: l₂ ∧ p ∈ l₁ ∧ t ∈ g.successors p := by
  obtain ⟨s₁, hfirst, hlast⟩ := h.split
  have hmem : t ∈ s₁.finished := hfirst.mem_finished_iff.2 ⟨u, hu, hreach⟩
  obtain ⟨p, l₁, l₂, hlist, hp, harc⟩ :=
    (hfirst.follows hmem List.not_mem_nil).resolve_left ht
  obtain ⟨later, hfinished, -⟩ := hlast.added
  exact ⟨p, later ++ l₁, l₂, by simp [hfinished, hlist], by simp [hp], harc⟩

/-- A node that no earlier one leads to stands before everything that it leads to itself. -/
theorem stands_first (h : g.Visits {} (ts₁ ++ t :: ts₂) s)
    (hstart : ∀ u ∈ ts₁, ¬ g.Reaches u t) :
    ∃ l₁ l₂, s.finished = l₁ ++ t :: l₂ ∧ ∀ u, g.Reaches t u → u ≠ t → u ∈ l₂ := by
  rw [List.append_cons] at h
  obtain ⟨s₂, hfirst, hlast⟩ := h.split
  obtain ⟨later, hfinished, -⟩ := hlast.added
  obtain ⟨s₁, hbefore, hnode⟩ := hfirst.split
  have hfresh : t ∉ s₁.reached := by
    intro hmem
    obtain ⟨u, hu, hreach⟩ := (hbefore.led_to hmem).resolve_left List.not_mem_nil
    exact hstart u hu hreach
  cases hnode with
  | known ht _ => exact absurd ht hfresh
  | @new _ inner _ _ _ _ _ hrest =>
    cases hrest
    refine ⟨later, inner.finished, hfinished, fun u hreach hne => ?_⟩
    -- All that the node leads to is finished by the time when the node is.
    have hmem : u ∈ t :: inner.finished := hfirst.mem_finished_iff.2 ⟨t, by simp, hreach⟩
    exact (List.mem_cons.1 hmem).resolve_left hne

end Visits

end JoinGraph

/-! ## Positions in a list -/

section Positions

variable {α : Type} [DecidableEq α] {l l₁ l₂ : List α} {x y : α}

theorem idxOf_eq_length (h : (l₁ ++ x :: l₂).Nodup) : (l₁ ++ x :: l₂).idxOf x = l₁.length := by
  have hx : x ∉ l₁ := fun hmem => (List.disjoint_of_nodup_append h) hmem List.mem_cons_self
  rw [List.idxOf_append_of_notMem hx, List.idxOf_cons_self, Nat.add_zero]

/-- In a list without repetition the members before a member are those with smaller positions. -/
theorem idxOf_lt_iff_mem (h : (l₁ ++ x :: l₂).Nodup) :
    (l₁ ++ x :: l₂).idxOf y < (l₁ ++ x :: l₂).idxOf x ↔ y ∈ l₁ := by
  rw [idxOf_eq_length h]
  constructor
  · intro hlt
    by_contra hy
    rw [List.idxOf_append_of_notMem hy] at hlt
    omega
  · intro hy
    rw [List.idxOf_append_of_mem hy]
    exact List.idxOf_lt_length_of_mem hy

/-- A member after another one has the greater position. -/
theorem idxOf_lt_of_mem_right (h : (l₁ ++ x :: l₂).Nodup) (hy : y ∈ l₂) :
    (l₁ ++ x :: l₂).idxOf x < (l₁ ++ x :: l₂).idxOf y := by
  obtain ⟨a, b, rfl⟩ := List.append_of_mem hy
  have hlist : l₁ ++ x :: (a ++ y :: b) = (l₁ ++ x :: a) ++ y :: b := by simp
  rw [hlist] at h ⊢
  exact (idxOf_lt_iff_mem h).2 (by simp)

end Positions

namespace Query

variable {q : Query}

/-- No join leads out of the tables. -/
theorem successors_mem_graph (q : Query) :
    ∀ u, ∀ v ∈ q.graph.successors u, v ∈ q.graph.nodes := by
  intro u v hv
  rw [JoinGraph.mem_successors, graph, JoinGraph.mem_arcs_foldl_addArc] at hv
  obtain hv | ⟨-, -, hv⟩ := hv
  · exact absurd hv List.not_mem_nil
  · exact q.nodes_graph.symm ▸ hv

/-- The order of the tables lists every table once. -/
theorem finishOrder_perm_tables (h : q.tables.Nodup) : q.finishOrder.Perm q.tables := by
  have hperm := (JoinGraph.finishOrder_visits q.successors_mem_graph (q.nodes_graph.symm ▸ h)).2.1
  rw [nodes_graph] at hperm
  exact hperm

/-! ## The order of a reachable query -/

namespace Reachable

/-- The graph is over the tables, each once, and no join leaves them. -/
theorem graph_closed (h : q.Reachable) :
    q.graph.nodes.Nodup ∧ ∀ u, ∀ v ∈ q.graph.successors u, v ∈ q.graph.nodes :=
  ⟨q.nodes_graph.symm ▸ h.wellFormed.owned.nodup_tables, q.successors_mem_graph⟩

theorem finishOrder_perm (h : q.Reachable) : q.finishOrder.Perm q.tables :=
  finishOrder_perm_tables h.wellFormed.owned.nodup_tables

theorem nodup_finishOrder (h : q.Reachable) : q.finishOrder.Nodup :=
  h.finishOrder_perm.nodup_iff.2 h.wellFormed.owned.nodup_tables

/-- The order is what a search from the tables finishes. -/
theorem visits_tables (h : q.Reachable) :
    ∃ s, q.graph.Visits {} q.tables s ∧ s.finished = q.finishOrder := by
  obtain ⟨hnodup, harcs⟩ := h.graph_closed
  obtain ⟨⟨s, hvisits, horder⟩, -⟩ := JoinGraph.finishOrder_visits harcs hnodup
  rw [nodes_graph] at hvisits
  exact ⟨s, hvisits, horder.symm⟩

/-- A table stands before one that it leads to but that does not lead back. -/
theorem idxOf_finishOrder_lt (h : q.Reachable) {u v : ContainerId} (hjoins : q.JoinsTo u v)
    (hback : ¬ Relation.ReflTransGen q.JoinsTo v u) :
    q.finishOrder.idxOf u < q.finishOrder.idxOf v := by
  obtain ⟨hnodup, harcs⟩ := h.graph_closed
  have hi := h.wellFormed.indexed
  have hu : u ∈ q.graph.nodes := by
    obtain ⟨-, -, hu, -⟩ := hjoins
    rw [nodes_graph]
    exact hu
  rw [← reaches_graph hi] at hback
  exact JoinGraph.idxOf_finishOrder harcs hnodup hu ((mem_successors_graph hi).2 hjoins) hback

end Reachable

/-- A join links two tables of the statement, in either direction. -/
def Linked (q : Query) (u v : ContainerId) : Prop := q.JoinsTo u v ∨ q.JoinsTo v u

/-- In a reachable query a table has a table that it is joined to before it just if a table
that was added earlier leads to it, or a join leads to it from a table to which it does not
lead back. -/
theorem Reachable.earlier_neighbour_iff (h : q.Reachable) {t : ContainerId} (ht : t ∈ q.tables) :
    (∃ u, q.Linked u t ∧ q.finishOrder.idxOf u < q.finishOrder.idxOf t) ↔
      (∃ u ∈ q.tables, q.tables.idxOf u < q.tables.idxOf t ∧
        Relation.ReflTransGen q.JoinsTo u t) ∨
      ∃ u, q.JoinsTo u t ∧ ¬ Relation.ReflTransGen q.JoinsTo t u := by
  have hi := h.wellFormed.indexed
  obtain ⟨s, hvisits, horder⟩ := h.visits_tables
  have hdone := h.nodup_finishOrder
  have hreaches := reaches_graph hi
  obtain ⟨ts₁, ts₂, htables⟩ := List.append_of_mem ht
  have hnodup' : (ts₁ ++ t :: ts₂).Nodup := htables ▸ h.wellFormed.owned.nodup_tables
  have hadded : ∀ u, q.tables.idxOf u < q.tables.idxOf t ↔ u ∈ ts₁ := by
    intro u
    rw [htables]
    exact idxOf_lt_iff_mem hnodup'
  rw [htables] at hvisits
  constructor
  · rintro ⟨u, hlinked, hlt⟩
    by_cases hled : ∃ u ∈ ts₁, q.graph.Reaches u t
    · obtain ⟨w, hw, hreach⟩ := hled
      refine Or.inl ⟨w, ?_, (hadded w).2 hw, hreaches ▸ hreach⟩
      rw [htables]
      exact List.mem_append_left _ hw
    · -- The table starts a search, so nothing that it leads to can stand before it.
      obtain ⟨l₁, l₂, hlist, hafter⟩ :=
        hvisits.stands_first fun u hu hreach => hled ⟨u, hu, hreach⟩
      have hno : ¬ Relation.ReflTransGen q.JoinsTo t u := by
        intro hreach
        have hne : u ≠ t := by
          rintro rfl
          exact Nat.lt_irrefl _ hlt
        have hmem := hafter u (hreaches ▸ hreach) hne
        rw [← horder, hlist] at hdone hlt
        have hgt := idxOf_lt_of_mem_right hdone hmem
        omega
      rcases hlinked with hjoins | hjoins
      · exact Or.inr ⟨u, hjoins, hno⟩
      · exact absurd (.single hjoins) hno
  · rintro (⟨u, -, hlt, hreach⟩ | ⟨u, hjoins, hback⟩)
    · have hu : u ∈ ts₁ := (hadded u).1 hlt
      have hfresh : t ∉ ts₁ := fun hmem =>
        (List.disjoint_of_nodup_append hnodup') hmem List.mem_cons_self
      obtain ⟨p, l₁, l₂, hlist, hp, harc⟩ :=
        hvisits.follows_of_reaches hfresh hu (hreaches.symm ▸ hreach)
      refine ⟨p, Or.inl ((mem_successors_graph hi).1 harc), ?_⟩
      rw [← horder, hlist] at hdone ⊢
      exact (idxOf_lt_iff_mem hdone).2 hp
    · exact ⟨u, Or.inl hjoins, h.idxOf_finishOrder_lt hjoins hback⟩

/-- Three tables in a row: the first two are joined both ways, and a join leads from the third
to the second. -/
def loopedTables : Query :=
  let uuid : Uuid := .ofNat 0
  [ .newTable { name := "T" } uuid, .addItem (.ofCount 4) { name := "X", selected := true } uuid,
    .addTable (.ofCount 4),
    .newTable { name := "W" } uuid, .addItem (.ofCount 6) { name := "X" } uuid,
    .addTable (.ofCount 6),
    .newTable { name := "U" } uuid, .addItem (.ofCount 8) { name := "X" } uuid,
    .addTable (.ofCount 8),
    .addJoin { left := .ofCount 5, right := .ofCount 7 },
    .addJoin { left := .ofCount 7, right := .ofCount 5 },
    .addJoin { left := .ofCount 9, right := .ofCount 7 } ].foldl after (create uuid fun _ => uuid)

theorem loopedTables_reachable : loopedTables.Reachable :=
  (Reachable.create _ _).foldl_after _ (by decide +kernel)

theorem loopedTables_joinsTo {u v : ContainerId} :
    loopedTables.JoinsTo u v ↔
      (u, v) ∈ [(Id.ofCount 4, Id.ofCount 6), (.ofCount 6, .ofCount 4),
        (.ofCount 8, .ofCount 6)] := by
  have hi := loopedTables_reachable.wellFormed.indexed
  rw [← mem_successors_graph hi, JoinGraph.mem_successors]
  have harcs : loopedTables.graph.arcs =
      [(.ofCount 4, .ofCount 6), (.ofCount 6, .ofCount 4), (.ofCount 8, .ofCount 6)] := by
    decide +kernel
  rw [harcs]

/-- The second table follows the first one, which was added before it and leads to it. -/
theorem loopedTables_earlier_neighbour :
    loopedTables.Reachable ∧ Id.ofCount 6 ∈ loopedTables.tables ∧
      ∃ u, loopedTables.Linked u (.ofCount 6) ∧
        loopedTables.finishOrder.idxOf u < loopedTables.finishOrder.idxOf (.ofCount 6) := by
  have hmem : Id.ofCount 6 ∈ loopedTables.tables := by decide +kernel
  refine ⟨loopedTables_reachable, hmem, ?_⟩
  refine (loopedTables_reachable.earlier_neighbour_iff hmem).2 (Or.inl ⟨.ofCount 4, ?_, ?_, ?_⟩)
  · decide +kernel
  · decide +kernel
  · exact .single (loopedTables_joinsTo.2 (by simp))

/-- It is not true that a table that is connected with an earlier one always has a table that it
is joined to before it: the order of the looped tables is third, first, second. -/
theorem not_earlier_neighbour_of_connected :
    ¬ ∀ q : Query, q.Reachable → ∀ t ∈ q.tables,
      (∃ u ∈ q.tables, Relation.ReflTransGen q.Linked u t ∧
        q.finishOrder.idxOf u < q.finishOrder.idxOf t) →
      ∃ u, q.Linked u t ∧ q.finishOrder.idxOf u < q.finishOrder.idxOf t := by
  intro hall
  have horder : loopedTables.finishOrder = [.ofCount 8, .ofCount 4, .ofCount 6] := by
    decide +kernel
  have hconnected : Relation.ReflTransGen loopedTables.Linked (.ofCount 8) (.ofCount 4) := by
    have hfirst : loopedTables.Linked (.ofCount 8) (.ofCount 6) :=
      Or.inl (loopedTables_joinsTo.2 (by simp))
    have hsecond : loopedTables.Linked (.ofCount 6) (.ofCount 4) :=
      Or.inl (loopedTables_joinsTo.2 (by simp))
    exact .head hfirst (.single hsecond)
  obtain ⟨u, hlinked, hlt⟩ := hall loopedTables loopedTables_reachable (.ofCount 4)
    (by decide +kernel) ⟨.ofCount 8, by decide +kernel, hconnected, by rw [horder]; decide⟩
  rw [horder] at hlt
  -- Only the third table stands before the first, and no join links the two.
  have hu : u = .ofCount 8 := by
    have hdistinct :
        ([Id.ofCount 8] ++ Id.ofCount 4 :: [Id.ofCount 6] : List ContainerId).Nodup := by
      decide
    exact List.mem_singleton.1 ((idxOf_lt_iff_mem hdistinct).1 hlt)
  subst hu
  rcases hlinked with hjoins | hjoins
  · exact absurd (loopedTables_joinsTo.1 hjoins) (by decide)
  · exact absurd (loopedTables_joinsTo.1 hjoins) (by decide)

end Query

end LiveSelect
