import Mathlib.Data.List.Count
import Mathlib.Data.List.Perm.Basic
import Mathlib.Logic.Relation
import LiveSelect.Proofs.Consistency

/-! # The order of the tables

The order of the tables comes from a depth-first search with a bound on its depth. The
search without a bound is described by rules; the bounded one follows them to the end, since
every level of the search reaches one more node. The rest is shown of the rules. A node that
is reached but not finished leads to the node that is being searched; so when a node is
finished, each of its successors is finished already or leads back to it. -/

namespace LiveSelect

namespace JoinGraph

/-- A depth-first search from several nodes in turn, with no bound on its depth. -/
inductive Visits (g : JoinGraph) : Search → List ContainerId → Search → Prop where
  | nil (s : Search) : Visits g s [] s
  | known {s s' : Search} {t : ContainerId} {ts : List ContainerId} (ht : t ∈ s.reached)
    (hrest : Visits g s ts s') : Visits g s (t :: ts) s'
  | new {s s₁ s' : Search} {t : ContainerId} {ts : List ContainerId} (ht : t ∉ s.reached)
    (hsucc : Visits g { s with reached := t :: s.reached } (g.successors t) s₁)
    (hrest : Visits g { s₁ with finished := t :: s₁.finished } ts s') : Visits g s (t :: ts) s'

/-- Arcs lead from the first node to the second, perhaps none. -/
def Reaches (g : JoinGraph) : ContainerId → ContainerId → Prop :=
  Relation.ReflTransGen fun u v => v ∈ g.successors u

/-- Every successor of a listed node is listed after it or leads back to it. -/
def Settled (g : JoinGraph) : List ContainerId → Prop
  | [] => True
  | u :: rest => (∀ v ∈ g.successors u, v ∈ rest ∨ g.Reaches v u) ∧ g.Settled rest

variable {g : JoinGraph} {s s' : Search} {ts : List ContainerId} {t u v : ContainerId}

/-! ## What a search adds -/

namespace Visits

/-- A search finishes what it reaches. -/
theorem added (h : g.Visits s ts s') :
    ∃ new, s'.finished = new ++ s.finished ∧ s'.reached.Perm (new ++ s.reached) := by
  induction h with
  | nil s => exact ⟨[], rfl, List.Perm.refl _⟩
  | known _ _ ih => exact ih
  | @new s s₁ s' t ts _ _ _ ihsucc ihrest =>
    rcases ihsucc with ⟨inner, hfinished, hreached⟩
    rcases ihrest with ⟨outer, hfinished', hreached'⟩
    -- The node itself is finished between its successors and the nodes after it.
    refine ⟨outer ++ t :: inner, ?_, ?_⟩
    · rw [hfinished', hfinished, List.append_assoc, List.cons_append]
    · refine hreached'.trans ?_
      rw [List.append_assoc]
      exact (hreached.trans List.perm_middle).append_left outer

theorem reached_subset (h : g.Visits s ts s') (hu : u ∈ s.reached) : u ∈ s'.reached := by
  rcases h.added with ⟨new, -, hreached⟩
  exact hreached.mem_iff.2 (List.mem_append_right new hu)

/-- Every node that is searched from is reached. -/
theorem reaches_all (h : g.Visits s ts s') : ∀ t ∈ ts, t ∈ s'.reached := by
  induction h with
  | nil s => exact fun t ht => absurd ht List.not_mem_nil
  | known ht hrest ih =>
    intro u hu
    rcases List.mem_cons.1 hu with rfl | hu
    · exact hrest.reached_subset ht
    · exact ih u hu
  | new _ hsucc hrest _ ih =>
    intro u hu
    rcases List.mem_cons.1 hu with rfl | hu
    · exact hrest.reached_subset (hsucc.reached_subset List.mem_cons_self)
    · exact ih u hu

theorem nodup_reached (h : g.Visits s ts s') (hs : s.reached.Nodup) : s'.reached.Nodup := by
  induction h with
  | nil s => exact hs
  | known _ _ ih => exact ih hs
  | new ht _ _ ihsucc ihrest => exact ihrest (ihsucc (List.nodup_cons.2 ⟨ht, hs⟩))

/-- A search stays within a set of nodes that no arc leaves. -/
theorem reached_within {nodes : List ContainerId}
    (harcs : ∀ u, ∀ v ∈ g.successors u, v ∈ nodes) (h : g.Visits s ts s')
    (hs : ∀ u ∈ s.reached, u ∈ nodes) (hts : ∀ t ∈ ts, t ∈ nodes) :
    ∀ u ∈ s'.reached, u ∈ nodes := by
  induction h with
  | nil s => exact hs
  | known _ _ ih => exact ih hs fun t ht => hts t (List.mem_cons_of_mem _ ht)
  | @new s s₁ s' t ts _ _ _ ihsucc ihrest =>
    have ht : t ∈ nodes := hts t List.mem_cons_self
    have hstart : ∀ u ∈ t :: s.reached, u ∈ nodes := by
      intro u hu
      rcases List.mem_cons.1 hu with rfl | hu
      · exact ht
      · exact hs u hu
    exact ihrest (ihsucc hstart (harcs t)) fun u hu => hts u (List.mem_cons_of_mem _ hu)

/-- While nodes that are reached but not finished lead to the nodes that are searched from,
what is finished is settled. -/
theorem settled (h : g.Visits s ts s')
    (hgrey : ∀ x ∈ s.reached, x ∉ s.finished → ∀ t ∈ ts, g.Reaches x t)
    (hs : g.Settled s.finished) : g.Settled s'.finished := by
  induction h with
  | nil s => exact hs
  | known _ _ ih =>
    exact ih (fun x hx hx' t ht => hgrey x hx hx' t (List.mem_cons_of_mem _ ht)) hs
  | @new s s₁ s' t ts _ hsucc _ ihsucc ihrest =>
    -- What is unfinished before the search of the node leads to the node.
    have hlead : ∀ x ∈ t :: s.reached, x ∉ s.finished → g.Reaches x t := by
      intro x hx hx'
      rcases List.mem_cons.1 hx with rfl | hx
      · exact .refl
      · exact hgrey x hx hx' t List.mem_cons_self
    have hinner : g.Settled s₁.finished := by
      refine ihsucc ?_ hs
      intro x hx hx' w hw
      exact (hlead x hx hx').tail hw
    -- The search of the successors leaves nothing unfinished behind.
    have hleft : ∀ x ∈ s₁.reached, x ∉ s₁.finished →
        x ∈ t :: s.reached ∧ x ∉ s.finished := by
      rcases hsucc.added with ⟨new, hfinished, hreached⟩
      intro x hx hx'
      rw [hfinished, List.mem_append, not_or] at hx'
      rcases List.mem_append.1 (hreached.mem_iff.1 hx) with hx | hx
      · exact absurd hx hx'.1
      · exact ⟨hx, hx'.2⟩
    apply ihrest
    · intro x hx hx' w hw
      have hne : x ≠ t := fun heq => hx' (heq ▸ List.mem_cons_self)
      have hold := hleft x hx fun hmem => hx' (List.mem_cons_of_mem _ hmem)
      have hmem : x ∈ s.reached := (List.mem_cons.1 hold.1).resolve_left hne
      exact hgrey x hmem hold.2 w (List.mem_cons_of_mem _ hw)
    · refine ⟨?_, hinner⟩
      intro v hv
      by_cases hdone : v ∈ s₁.finished
      · exact Or.inl hdone
      · -- An unfinished successor was reached before the search of the node began.
        have hold := hleft v (hsucc.reaches_all v hv) hdone
        exact Or.inr (hlead v hold.1 hold.2)

end Visits

/-! ## The bounded search -/

/-- How many nodes a search has not reached. -/
def unreached (g : JoinGraph) (s : Search) : Nat := g.nodes.countP (· ∉ s.reached)

theorem unreached_le (h : ∀ u ∈ s.reached, u ∈ s'.reached) : g.unreached s' ≤ g.unreached s := by
  apply List.countP_mono_left
  intro u _ hu
  simp only [decide_eq_true_eq] at hu ⊢
  exact fun hmem => hu (h u hmem)

/-- Every level of a search reaches one more node. -/
theorem unreached_lt (ht : t ∈ g.nodes) (hs : t ∉ s.reached) :
    g.unreached { s with reached := t :: s.reached } < g.unreached s := by
  rcases List.append_of_mem ht with ⟨l₁, l₂, hnodes⟩
  have hle : ∀ l : List ContainerId,
      l.countP (· ∉ t :: s.reached) ≤ l.countP (· ∉ s.reached) := by
    intro l
    apply List.countP_mono_left
    intro u _ hu
    simp only [decide_eq_true_eq] at hu ⊢
    exact fun hmem => hu (List.mem_cons_of_mem _ hmem)
  have h₁ := hle l₁
  have h₂ := hle l₂
  have hgone : (t :: l₂).countP (· ∉ t :: s.reached) = l₂.countP (· ∉ t :: s.reached) :=
    List.countP_cons_of_neg (by simp)
  have hcounted : (t :: l₂).countP (· ∉ s.reached) = l₂.countP (· ∉ s.reached) + 1 :=
    List.countP_cons_of_pos (by simp [hs])
  show g.nodes.countP (· ∉ t :: s.reached) < g.nodes.countP (· ∉ s.reached)
  rw [hnodes, List.countP_append, List.countP_append, hgone, hcounted]
  omega

/-- A bound that allows for all unreached nodes is no bound. -/
theorem visits_foldl (harcs : ∀ u, ∀ v ∈ g.successors u, v ∈ g.nodes) {depth : Nat}
    (hts : ∀ t ∈ ts, t ∈ g.nodes) (hdepth : g.unreached s ≤ depth) :
    g.Visits s ts (ts.foldl (g.visit depth) s) := by
  induction depth generalizing s ts with
  | zero =>
    -- All nodes are reached.
    induction ts generalizing s with
    | nil => exact .nil s
    | cons t rest ih =>
      have ht : t ∈ s.reached := by
        by_contra hs
        have hlt := unreached_lt (hts t List.mem_cons_self) hs
        omega
      exact .known ht (ih (fun u hu => hts u (List.mem_cons_of_mem _ hu)) hdepth)
  | succ depth ihdepth =>
    induction ts generalizing s with
    | nil => exact .nil s
    | cons t rest ih =>
      have hrest : ∀ u ∈ rest, u ∈ g.nodes := fun u hu => hts u (List.mem_cons_of_mem _ hu)
      rw [List.foldl_cons]
      by_cases ht : t ∈ s.reached
      · have hvisit : g.visit (depth + 1) s t = s := by
          rw [visit, if_pos (List.contains_iff_mem.2 ht)]
        rw [hvisit]
        exact .known ht (ih hrest hdepth)
      · -- One node more is reached, so one level less is enough for its successors.
        have hlt := unreached_lt (hts t List.mem_cons_self) ht
        have hsucc := ihdepth (s := { s with reached := t :: s.reached }) (harcs t) (by omega)
        have hvisit : g.visit (depth + 1) s t =
            { (g.successors t).foldl (g.visit depth) { s with reached := t :: s.reached } with
              finished := t :: ((g.successors t).foldl (g.visit depth)
                { s with reached := t :: s.reached }).finished } := by
          rw [visit, if_neg (fun hmem => ht (List.contains_iff_mem.1 hmem))]
        rw [hvisit]
        refine .new ht hsucc (ih hrest ?_)
        have hle : g.unreached ((g.successors t).foldl (g.visit depth)
            { s with reached := t :: s.reached }) ≤ g.unreached s := by
          apply unreached_le
          intro u hu
          exact hsucc.reached_subset (List.mem_cons_of_mem _ hu)
        exact Nat.le_trans hle hdepth

theorem settled_split {l₁ l₂ : List ContainerId} (h : g.Settled (l₁ ++ u :: l₂))
    (hv : v ∈ g.successors u) : v ∈ l₂ ∨ g.Reaches v u := by
  induction l₁ with
  | nil => exact h.1 v hv
  | cons x rest ih => exact ih h.2

/-- The order of the nodes is what an unbounded search finishes: it lists every node once, and
every successor of a node stands after it or leads back to it. -/
theorem finishOrder_visits (harcs : ∀ u, ∀ v ∈ g.successors u, v ∈ g.nodes)
    (hnodes : g.nodes.Nodup) :
    (∃ s, g.Visits {} g.nodes s ∧ g.finishOrder = s.finished) ∧
      g.finishOrder.Perm g.nodes ∧ g.Settled g.finishOrder := by
  have hvisits : g.Visits {} g.nodes (g.nodes.foldl (g.visit g.nodes.length) {}) :=
    visits_foldl harcs (fun _ ht => ht) List.countP_le_length
  rcases hvisits.added with ⟨new, hfinished, hreached⟩
  rw [List.append_nil] at hfinished hreached
  have horder : g.finishOrder = new := hfinished
  have hnodup : new.Nodup := hreached.nodup_iff.1 (hvisits.nodup_reached List.nodup_nil)
  refine ⟨⟨_, hvisits, rfl⟩, ?_, ?_⟩
  · rw [horder, List.perm_ext_iff_of_nodup hnodup hnodes]
    intro u
    rw [← hreached.mem_iff]
    constructor
    · exact hvisits.reached_within harcs (fun u hu => absurd hu List.not_mem_nil)
        (fun _ ht => ht) u
    · exact hvisits.reaches_all u
  · exact hvisits.settled (fun x hx => absurd hx List.not_mem_nil) trivial

/-- A successor that does not lead back stands later in the order. -/
theorem idxOf_finishOrder (harcs : ∀ u, ∀ v ∈ g.successors u, v ∈ g.nodes) (hnodes : g.nodes.Nodup)
    (hu : u ∈ g.nodes) (hv : v ∈ g.successors u) (hback : ¬ g.Reaches v u) :
    g.finishOrder.idxOf u < g.finishOrder.idxOf v := by
  rcases finishOrder_visits harcs hnodes with ⟨-, hperm, hsettled⟩
  rcases List.append_of_mem (hperm.mem_iff.2 hu) with ⟨l₁, l₂, horder⟩
  have hnodup : (l₁ ++ u :: l₂).Nodup := horder ▸ hperm.nodup_iff.2 hnodes
  rw [horder] at hsettled ⊢
  have hlater : v ∈ l₂ := (settled_split hsettled hv).resolve_right hback
  have hu₁ : u ∉ l₁ := fun hmem => (List.disjoint_of_nodup_append hnodup) hmem List.mem_cons_self
  have hv₁ : v ∉ l₁ :=
    fun hmem => (List.disjoint_of_nodup_append hnodup) hmem (List.mem_cons_of_mem _ hlater)
  have hne : u ≠ v := by
    rintro rfl
    exact (List.nodup_cons.1 hnodup.of_append_right).1 hlater
  rw [List.idxOf_append_of_notMem hu₁, List.idxOf_append_of_notMem hv₁, List.idxOf_cons_self,
    List.idxOf_cons_ne _ hne]
  omega

/-! ## Arcs -/

theorem nodes_foldl_addArc (g : JoinGraph) (arcs : List (ContainerId × ContainerId)) :
    (arcs.foldl addArc g).nodes = g.nodes := by
  induction arcs generalizing g with
  | nil => rfl
  | cons x rest ih =>
    rw [List.foldl_cons, ih, addArc]
    split <;> rfl

theorem mem_arcs_addArc (g : JoinGraph) (x y : ContainerId × ContainerId) :
    x ∈ (g.addArc y).arcs ↔ x ∈ g.arcs ∨ (x = y ∧ x.1 ∈ g.nodes ∧ x.2 ∈ g.nodes) := by
  unfold addArc
  split
  · rename_i hadd
    simp only [Bool.and_eq_true, List.contains_iff_mem] at hadd
    rw [List.mem_append, List.mem_singleton]
    constructor
    · rintro (hx | rfl)
      · exact Or.inl hx
      · exact Or.inr ⟨rfl, hadd.1⟩
    · rintro (hx | ⟨hx, -⟩)
      · exact Or.inl hx
      · exact Or.inr hx
  · rename_i hskip
    constructor
    · exact Or.inl
    · rintro (hx | ⟨rfl, hu, hv⟩)
      · exact hx
      · -- An arc between nodes is skipped only because it is there.
        by_contra hx
        simp [hu, hv, hx] at hskip

theorem mem_arcs_foldl_addArc (g : JoinGraph) (arcs : List (ContainerId × ContainerId))
    (x : ContainerId × ContainerId) :
    x ∈ (arcs.foldl addArc g).arcs ↔
      x ∈ g.arcs ∨ (x ∈ arcs ∧ x.1 ∈ g.nodes ∧ x.2 ∈ g.nodes) := by
  induction arcs generalizing g with
  | nil => simp
  | cons y rest ih =>
    have hnodes : (g.addArc y).nodes = g.nodes := nodes_foldl_addArc g [y]
    rw [List.foldl_cons, ih, hnodes, mem_arcs_addArc, List.mem_cons, or_and_right, or_assoc]

theorem mem_successors : v ∈ g.successors u ↔ (u, v) ∈ g.arcs := by
  simp [successors]

end JoinGraph

namespace Query

variable {q : Query}

/-- A join leads from one table of the statement to another. -/
def JoinsTo (q : Query) (u v : ContainerId) : Prop :=
  ∃ j, q.ends? j = some (u, v) ∧ u ∈ q.tables ∧ v ∈ q.tables

theorem nodes_graph (q : Query) : q.graph.nodes = q.tables :=
  JoinGraph.nodes_foldl_addArc _ _

/-- The arcs of the graph are the joins between tables. -/
theorem mem_successors_graph (hi : q.Indexed) {u v : ContainerId} :
    v ∈ q.graph.successors u ↔ q.JoinsTo u v := by
  rw [JoinGraph.mem_successors, graph, JoinGraph.mem_arcs_foldl_addArc]
  simp only [List.not_mem_nil, false_or, List.mem_flatMap, arcsFrom, List.mem_filter,
    List.mem_filterMap, decide_eq_true_eq]
  constructor
  · rintro ⟨⟨t, -, ⟨j, -, hends⟩, rfl⟩, hu, hv⟩
    exact ⟨j, hends, hu, hv⟩
  · rintro ⟨j, hends, hu, hv⟩
    exact ⟨⟨u, hu, ⟨j, hi.mem_joinsOf.2 ⟨u, v, hends, Or.inl rfl⟩, hends⟩, rfl⟩, hu, hv⟩

theorem reaches_graph (hi : q.Indexed) : q.graph.Reaches = Relation.ReflTransGen q.JoinsTo := by
  unfold JoinGraph.Reaches
  congr 1
  funext u v
  exact propext (mem_successors_graph hi)

/-- In a reachable query the search of the tables comes to an end without a bound, and the
order that it yields lists every table once. The left table of a join comes before the right
one unless joins lead back from there; so without cycles it always does. -/
theorem Reachable.finishOrder_respects_joins (h : q.Reachable) :
    (∃ s, q.graph.Visits {} q.tables s ∧ q.finishOrder = s.finished) ∧
    q.finishOrder.Perm q.tables ∧
    (∀ j u v, q.ends? j = some (u, v) → u ∈ q.tables → v ∈ q.tables →
      ¬ Relation.ReflTransGen q.JoinsTo v u → q.finishOrder.idxOf u < q.finishOrder.idxOf v) ∧
    ((∀ t, ¬ Relation.TransGen q.JoinsTo t t) →
      ∀ j u v, q.ends? j = some (u, v) → u ∈ q.tables → v ∈ q.tables →
        q.finishOrder.idxOf u < q.finishOrder.idxOf v) := by
  have hi := h.wellFormed.indexed
  have hnodes : q.graph.nodes.Nodup := q.nodes_graph ▸ h.wellFormed.owned.nodup_tables
  have harcs : ∀ u, ∀ v ∈ q.graph.successors u, v ∈ q.graph.nodes := by
    intro u v hv
    rcases (mem_successors_graph hi).1 hv with ⟨-, -, -, hv⟩
    rw [nodes_graph]
    exact hv
  rcases JoinGraph.finishOrder_visits harcs hnodes with ⟨hvisits, hperm, -⟩
  rw [nodes_graph] at hvisits hperm
  have hbefore : ∀ j u v, q.ends? j = some (u, v) → u ∈ q.tables → v ∈ q.tables →
      ¬ Relation.ReflTransGen q.JoinsTo v u → q.finishOrder.idxOf u < q.finishOrder.idxOf v := by
    intro j u v hends hu hv hback
    rw [← reaches_graph hi] at hback
    exact JoinGraph.idxOf_finishOrder harcs hnodes (q.nodes_graph ▸ hu)
      ((mem_successors_graph hi).2 ⟨j, hends, hu, hv⟩) hback
  refine ⟨hvisits, hperm, hbefore, ?_⟩
  intro hacyclic j u v hends hu hv
  -- A way back would close a cycle with the join.
  refine hbefore j u v hends hu hv fun hback => hacyclic u ?_
  exact Relation.TransGen.head' ⟨j, hends, hu, hv⟩ hback

/-- The left table of a join that nothing leads back to comes first. -/
theorem joinedTables_order :
    joinedTables.Reachable ∧
      joinedTables.finishOrder.idxOf (.ofCount 4) <
        joinedTables.finishOrder.idxOf (.ofCount 5) := by
  refine ⟨joinedTables_reachable, ?_⟩
  refine joinedTables_reachable.finishOrder_respects_joins.2.2.1 (.ofCount 8) _ _
    (by decide +kernel) (by decide +kernel) (by decide +kernel) ?_
  -- The only join leads the other way.
  intro hback
  rcases hback.cases_head with heq | ⟨w, ⟨j, hends, -⟩, -⟩
  · exact absurd heq (by decide)
  · rcases ends?_eq_some.1 hends with ⟨join, hjoin, -⟩
    have hall : joinedTables.allJoins = [.ofCount 8] := by decide +kernel
    have hj : j = .ofCount 8 := List.mem_singleton.1 (hall ▸ mem_allJoins.2 ⟨join, hjoin⟩)
    have hends' : joinedTables.ends? (.ofCount 8) = some (.ofCount 4, .ofCount 5) := by
      decide +kernel
    rw [hj, hends', Option.some.injEq, Prod.mk.injEq] at hends
    exact absurd hends.1 (by decide)

end Query

end LiveSelect
