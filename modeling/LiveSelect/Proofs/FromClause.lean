import LiveSelect.Query.Statement
import LiveSelect.Proofs.Neighbours

/-! # The FROM clause

The tables stand in the FROM clause in the order of the search, and every table but the first
carries the joins that it shares with the tables before it. Of the two tables of a join one
stands later, and the join is found there and nowhere else; so every join between tables of
the statement gives one condition, and no table is named in a condition before it is listed. -/

namespace LiveSelect.Query

variable {q : Query} {n : Naming} {j : JoinId} {t u v : ContainerId} {p : Placement}

/-- The one of two tables that stands later in the statement. -/
def laterOf (q : Query) (u v : ContainerId) : ContainerId :=
  if q.finishOrder.idxOf u < q.finishOrder.idxOf v then v else u

/-- Whether a join is between tables of the statement, and the given one is the later of them. -/
def fallsTo (q : Query) (t : ContainerId) (j : JoinId) : Bool :=
  q.connectsTables j && (q.ends? j).any fun x => q.laterOf x.1 x.2 = t

/-- How the comparison of a join is written: the column of its left table, the comparator, and the
column of its right table, each column after the name by which the statement refers to its table. -/
inductive Compares (q : Query) (n : Naming) (j : JoinId) : String → Prop where
  | columns {join : Join} {left right : Item} {k k' : Container} (hjoin : q.join? j = some join)
    (hleft : q.item? join.left = some left) (hright : q.item? join.right = some right)
    (hk : q.container? left.container = some k) (hk' : q.container? right.container = some k') :
    Compares q n j (k.correlationName ++ "." ++ n.item left ++ " " ++ join.comparator ++ " " ++
      k'.correlationName ++ "." ++ n.item right)

/-! ## Places -/

theorem tables_placeAfter (q : Query) (earlier : List ContainerId) (previous : ContainerId)
    (rest : List ContainerId) :
    (q.placeAfter earlier previous rest).map Placement.table = rest := by
  induction rest generalizing earlier previous with
  | nil => rfl
  | cons t rest ih => rw [placeAfter, List.map_cons, ih]

/-- A place carries the joins with what stands before its table. -/
theorem conditions_placeAfter {earlier rest : List ContainerId} {previous : ContainerId}
    (hp : p ∈ q.placeAfter earlier previous rest) :
    ∃ before after, rest = before ++ p.table :: after ∧
      p.conditions = q.conditionsOn (earlier ++ before) p.table := by
  induction rest generalizing earlier previous with
  | nil => exact absurd hp List.not_mem_nil
  | cons t rest ih =>
    rcases List.mem_cons.1 hp with rfl | hp
    · exact ⟨[], rest, rfl, by rw [List.append_nil]⟩
    · obtain ⟨before, after, hrest, hconditions⟩ := ih hp
      refine ⟨t :: before, after, by rw [hrest, List.cons_append], ?_⟩
      rw [hconditions, List.append_assoc, List.singleton_append]

theorem tables_placements (q : Query) : q.placements.map Placement.table = q.finishOrder.tail := by
  unfold placements
  split
  · rename_i horder
    rw [horder, List.map_nil, List.tail_nil]
  · rename_i first rest horder
    rw [horder, List.tail_cons]
    exact q.tables_placeAfter _ _ _

theorem conditions_placements (hp : p ∈ q.placements) :
    ∃ before after, q.finishOrder = before ++ p.table :: after ∧
      p.conditions = q.conditionsOn before p.table := by
  unfold placements at hp
  split at hp
  · exact absurd hp List.not_mem_nil
  · rename_i first rest horder
    obtain ⟨before, after, hrest, hconditions⟩ := conditions_placeAfter hp
    exact ⟨first :: before, after, by rw [horder, hrest, List.cons_append], hconditions⟩

/-! ## The later table of a join -/

theorem connectsTables_iff :
    q.connectsTables j ↔ ∃ u v, q.ends? j = some (u, v) ∧ u ∈ q.tables ∧ v ∈ q.tables := by
  cases hends : q.ends? j with
  | none => simp [connectsTables, hends]
  | some x => simp [connectsTables, hends, Prod.ext_iff]

theorem fallsTo_iff :
    q.fallsTo t j ↔ ∃ u v, q.ends? j = some (u, v) ∧ u ∈ q.tables ∧ v ∈ q.tables ∧
      q.laterOf u v = t := by
  cases hends : q.ends? j with
  | none => simp [fallsTo, connectsTables, hends]
  | some x => simp [fallsTo, connectsTables, hends, Prod.ext_iff, and_assoc]

/-- The later of two tables is the same, whichever is named first. -/
theorem laterOf_comm (hu : u ∈ q.finishOrder) : q.laterOf u v = q.laterOf v u := by
  by_cases hne : u = v
  · rw [hne]
  · have hplace : q.finishOrder.idxOf u ≠ q.finishOrder.idxOf v := by
      rw [Ne, List.idxOf_inj hu]
      exact hne
    unfold laterOf
    split
    · rw [if_neg (by omega)]
    · rw [if_pos (by omega)]

theorem laterOf_eq_right_iff (hne : u ≠ v) :
    q.laterOf u v = v ↔ q.finishOrder.idxOf u < q.finishOrder.idxOf v := by
  unfold laterOf
  split
  · rename_i hlt
    exact ⟨fun _ => hlt, fun _ => rfl⟩
  · rename_i hle
    exact ⟨fun heq => absurd heq hne, fun hlt => absurd hlt hle⟩

theorem ends?_unique {u' v' : ContainerId} (h : q.ends? j = some (u, v))
    (h' : q.ends? j = some (u', v')) : u = u' ∧ v = v' :=
  Prod.mk.inj (Option.some.inj (h.symm.trans h'))

theorem fallsTo_unique (h : q.fallsTo u j) (h' : q.fallsTo v j) : u = v := by
  obtain ⟨l, r, hends, -, -, rfl⟩ := fallsTo_iff.1 h
  obtain ⟨l', r', hends', -, -, rfl⟩ := fallsTo_iff.1 h'
  obtain ⟨rfl, rfl⟩ := ends?_unique hends hends'
  rfl

/-- A join of a table has another container at its other end. -/
theorem Indexed.partner_of_mem (h : q.Indexed) (hj : j ∈ q.joinsOf t) :
    ∃ u, u ≠ t ∧ q.partner? t j = some u ∧
      (q.ends? j = some (u, t) ∨ q.ends? j = some (t, u)) := by
  obtain ⟨l, r, hends, htouch⟩ := h.mem_joinsOf.1 hj
  obtain ⟨join, hjoin, -, -⟩ := ends?_eq_some.1 hends
  obtain ⟨l', r', hends', hne⟩ := h.ends_of_join hjoin
  obtain ⟨rfl, rfl⟩ := ends?_unique hends hends'
  rcases htouch with rfl | rfl
  · exact ⟨r, hne.symm, by simp [partner?, hends], Or.inr hends⟩
  · exact ⟨l, hne, by simp [partner?, hends, hne], Or.inl hends⟩

namespace Reachable

theorem mem_finishOrder (h : q.Reachable) : t ∈ q.finishOrder ↔ t ∈ q.tables :=
  h.finishOrder_perm.mem_iff

theorem mem_tables_of_idxOf_lt (h : q.Reachable)
    (hlt : q.finishOrder.idxOf u < q.finishOrder.idxOf t) : u ∈ q.tables := by
  rw [← h.mem_finishOrder, ← List.idxOf_lt_length_iff]
  exact Nat.lt_of_lt_of_le hlt List.idxOf_le_length

/-- A join falls to a table if its other end stands before the table. -/
theorem fallsTo_iff_lt (h : q.Reachable) (ht : t ∈ q.tables) (hne : u ≠ t)
    (hends : q.ends? j = some (u, t) ∨ q.ends? j = some (t, u)) :
    q.fallsTo t j ↔ q.finishOrder.idxOf u < q.finishOrder.idxOf t := by
  have hlater : q.laterOf t u = q.laterOf u t := laterOf_comm (h.mem_finishOrder.2 ht)
  rw [fallsTo_iff, ← laterOf_eq_right_iff hne]
  constructor
  · rintro ⟨l, r, hends', -, -, heq⟩
    rcases hends with hends | hends
    · obtain ⟨rfl, rfl⟩ := ends?_unique hends hends'
      exact heq
    · obtain ⟨rfl, rfl⟩ := ends?_unique hends hends'
      exact hlater.symm.trans heq
  · intro heq
    have hu : u ∈ q.tables := h.mem_tables_of_idxOf_lt ((laterOf_eq_right_iff hne).1 heq)
    rcases hends with hends | hends
    · exact ⟨u, t, hends, hu, ht, heq⟩
    · exact ⟨t, u, hends, ht, hu, hlater.trans heq⟩

/-- The later table of a join lists it, and stands after a table. -/
theorem later_spec (h : q.Reachable) (hj : q.connectsTables j) :
    ∃ t u, q.fallsTo t j ∧ j ∈ q.joinsOf t ∧ t ∈ q.tables ∧
      q.finishOrder.idxOf u < q.finishOrder.idxOf t := by
  have hi := h.wellFormed.indexed
  obtain ⟨u, v, hends, hu, hv⟩ := connectsTables_iff.1 hj
  have hmem : ∀ t, u = t ∨ v = t → j ∈ q.joinsOf t := fun t ht => hi.mem_joinsOf.2 ⟨u, v, hends, ht⟩
  obtain ⟨w, hne, -, hw⟩ := hi.partner_of_mem (hmem v (Or.inr rfl))
  have hwu : w = u := by
    rcases hw with hw | hw
    · exact (ends?_unique hends hw).1.symm
    · exact absurd (ends?_unique hends hw).2.symm hne
  subst hwu
  rcases Nat.lt_or_ge (q.finishOrder.idxOf w) (q.finishOrder.idxOf v) with hlt | hge
  · exact ⟨v, w, (h.fallsTo_iff_lt hv hne (Or.inl hends)).2 hlt, hmem v (Or.inr rfl), hv, hlt⟩
  · have hplace : q.finishOrder.idxOf v ≠ q.finishOrder.idxOf w := by
      rw [Ne, List.idxOf_inj (h.mem_finishOrder.2 hv)]
      exact hne.symm
    have hlt : q.finishOrder.idxOf v < q.finishOrder.idxOf w := by omega
    exact ⟨w, v, (h.fallsTo_iff_lt hu hne.symm (Or.inr hends)).2 hlt, hmem w (Or.inl rfl), hu, hlt⟩

/-! ## The conditions of a place -/

/-- The joins with the tables before a table are those that fall to it. -/
theorem conditions_eq (h : q.Reachable) (hp : p ∈ q.placements) :
    p.conditions = (q.joinsOf p.table).filter (q.fallsTo p.table) := by
  obtain ⟨before, after, horder, hconditions⟩ := conditions_placements hp
  have hmem : p.table ∈ q.tables := by
    rw [← h.mem_finishOrder, horder]
    simp
  have hbefore : ∀ w, before.contains w ↔
      q.finishOrder.idxOf w < q.finishOrder.idxOf p.table := by
    intro w
    have hnodup := h.nodup_finishOrder
    rw [horder] at hnodup ⊢
    rw [List.contains_iff_mem, idxOf_lt_iff_mem hnodup]
  rw [hconditions]
  refine List.filter_congr fun j hj => ?_
  obtain ⟨u, hne, hpartner, hends⟩ := h.wellFormed.indexed.partner_of_mem hj
  rw [hpartner, Option.any_some, Bool.eq_iff_iff, hbefore, h.fallsTo_iff_lt hmem hne hends]

theorem mem_tables_of_placement (h : q.Reachable) (hp : p ∈ q.placements) :
    p.table ∈ q.tables := by
  have hmem : p.table ∈ q.finishOrder.tail := by
    rw [← tables_placements]
    exact List.mem_map_of_mem hp
  exact h.mem_finishOrder.1 (List.mem_of_mem_tail hmem)

/-- A table carries no condition just if no table before it is joined to it. -/
theorem conditions_eq_nil_iff (h : q.Reachable) (hp : p ∈ q.placements) :
    p.conditions = [] ↔ ¬ ∃ u, q.Linked u p.table ∧
      q.finishOrder.idxOf u < q.finishOrder.idxOf p.table := by
  have hi := h.wellFormed.indexed
  have ht := h.mem_tables_of_placement hp
  rw [h.conditions_eq hp, List.filter_eq_nil_iff, not_exists]
  constructor
  · rintro hnone u ⟨hlinked, hlt⟩
    obtain ⟨j, hends⟩ : ∃ j, q.ends? j = some (u, p.table) ∨ q.ends? j = some (p.table, u) := by
      rcases hlinked with ⟨j, hends, -⟩ | ⟨j, hends, -⟩
      · exact ⟨j, Or.inl hends⟩
      · exact ⟨j, Or.inr hends⟩
    have hj : j ∈ q.joinsOf p.table := by
      rw [hi.mem_joinsOf]
      rcases hends with hends | hends
      · exact ⟨u, p.table, hends, Or.inr rfl⟩
      · exact ⟨p.table, u, hends, Or.inl rfl⟩
    have hne : u ≠ p.table := by
      intro heq
      rw [heq] at hlt
      exact Nat.lt_irrefl _ hlt
    exact hnone j hj ((h.fallsTo_iff_lt ht hne hends).2 hlt)
  · intro hnone j hj hfalls
    obtain ⟨u, hne, -, hends⟩ := hi.partner_of_mem hj
    have hlt := (h.fallsTo_iff_lt ht hne hends).1 hfalls
    have hu := h.mem_tables_of_idxOf_lt hlt
    refine hnone u ⟨?_, hlt⟩
    rcases hends with hends | hends
    · exact Or.inl ⟨j, hends, hu, ht⟩
    · exact Or.inr ⟨j, hends, ht, hu⟩

/-- All places together carry every join between tables, each once. -/
theorem conditions_perm (h : q.Reachable) :
    (q.placements.flatMap Placement.conditions).Perm q.tableJoins := by
  have hi := h.wellFormed.indexed
  have hdistinct : q.placements.Pairwise fun x y => x.table ≠ y.table := by
    refine List.pairwise_map.1 ?_
    rw [tables_placements]
    exact h.nodup_finishOrder.tail
  have hnodup : (q.placements.flatMap Placement.conditions).Nodup := by
    refine List.nodup_flatMap.2 ⟨fun p hp => ?_, ?_⟩
    · rw [h.conditions_eq hp]
      exact (hi.nodup_joinsOf _).filter _
    · refine hdistinct.imp_of_mem fun hp hp' hne j hj hj' => hne ?_
      rw [h.conditions_eq hp] at hj
      rw [h.conditions_eq hp'] at hj'
      exact fallsTo_unique (List.mem_filter.1 hj).2 (List.mem_filter.1 hj').2
  refine (List.perm_ext_iff_of_nodup hnodup (q.allJoins_nodup.filter _)).2 fun j => ?_
  rw [List.mem_flatMap, List.mem_filter]
  constructor
  · rintro ⟨p, hp, hj⟩
    rw [h.conditions_eq hp] at hj
    obtain ⟨u, v, hends, hu, hv, -⟩ := fallsTo_iff.1 (List.mem_filter.1 hj).2
    obtain ⟨join, hjoin, -⟩ := ends?_eq_some.1 hends
    exact ⟨mem_allJoins.2 ⟨join, hjoin⟩, connectsTables_iff.2 ⟨u, v, hends, hu, hv⟩⟩
  · rintro ⟨-, hj⟩
    obtain ⟨t, u, hfalls, hlisted, ht, hlt⟩ := h.later_spec hj
    -- The later table is not the first one, so it has a place.
    have htail : t ∈ q.finishOrder.tail := by
      have hmem := h.mem_finishOrder.2 ht
      cases horder : q.finishOrder with
      | nil => simp [horder] at hmem
      | cons first rest =>
        rw [horder] at hmem hlt
        refine (List.mem_cons.1 hmem).resolve_left ?_
        rintro rfl
        rw [List.idxOf_cons_self] at hlt
        exact Nat.not_lt_zero _ hlt
    rw [← tables_placements] at htail
    obtain ⟨p, hp, rfl⟩ := List.mem_map.1 htail
    refine ⟨p, hp, ?_⟩
    rw [h.conditions_eq hp]
    exact List.mem_filter.2 ⟨hlisted, hfalls⟩

end Reachable

/-! ## The text of a place -/

theorem conditionText?_eq_some_iff {text : String} :
    q.conditionText? n j = some text ↔ q.Compares n j text := by
  constructor
  · intro h
    simp only [conditionText?, bind, Option.bind_eq_some_iff, pure, Option.some.injEq] at h
    obtain ⟨join, hjoin, left, hleft, right, hright, k, hk, k', hk', rfl⟩ := h
    exact .columns hjoin hleft hright hk hk'
  · rintro ⟨hjoin, hleft, hright, hk, hk'⟩
    simp [conditionText?, hjoin, hleft, hright, hk, hk']

/-- A comparison names a column of its left table, with a point before it. -/
theorem Compares.point {text : String} (h : q.Compares n j text) :
    ∃ before after, text = before ++ "." ++ after := by
  obtain @⟨join, left, right, k, k', -, -, -, -, -⟩ := h
  refine ⟨k.correlationName, n.item left ++ " " ++ join.comparator ++ " " ++
    k'.correlationName ++ "." ++ n.item right, ?_⟩
  simp only [String.append_assoc]

/-- Every join yields a comparison. -/
theorem WellFormed.conditionText?_ok (h : q.WellFormed) (n : Naming) {join : Join}
    (hj : q.join? j = some join) : ∃ text, q.conditionText? n j = some text := by
  obtain ⟨l, r, hl, hr, -⟩ := h.indexed.home_of_join hj
  obtain ⟨left, hleft, rfl⟩ := home?_eq_some.1 hl
  obtain ⟨right, hright, rfl⟩ := home?_eq_some.1 hr
  obtain ⟨k, hk⟩ := (q.containers.contains_iff _).1 (h.owned.knows_of_item? hleft)
  obtain ⟨k', hk'⟩ := (q.containers.contains_iff _).1 (h.owned.knows_of_item? hright)
  exact ⟨_, conditionText?_eq_some_iff.2 (.columns hj hleft hright hk hk')⟩

/-- The entries of a clause correspond to the items that have one. -/
theorem forall₂_entries {α β : Type} {R : α → β → Prop} {f : α → Option β} {p : α → Bool}
    {xs : List α} (hsome : ∀ x ∈ xs, p x = true → ∃ y, f x = some y ∧ R x y)
    (hnone : ∀ x ∈ xs, p x = false → f x = none) :
    List.Forall₂ R (xs.filter p) (xs.filterMap f) := by
  induction xs with
  | nil => exact .nil
  | cons x rest ih =>
    have hrest := ih (fun y hy => hsome y (List.mem_cons_of_mem _ hy))
      fun y hy => hnone y (List.mem_cons_of_mem _ hy)
    cases hp : p x with
    | false =>
      rw [List.filter_cons_of_neg (by simp [hp]),
        List.filterMap_cons_none (hnone x List.mem_cons_self hp)]
      exact hrest
    | true =>
      obtain ⟨y, hy, hxy⟩ := hsome x List.mem_cons_self hp
      rw [List.filter_cons_of_pos hp, List.filterMap_cons_some hy]
      exact .cons hxy hrest

theorem forall₂_filterMap {α β : Type} {R : α → β → Prop} {f : α → Option β} {xs : List α}
    (h : ∀ x ∈ xs, ∃ y, f x = some y ∧ R x y) : List.Forall₂ R xs (xs.filterMap f) := by
  have hall := forall₂_entries (p := fun _ => true) (fun x hx _ => h x hx) (by simp)
  rwa [List.filter_true] at hall

theorem onText_eq (q : Query) (n : Naming) (js : List JoinId) :
    q.onText n js = if js.filterMap (q.conditionText? n) = [] then "0 = 0"
      else " \n    AND ".intercalate (js.filterMap (q.conditionText? n)) := by
  unfold onText
  split
  · rename_i hnone
    rw [if_pos hnone]
  · rename_i hsome
    rw [if_neg hsome]

/-- No comparison is written like the condition that always holds. -/
theorem onText_eq_always_iff {js : List JoinId}
    (h : ∀ j ∈ js, ∃ text, q.conditionText? n j = some text) :
    q.onText n js = "0 = 0" ↔ js = [] := by
  cases js with
  | nil => exact ⟨fun _ => rfl, fun _ => rfl⟩
  | cons j rest =>
    obtain ⟨text, htext⟩ := h j List.mem_cons_self
    obtain ⟨before, after, rfl⟩ := (conditionText?_eq_some_iff.1 htext).point
    rw [onText_eq, List.filterMap_cons_some htext, if_neg (List.cons_ne_nil _ _),
      String.append_assoc, String.intercalate_cons_append, String.intercalate_cons_append]
    refine ⟨fun heq => ?_, fun heq => absurd heq (List.cons_ne_nil _ _)⟩
    have hpoint : '.' ∈ "0 = 0".toList := by
      rw [← heq]
      simp
    exact absurd hpoint (by decide)

theorem Owned.container?_of_table (h : q.Owned) (ht : t ∈ q.tables) :
    ∃ k, q.container? t = some k :=
  (q.containers.contains_iff t).1 (h.knows_tables t ht)

namespace Reachable

/-- Every condition of a place is written. -/
theorem conditionText?_ok (h : q.Reachable) (n : Naming) (hp : p ∈ q.placements) :
    ∀ j ∈ p.conditions, ∃ text, q.conditionText? n j = some text := by
  intro j hj
  rw [h.conditions_eq hp] at hj
  obtain ⟨l, r, hends, -⟩ := h.wellFormed.indexed.mem_joinsOf.1 (List.mem_filter.1 hj).1
  obtain ⟨join, hjoin, -⟩ := ends?_eq_some.1 hends
  exact h.wellFormed.conditionText?_ok n hjoin

/-- The text of a place: how its table is combined, the table, and its conditions. -/
theorem placementText_eq (h : q.Reachable) (n : Naming) (hp : p ∈ q.placements) :
    ∃ k texts, q.container? p.table = some k ∧
      List.Forall₂ (fun j text => q.conditionText? n j = some text) p.conditions texts ∧
      q.placementText n p = " \n" ++ p.joinType.keyword ++ " " ++ tableText n k ++ " \n  ON " ++
        q.onText n p.conditions ∧
      q.onText n p.conditions =
        if texts = [] then "0 = 0" else " \n    AND ".intercalate texts := by
  obtain ⟨k, hk⟩ := h.wellFormed.owned.container?_of_table (h.mem_tables_of_placement hp)
  refine ⟨k, p.conditions.filterMap (q.conditionText? n), hk, forall₂_filterMap fun j hj => ?_,
    ?_, q.onText_eq n _⟩
  · obtain ⟨text, htext⟩ := h.conditionText?_ok n hp j hj
    exact ⟨text, htext, htext⟩
  · rw [placementText, hk]

/-- The FROM clause of a query with tables: the first table, then the places of the others. -/
theorem fromClause_eq (h : q.Reachable) (htables : q.tables ≠ []) (n : Naming) :
    ∃ first k, q.finishOrder = first :: q.placements.map Placement.table ∧
      q.container? first = some k ∧
      q.fromClause n =
        " \nFROM " ++ tableText n k ++ String.join (q.placements.map (q.placementText n)) := by
  cases horder : q.finishOrder with
  | nil =>
    have hperm := h.finishOrder_perm
    rw [horder, List.nil_perm] at hperm
    exact absurd hperm htables
  | cons first rest =>
    have hfirst : first ∈ q.tables := by
      rw [← h.mem_finishOrder, horder]
      exact List.mem_cons_self
    obtain ⟨k, hk⟩ := h.wellFormed.owned.container?_of_table hfirst
    refine ⟨first, k, by rw [tables_placements, horder, List.tail_cons], hk, ?_⟩
    have htext : q.firstTableText n = " " ++ tableText n k := by
      rw [firstTableText, horder, List.head?_cons, Option.bind_some, hk]
    rw [fromClause, if_neg htables, htext, ← String.append_assoc]
    rfl

/-- In a reachable query that selects something from tables and has no text of its own, the
statement lists every table once, in the order of the search and the first without conditions.
Every join between tables is written once: with the table of its two that stands later, among
the joins of that table in their order. A table without conditions is joined always, and it
has none just if no join links it with a table before it. -/
theorem fromClause_exact (h : q.Reachable) (hhand : q.handWritten = none)
    (hselected : q.selected ≠ []) (htables : q.tables ≠ []) (n : Naming) :
    q.textWith n = q.selectClause n ++ q.fromClause n ++ " " ++ q.whereClause n ++
      (if q.grouping then q.groupByClause n ++ " " ++ q.havingClause n ++ " " else "") ++
      q.orderByClause n ∧
    q.finishOrder.Perm q.tables ∧ q.finishOrder.Nodup ∧
    (∃ first k, q.finishOrder = first :: q.placements.map Placement.table ∧
      q.container? first = some k ∧
      q.fromClause n = " \nFROM " ++ (n.table k ++ " " ++ k.correlationName) ++
        String.join (q.placements.map (q.placementText n))) ∧
    (∀ p ∈ q.placements,
      (∃ k texts, q.container? p.table = some k ∧
        List.Forall₂ (q.Compares n) p.conditions texts ∧
        q.placementText n p = " \n" ++ p.joinType.keyword ++ " " ++
          (n.table k ++ " " ++ k.correlationName) ++ " \n  ON " ++ q.onText n p.conditions ∧
        q.onText n p.conditions =
          if texts = [] then "0 = 0" else " \n    AND ".intercalate texts) ∧
      p.conditions = (q.joinsOf p.table).filter (q.fallsTo p.table) ∧
      (q.onText n p.conditions = "0 = 0" ↔ ¬ ∃ u, q.Linked u p.table ∧
        q.finishOrder.idxOf u < q.finishOrder.idxOf p.table)) ∧
    (q.placements.flatMap Placement.conditions).Perm q.tableJoins ∧ q.tableJoins.Nodup := by
  have htext : q.textWith n = q.statement n := by
    rw [textWith, hhand, Option.getD_none, derivedText, if_neg hselected]
  refine ⟨htext, h.finishOrder_perm, h.nodup_finishOrder, h.fromClause_eq htables n, ?_,
    h.conditions_perm, q.allJoins_nodup.filter _⟩
  intro p hp
  obtain ⟨k, texts, hk, htexts, hplace, hon⟩ := h.placementText_eq n hp
  have hcompared : List.Forall₂ (q.Compares n) p.conditions texts :=
    htexts.imp fun _ _ => conditionText?_eq_some_iff.1
  refine ⟨⟨k, texts, hk, hcompared, hplace, hon⟩, h.conditions_eq hp, ?_⟩
  rw [onText_eq_always_iff (h.conditionText?_ok n hp)]
  exact h.conditions_eq_nil_iff hp

end Reachable

/-- The three joins of the looped tables all have their place. -/
theorem loopedTables_writes_joins :
    loopedTables.Reachable ∧ loopedTables.handWritten = none ∧ loopedTables.selected ≠ [] ∧
      loopedTables.tables ≠ [] ∧
      (loopedTables.placements.flatMap Placement.conditions).Perm
        [.ofCount 10, .ofCount 11, .ofCount 12] := by
  have hhand : loopedTables.handWritten = none := by decide +kernel
  have hselected : loopedTables.selected ≠ [] := by decide +kernel
  have htables : loopedTables.tables ≠ [] := by decide +kernel
  refine ⟨loopedTables_reachable, hhand, hselected, htables, ?_⟩
  have hperm :=
    (loopedTables_reachable.fromClause_exact hhand hselected htables .plain).2.2.2.2.2.1
  have hjoins : loopedTables.tableJoins = [.ofCount 10, .ofCount 11, .ofCount 12] := by
    decide +kernel
  rwa [hjoins] at hperm

example : loopedTables.fromClause .plain =
    " \nFROM U U \nINNER JOIN T T \n  ON 0 = 0" ++
      " \nINNER JOIN W W \n  ON T.X = W.X \n    AND W.X = T.X \n    AND U.X = W.X" := by
  decide +kernel

end LiveSelect.Query
