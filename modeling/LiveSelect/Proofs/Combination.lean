import LiveSelect.Proofs.FromClause
import LiveSelect.Proofs.Outerness

/-! # How the tables are combined

Every table of the FROM clause but the first is combined with the table right before it and
joined on the conditions that it shares with all tables before it. How two neighbours are
combined is read from the first join that links them; since all joins that touch a table agree
on its flag, any other join between the two would say the same. A table that an earlier added
table leads to is reached by the search of that table or of one before it. It then follows the
table through which it was reached, and the join between the two is one of its conditions. -/

namespace LiveSelect

namespace JoinType

theorem keyword_ofFlags_eq_left {first second : Bool} :
    (ofFlags first second).keyword = "LEFT OUTER JOIN" ↔ first = true ∧ second = false := by
  cases first <;> cases second <;> decide

end JoinType

namespace Query

variable {q : Query} {n : Naming} {j : JoinId} {join : Join} {s t u v : ContainerId}
variable {p : Placement} {outer : ContainerId → Bool} {before after : List ContainerId}

/-! ## Neighbours -/

/-- A table is placed with regard to the table right before it. -/
theorem exists_placeAfter {earlier rest : List ContainerId} {previous : ContainerId}
    (hrest : previous :: rest = before ++ u :: t :: after) :
    ∃ p ∈ q.placeAfter earlier previous rest,
      p.table = t ∧ p.joinType = q.joinTypeAfter u t := by
  induction rest generalizing earlier previous before with
  | nil =>
    have hlength := congrArg List.length hrest
    simp only [List.length_cons, List.length_append, List.length_nil] at hlength
    omega
  | cons x rest ih =>
    cases before with
    | nil =>
      obtain ⟨rfl, rfl, rfl⟩ : previous = u ∧ x = t ∧ rest = after := by simpa using hrest
      exact ⟨_, List.mem_cons_self, rfl, rfl⟩
    | cons y before =>
      have htail : x :: rest = before ++ u :: t :: after := (List.cons.inj hrest).2
      obtain ⟨p, hp, htable, htype⟩ :
          ∃ p ∈ q.placeAfter (earlier ++ [x]) x rest,
            p.table = t ∧ p.joinType = q.joinTypeAfter u t := ih htail
      exact ⟨p, List.mem_cons_of_mem _ hp, htable, htype⟩

theorem exists_placement (horder : q.finishOrder = before ++ u :: t :: after) :
    ∃ p ∈ q.placements, p.table = t ∧ p.joinType = q.joinTypeAfter u t := by
  unfold placements
  split
  · rename_i hnil
    rw [hnil] at horder
    simp at horder
  · rename_i first rest hcons
    rw [hcons] at horder
    exact exists_placeAfter horder

/-- Where the place of a table stands in the FROM clause. -/
theorem fromClause_split (htables : q.tables ≠ []) (n : Naming) (hp : p ∈ q.placements) :
    ∃ l₁ l₂, q.placements = l₁ ++ p :: l₂ ∧
      q.fromClause n = " \nFROM" ++ q.firstTableText n ++
        String.join (l₁.map (q.placementText n)) ++ q.placementText n p ++
        String.join (l₂.map (q.placementText n)) := by
  obtain ⟨l₁, l₂, hplaces⟩ := List.append_of_mem hp
  refine ⟨l₁, l₂, hplaces, ?_⟩
  rw [fromClause, if_neg htables, hplaces, List.map_append, List.map_cons, String.join_append,
    String.join_cons]
  simp only [String.append_assoc]

/-! ## The type of a join -/

/-- A join of two tables that carry their flags says how the first is combined with the
second, whichever of them is its left one. -/
theorem Carries.linkType?_eq_some_iff (h : q.Carries outer) {type : JoinType} :
    q.linkType? u t j = some type ↔
      (q.ends? j = some (u, t) ∨ q.ends? j = some (t, u)) ∧
        type = .ofFlags (outer u) (outer t) := by
  cases hends : q.ends? j with
  | none => simp [linkType?, hends]
  | some ends =>
    obtain ⟨l, r⟩ := ends
    obtain ⟨join, hjoin, hl, hr⟩ := ends?_eq_some.1 hends
    have hleft : join.leftOuter = outer l := h j join .left l hjoin hl
    have hright : join.rightOuter = outer r := h j join .right r hjoin hr
    simp only [linkType?, hjoin, hends, bind, Option.bind_some, hleft, hright, pure,
      Option.some.injEq, Prod.mk.injEq]
    split_ifs with hforth hback
    · obtain ⟨rfl, rfl⟩ := hforth
      simp [eq_comm]
    · obtain ⟨rfl, rfl⟩ := hback
      simp [eq_comm]
    · simp only [false_iff, not_and]
      intro hor
      rcases hor with hor | hor
      · exact absurd hor hforth
      · exact absurd ⟨hor.2, hor.1⟩ hback

/-- A table is combined with the one before it as their flags say if a join links the two, and
plainly if none does. -/
theorem Carries.joinTypeAfter (h : q.Carries outer) (hi : q.Indexed) (hu : u ∈ q.tables)
    (ht : t ∈ q.tables) :
    (q.Linked u t → q.joinTypeAfter u t = .ofFlags (outer u) (outer t)) ∧
      (¬ q.Linked u t → q.joinTypeAfter u t = .inner) := by
  constructor
  · intro hlinked
    obtain ⟨j, hends⟩ : ∃ j, q.ends? j = some (u, t) ∨ q.ends? j = some (t, u) := by
      rcases hlinked with ⟨j, hends, -⟩ | ⟨j, hends, -⟩
      · exact ⟨j, Or.inl hends⟩
      · exact ⟨j, Or.inr hends⟩
    have hj : j ∈ q.joinsOf t := by
      rcases hends with hends | hends
      · exact hi.mem_joinsOf.2 ⟨u, t, hends, Or.inr rfl⟩
      · exact hi.mem_joinsOf.2 ⟨t, u, hends, Or.inl rfl⟩
    have htype := h.linkType?_eq_some_iff.2 ⟨hends, rfl⟩
    -- Some join is found, and whichever it is, it says the same.
    have hfound : ((q.joinsOf t).findSome? (q.linkType? u t)).isSome := by
      rw [List.findSome?_isSome_iff]
      exact ⟨j, hj, by rw [htype]; rfl⟩
    obtain ⟨type, hsome⟩ := Option.isSome_iff_exists.1 hfound
    obtain ⟨k, -, hk⟩ := List.exists_of_findSome?_eq_some hsome
    rw [Query.joinTypeAfter, hsome, Option.getD_some]
    exact (h.linkType?_eq_some_iff.1 hk).2
  · intro hnot
    have hnone : (q.joinsOf t).findSome? (q.linkType? u t) = none := by
      rw [List.findSome?_eq_none_iff]
      intro j _
      cases hlink : q.linkType? u t j with
      | none => rfl
      | some type =>
        rcases (h.linkType?_eq_some_iff.1 hlink).1 with hends | hends
        · exact absurd (Or.inl ⟨j, hends, hu, ht⟩) hnot
        · exact absurd (Or.inr ⟨j, hends, ht, hu⟩) hnot
    rw [Query.joinTypeAfter, hnone, Option.getD_none]

/-- In a reachable query every container that joins touch has one flag. Of two tables that
stand next to each other in the statement, the later one is written with the keyword that the
flags of the two give, the earlier one's first, if a join links them, and as an inner join if
none does. Any join that links the two gives the same keyword, and it is that of a left outer
join just if the earlier table alone is outer. -/
theorem Reachable.joinType_exact (h : q.Reachable) (n : Naming) :
    ∃ outer : ContainerId → Bool, q.Carries outer ∧
      ∀ before u t after, q.finishOrder = before ++ u :: t :: after →
        ∃ p k l₁ l₂, p.table = t ∧ q.container? t = some k ∧
          q.placements = l₁ ++ p :: l₂ ∧
          q.fromClause n = " \nFROM" ++ q.firstTableText n ++
            String.join (l₁.map (q.placementText n)) ++ q.placementText n p ++
            String.join (l₂.map (q.placementText n)) ∧
          q.placementText n p = " \n" ++ p.joinType.keyword ++ " " ++ tableText n k ++
            " \n  ON " ++ q.onText n p.conditions ∧
          (¬ q.Linked u t → p.joinType.keyword = "INNER JOIN") ∧
          (q.Linked u t → p.joinType = .ofFlags (outer u) (outer t) ∧
            (p.joinType.keyword = "LEFT OUTER JOIN" ↔ outer u = true ∧ outer t = false)) ∧
          ∀ j join, q.join? j = some join →
            (q.ends? j = some (u, t) → p.joinType = .ofFlags join.leftOuter join.rightOuter) ∧
            (q.ends? j = some (t, u) → p.joinType = .ofFlags join.rightOuter join.leftOuter) := by
  obtain ⟨outer, hcarries⟩ := h.uniform
  refine ⟨outer, hcarries, ?_⟩
  intro before u t after horder
  have hi : q.Indexed := h.wellFormed.indexed
  have hmem : ∀ c ∈ [u, t], c ∈ q.tables := by
    intro c hc
    rw [← h.mem_finishOrder, horder]
    simp only [List.mem_cons, List.not_mem_nil, or_false] at hc
    rcases hc with rfl | rfl <;> simp
  have hu : u ∈ q.tables := hmem u (by simp)
  have ht : t ∈ q.tables := hmem t (by simp)
  obtain ⟨p, hp, rfl, htype⟩ := exists_placement horder
  obtain ⟨k, -, hk, -, htext, -⟩ := h.placementText_eq n hp
  obtain ⟨l₁, l₂, hplaces, hfrom⟩ := fromClause_split (List.ne_nil_of_mem hu) n hp
  obtain ⟨hlinked, hunlinked⟩ := hcarries.joinTypeAfter hi hu ht
  refine ⟨p, k, l₁, l₂, rfl, hk, hplaces, hfrom, htext, ?_, ?_, ?_⟩
  · intro hnot
    rw [htype, hunlinked hnot]
    rfl
  · intro hlink
    rw [htype, hlinked hlink]
    exact ⟨rfl, JoinType.keyword_ofFlags_eq_left⟩
  · intro j join hjoin
    constructor
    · intro hends
      obtain ⟨join', hjoin', hl, hr⟩ := ends?_eq_some.1 hends
      obtain rfl : join = join' := Option.some.inj (hjoin.symm.trans hjoin')
      rw [htype, hlinked (Or.inl ⟨j, hends, hu, ht⟩)]
      rw [← hcarries j join .left u hjoin hl, ← hcarries j join .right p.table hjoin hr]
      rfl
    · intro hends
      obtain ⟨join', hjoin', hl, hr⟩ := ends?_eq_some.1 hends
      obtain rfl : join = join' := Option.some.inj (hjoin.symm.trans hjoin')
      rw [htype, hlinked (Or.inr ⟨j, hends, ht, hu⟩)]
      rw [← hcarries j join .left p.table hjoin hl, ← hcarries j join .right u hjoin hr]
      rfl

/-- The second of the tables that are joined both ways stands after the first, which alone is
outer; the second join is drawn from the second table and says so too. -/
theorem twiceJoined_leftOuter :
    twiceJoined.Reachable ∧ twiceJoined.finishOrder = [.ofCount 4, .ofCount 5] ∧
      twiceJoined.ends? (.ofCount 9) = some (.ofCount 5, .ofCount 4) ∧
      ∃ p ∈ twiceJoined.placements,
        p.table = .ofCount 5 ∧ p.joinType.keyword = "LEFT OUTER JOIN" := by
  have horder : twiceJoined.finishOrder = [.ofCount 4, .ofCount 5] := by decide +kernel
  have hends : twiceJoined.ends? (.ofCount 9) = some (.ofCount 5, .ofCount 4) := by
    decide +kernel
  refine ⟨twiceJoined_reachable, horder, hends, ?_⟩
  obtain ⟨outer, -, hall⟩ := twiceJoined_reachable.joinType_exact .plain
  obtain ⟨p, -, l₁, l₂, htable, -, hplaces, -, -, -, -, hjoins⟩ := hall [] _ _ [] horder
  refine ⟨p, ?_, htable, ?_⟩
  · rw [hplaces]
    simp
  · let join : Join :=
      { left := .ofCount 7, right := .ofCount 6, leftOuter := false, rightOuter := true }
    have hjoin : twiceJoined.join? (.ofCount 9) = some join := by decide +kernel
    rw [(hjoins _ join hjoin).2 hends]
    rfl

/-! ## Tables that earlier ones lead to -/

namespace Reachable

/-- A table that an earlier added one leads to follows a table from which a join leads to it. -/
theorem joined_from_before (h : q.Reachable) (ht : t ∈ q.tables)
    (hlt : q.tables.idxOf s < q.tables.idxOf t)
    (hreach : Relation.ReflTransGen q.JoinsTo s t) :
    ∃ u, q.JoinsTo u t ∧ q.finishOrder.idxOf u < q.finishOrder.idxOf t := by
  have hi : q.Indexed := h.wellFormed.indexed
  obtain ⟨search, hvisits, horder⟩ := h.visits_tables
  obtain ⟨ts₁, ts₂, htables⟩ := List.append_of_mem ht
  have hnodup : (ts₁ ++ t :: ts₂).Nodup := htables ▸ h.wellFormed.owned.nodup_tables
  have hbefore : s ∈ ts₁ := by
    rw [htables] at hlt
    exact (idxOf_lt_iff_mem hnodup).1 hlt
  have hfresh : t ∉ ts₁ := by
    intro hmem
    exact (List.disjoint_of_nodup_append hnodup) hmem List.mem_cons_self
  rw [htables] at hvisits
  rw [← reaches_graph hi] at hreach
  obtain ⟨u, l₁, l₂, hlist, hu, harc⟩ := hvisits.follows_of_reaches hfresh hbefore hreach
  refine ⟨u, (mem_successors_graph hi).1 harc, ?_⟩
  have hdone := h.nodup_finishOrder
  rw [← horder, hlist] at hdone ⊢
  exact (idxOf_lt_iff_mem hdone).2 hu

/-- A table with another one before it has a place. -/
theorem placement_of_idxOf_lt (h : q.Reachable) (ht : t ∈ q.tables)
    (hlt : q.finishOrder.idxOf u < q.finishOrder.idxOf t) :
    q.finishOrder.head? ≠ some t ∧ ∃ p ∈ q.placements, p.table = t := by
  have hmem := h.mem_finishOrder.2 ht
  cases horder : q.finishOrder with
  | nil =>
    rw [horder] at hmem
    exact absurd hmem List.not_mem_nil
  | cons first rest =>
    rw [horder] at hmem hlt
    have hne : t ≠ first := by
      rintro rfl
      rw [List.idxOf_cons_self] at hlt
      exact Nat.not_lt_zero _ hlt
    have htail : t ∈ q.finishOrder.tail := by
      rw [horder]
      exact (List.mem_cons.1 hmem).resolve_left hne
    rw [← tables_placements] at htail
    obtain ⟨p, hp, htable⟩ := List.mem_map.1 htail
    refine ⟨?_, p, hp, htable⟩
    intro heq
    exact hne (Option.some.inj heq).symm

/-- In a reachable query that selects something and has no text of its own, a table to which
joins lead from a table that was added before it is not the first one in the FROM clause, and
it is not joined always: one of its conditions is a join that leads to it from a table that
stands before it. -/
theorem led_to_has_condition (h : q.Reachable) (hhand : q.handWritten = none)
    (hselected : q.selected ≠ []) (n : Naming) (ht : t ∈ q.tables)
    (hlt : q.tables.idxOf s < q.tables.idxOf t)
    (hreach : Relation.ReflTransGen q.JoinsTo s t) :
    q.finishOrder.head? ≠ some t ∧
    ∃ p k l₁ l₂, p.table = t ∧ q.container? t = some k ∧ q.placements = l₁ ++ p :: l₂ ∧
      q.textWith n = q.selectClause n ++ (" \nFROM" ++ q.firstTableText n ++
        String.join (l₁.map (q.placementText n)) ++ q.placementText n p ++
        String.join (l₂.map (q.placementText n))) ++ " " ++ q.whereClause n ++
        (if q.grouping then q.groupByClause n ++ " " ++ q.havingClause n ++ " " else "") ++
        q.orderByClause n ∧
      q.placementText n p = " \n" ++ p.joinType.keyword ++ " " ++ tableText n k ++
        " \n  ON " ++ q.onText n p.conditions ∧
      q.onText n p.conditions ≠ "0 = 0" ∧
      (∃ texts, List.Forall₂ (fun j text => q.conditionText? n j = some text) p.conditions texts ∧
        q.onText n p.conditions = " \n    AND ".intercalate texts) ∧
      ∃ j ∈ p.conditions, ∃ u, q.ends? j = some (u, t) ∧
        q.finishOrder.idxOf u < q.finishOrder.idxOf t := by
  obtain ⟨u, hjoins, hearlier⟩ := h.joined_from_before ht hlt hreach
  obtain ⟨hfirst, p, hp, rfl⟩ := h.placement_of_idxOf_lt ht hearlier
  obtain ⟨k, texts, hk, htexts, htext, hon⟩ := h.placementText_eq n hp
  have htables : q.tables ≠ [] := List.ne_nil_of_mem ht
  obtain ⟨l₁, l₂, hplaces, hfrom⟩ := fromClause_split htables n hp
  obtain ⟨j, hends, -, -⟩ := hjoins
  have hne : u ≠ p.table := by
    intro heq
    rw [heq] at hearlier
    exact Nat.lt_irrefl _ hearlier
  have hj : j ∈ p.conditions := by
    rw [h.conditions_eq hp, List.mem_filter]
    refine ⟨?_, (h.fallsTo_iff_lt ht hne (Or.inl hends)).2 hearlier⟩
    exact h.wellFormed.indexed.mem_joinsOf.2 ⟨u, p.table, hends, Or.inr rfl⟩
  have hsome : p.conditions ≠ [] := List.ne_nil_of_mem hj
  refine ⟨hfirst, p, k, l₁, l₂, rfl, hk, hplaces, ?_, htext, ?_, ⟨texts, htexts, ?_⟩, j, hj, u,
    hends, hearlier⟩
  · rw [textWith, hhand, Option.getD_none, derivedText, if_neg hselected, statement, hfrom]
  · intro halways
    exact hsome ((onText_eq_always_iff (h.conditionText?_ok n hp)).1 halways)
  · rw [hon, if_neg]
    rintro rfl
    exact hsome (List.forall₂_nil_right_iff.1 htexts)

end Reachable

/-- The second of the looped tables, to which the first one leads, is not the first in the
statement and has a condition. -/
theorem loopedTables_led_to_has_condition :
    loopedTables.Reachable ∧ loopedTables.handWritten = none ∧ loopedTables.selected ≠ [] ∧
      Id.ofCount 6 ∈ loopedTables.tables ∧
      loopedTables.tables.idxOf (.ofCount 4) < loopedTables.tables.idxOf (.ofCount 6) ∧
      Relation.ReflTransGen loopedTables.JoinsTo (.ofCount 4) (.ofCount 6) ∧
      loopedTables.finishOrder.head? ≠ some (.ofCount 6) ∧
      ∃ p ∈ loopedTables.placements, p.table = .ofCount 6 ∧
        loopedTables.onText .plain p.conditions ≠ "0 = 0" := by
  have hhand : loopedTables.handWritten = none := by decide +kernel
  have hselected : loopedTables.selected ≠ [] := by decide +kernel
  have ht : Id.ofCount 6 ∈ loopedTables.tables := by decide +kernel
  have hlt : loopedTables.tables.idxOf (.ofCount 4) < loopedTables.tables.idxOf (.ofCount 6) := by
    decide +kernel
  have hreach : Relation.ReflTransGen loopedTables.JoinsTo (.ofCount 4) (.ofCount 6) :=
    .single (loopedTables_joinsTo.2 (by simp))
  refine ⟨loopedTables_reachable, hhand, hselected, ht, hlt, hreach, ?_⟩
  obtain ⟨hfirst, p, -, l₁, l₂, htable, -, hplaces, -, -, hon, -⟩ :=
    loopedTables_reachable.led_to_has_condition hhand hselected .plain ht hlt hreach
  refine ⟨hfirst, p, ?_, htable, hon⟩
  rw [hplaces]
  simp

end Query

end LiveSelect
