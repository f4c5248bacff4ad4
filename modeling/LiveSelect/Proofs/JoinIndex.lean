import LiveSelect.Proofs.Ownership

/-! # The index of joins

A query lists every join under the containers of its two columns. The invariant says more
than that the lists have the right members: the list of a container is the list of all
joins, in the order in which they were made, restricted to those that touch the container.
Every edit finds the joins that it drops through the index, so the invariant is also what
justifies that no join is overlooked. -/

namespace LiveSelect

theorem Join.uses_iff {join : Join} {i : ItemId} :
    join.uses i ↔ join.left = i ∨ join.right = i := by
  simp [uses]

theorem Join.uses_column (join : Join) (side : Side) : join.uses (join.column side) := by
  cases side <;> simp [uses, column]

namespace Query

variable {q q' : Query}

/-- Whether a join has a column in a container. -/
def touches (q : Query) (c : ContainerId) (j : JoinId) : Bool :=
  (q.ends? j).any fun x => x.1 = c || x.2 = c

/-- No join compares the item. -/
def Unused (q : Query) (i : ItemId) : Prop :=
  ∀ j join, q.join? j = some join → join.left ≠ i ∧ join.right ≠ i

/-- Joins have two containers, and the index lists under each container what touches it. -/
structure Indexed (q : Query) : Prop where
  ends_of_mem : ∀ j ∈ q.allJoins, ∃ l r, q.ends? j = some (l, r) ∧ l ≠ r
  joinsOf_eq : ∀ c, q.joinsOf c = q.allJoins.filter (q.touches c)
  no_empty : ∀ c, q.incidence.get? c ≠ some []

/-! ## Look-ups -/

theorem ends?_eq (q : Query) (j : JoinId) :
    q.ends? j = (q.join? j).bind fun join =>
      (q.home? join.left).bind fun l => (q.home? join.right).map fun r => (l, r) := by
  unfold ends? home?
  cases q.join? j with
  | none => rfl
  | some join =>
    simp only [bind, Option.bind_some]
    cases q.item? join.left with
    | none => rfl
    | some l => cases q.item? join.right <;> rfl

theorem ends?_eq_some {j : JoinId} {l r : ContainerId} :
    q.ends? j = some (l, r) ↔
      ∃ join, q.join? j = some join ∧ q.home? join.left = some l ∧ q.home? join.right = some r := by
  rw [ends?_eq]
  simp only [Option.bind_eq_some_iff, Option.map_eq_some_iff, Prod.mk.injEq]
  constructor
  · rintro ⟨join, hjoin, l', hl, r', hr, rfl, rfl⟩
    exact ⟨join, hjoin, hl, hr⟩
  · rintro ⟨join, hjoin, hl, hr⟩
    exact ⟨join, hjoin, l, hl, r, hr, rfl, rfl⟩

/-- A join has the same containers in two queries in which its columns have the same homes. -/
theorem ends?_congr {j : JoinId} (hjoin : q'.join? j = q.join? j)
    (hhome : ∀ join, q.join? j = some join →
      q'.home? join.left = q.home? join.left ∧ q'.home? join.right = q.home? join.right) :
    q'.ends? j = q.ends? j := by
  rw [ends?_eq, ends?_eq, hjoin]
  refine Option.bind_congr fun join hj => ?_
  obtain ⟨hl, hr⟩ := hhome join hj
  rw [hl, hr]

theorem mem_allJoins {j : JoinId} : j ∈ q.allJoins ↔ ∃ join, q.join? j = some join := by
  rw [allJoins, IdMap.mem_keys_iff]
  exact q.joins.contains_iff j

theorem ends?_eq_none {j : JoinId} (h : q.join? j = none) : q.ends? j = none := by
  rw [ends?_eq, h]
  rfl

theorem touches_iff {c : ContainerId} {j : JoinId} :
    q.touches c j ↔ ∃ l r, q.ends? j = some (l, r) ∧ (l = c ∨ r = c) := by
  cases h : q.ends? j with
  | none => simp [touches, h]
  | some x => simp [touches, h, Prod.ext_iff]

theorem allJoins_nodup (q : Query) : q.allJoins.Nodup := q.joins.nodup_keys

namespace Indexed

theorem ends_of_join (h : q.Indexed) {j : JoinId} {join : Join} (hj : q.join? j = some join) :
    ∃ l r, q.ends? j = some (l, r) ∧ l ≠ r :=
  h.ends_of_mem j (mem_allJoins.2 ⟨join, hj⟩)

theorem mem_joinsOf (h : q.Indexed) {c : ContainerId} {j : JoinId} :
    j ∈ q.joinsOf c ↔ ∃ l r, q.ends? j = some (l, r) ∧ (l = c ∨ r = c) := by
  rw [h.joinsOf_eq, List.mem_filter, touches_iff]
  constructor
  · rintro ⟨_, hends⟩
    exact hends
  · rintro ⟨l, r, hends, hc⟩
    rcases ends?_eq_some.1 hends with ⟨join, hjoin, _⟩
    exact ⟨mem_allJoins.2 ⟨join, hjoin⟩, l, r, hends, hc⟩

theorem nodup_joinsOf (h : q.Indexed) (c : ContainerId) : (q.joinsOf c).Nodup := by
  rw [h.joinsOf_eq]
  exact q.allJoins_nodup.filter _

/-- The index holds nothing but the lists that can be read from it. -/
theorem incidence_congr (h : q.Indexed) (h' : q'.Indexed) (hj : ∀ c, q'.joinsOf c = q.joinsOf c) :
    q'.incidence = q.incidence := by
  -- A list that is kept is not empty, so an empty reading means that none is kept.
  have hread : ∀ {q : Query}, q.Indexed → ∀ c,
      q.incidence.get? c = if q.joinsOf c = [] then none else some (q.joinsOf c) := by
    intro q h c
    rw [joinsOf]
    cases hc : q.incidence.get? c with
    | none => rfl
    | some js =>
      rw [Option.getD_some, if_neg]
      rintro rfl
      exact h.no_empty c hc
  apply IdMap.ext_get?
  intro c
  rw [hread h', hread h, hj]

/-! ## What keeps the index -/

/-- The index stays exact when joins stay between the same containers. -/
theorem of_ends (h : q.Indexed) (hall : q'.allJoins = q.allJoins)
    (hinc : q'.incidence = q.incidence) (hends : ∀ j, q'.ends? j = q.ends? j) : q'.Indexed where
  ends_of_mem j hj := by
    rw [hends]
    exact h.ends_of_mem j (hall ▸ hj)
  joinsOf_eq c := by
    have htouch : q'.touches c = q.touches c := by
      funext j
      simp only [touches, hends]
    rw [joinsOf, hinc, hall, htouch]
    exact h.joinsOf_eq c
  no_empty c := by
    rw [hinc]
    exact h.no_empty c

/-- The index stays exact when the columns of joins keep their containers. -/
theorem of_home (h : q.Indexed) (hjoins : q'.joins = q.joins) (hinc : q'.incidence = q.incidence)
    (hhome : ∀ j join, q.join? j = some join →
      q'.home? join.left = q.home? join.left ∧ q'.home? join.right = q.home? join.right) :
    q'.Indexed := by
  have hjoin : ∀ j, q'.join? j = q.join? j := by
    intro j
    rw [join?, join?, hjoins]
  refine h.of_ends (by rw [allJoins, allJoins, hjoins]) hinc fun j => ?_
  exact ends?_congr (hjoin j) (hhome j)

/-- Columns of joins are known items. -/
theorem home_of_join (h : q.Indexed) {j : JoinId} {join : Join} (hj : q.join? j = some join) :
    ∃ l r, q.home? join.left = some l ∧ q.home? join.right = some r ∧ l ≠ r := by
  rcases h.ends_of_join hj with ⟨l, r, hends, hne⟩
  rcases ends?_eq_some.1 hends with ⟨join', hj', hl, hr⟩
  rw [hj, Option.some.injEq] at hj'
  subst hj'
  exact ⟨l, r, hl, hr, hne⟩

theorem home_of_column (h : q.Indexed) {j : JoinId} {join : Join} (hj : q.join? j = some join)
    (side : Side) : ∃ c, q.home? (join.column side) = some c := by
  rcases h.home_of_join hj with ⟨l, r, hl, hr, -⟩
  cases side with
  | left => exact ⟨l, hl⟩
  | right => exact ⟨r, hr⟩

theorem mem_joinsOf_iff (h : q.Indexed) {c : ContainerId} {j : JoinId} :
    j ∈ q.joinsOf c ↔ ∃ join, q.join? j = some join ∧
      (q.home? join.left = some c ∨ q.home? join.right = some c) := by
  rw [h.mem_joinsOf]
  constructor
  · rintro ⟨l, r, hends, hc⟩
    rcases ends?_eq_some.1 hends with ⟨join, hjoin, hl, hr⟩
    refine ⟨join, hjoin, ?_⟩
    rcases hc with rfl | rfl
    · exact Or.inl hl
    · exact Or.inr hr
  · rintro ⟨join, hjoin, hc⟩
    rcases h.home_of_join hjoin with ⟨l, r, hl, hr, -⟩
    refine ⟨l, r, ends?_eq_some.2 ⟨join, hjoin, hl, hr⟩, ?_⟩
    rcases hc with hc | hc
    · exact Or.inl (Option.some.inj (hl.symm.trans hc))
    · exact Or.inr (Option.some.inj (hr.symm.trans hc))

theorem mem_joinsOf_iff_touches (h : q.Indexed) {c : ContainerId} {j : JoinId} :
    j ∈ q.joinsOf c ↔ q.touches c j := by
  rw [h.mem_joinsOf, touches_iff]

/-- The joins that use an item are all listed under its container. -/
theorem mem_joinsOf_of_uses (h : q.Indexed) {c : ContainerId} {i : ItemId} {j : JoinId}
    {join : Join} (hi : q.home? i = some c) (hj : q.join? j = some join) (huses : join.uses i) :
    j ∈ q.joinsOf c := by
  rw [h.mem_joinsOf_iff]
  refine ⟨join, hj, ?_⟩
  rcases Join.uses_iff.1 huses with rfl | rfl
  · exact Or.inl hi
  · exact Or.inr hi

theorem mem_usersOf (h : q.Indexed) {c : ContainerId} {i : ItemId} (hi : q.home? i = some c)
    {j : JoinId} : j ∈ q.usersOf c i ↔ (q.join? j).any (·.uses i) := by
  rw [usersOf, List.mem_filter, and_iff_right_iff_imp]
  intro huses
  rcases (Option.any_eq_true _ _).1 huses with ⟨join, hj, huse⟩
  exact h.mem_joinsOf_of_uses hi hj huse

/-- Changing a join other than in its columns keeps the index. -/
theorem updateJoin (h : q.Indexed) (j : JoinId) {f : Join → Join}
    (hf : ∀ x, (f x).left = x.left ∧ (f x).right = x.right) : (q.updateJoin j f).Indexed := by
  refine h.of_ends (IdMap.keys_modify _ _ _) rfl ?_
  intro k
  rw [ends?_eq, ends?_eq]
  simp only [join?, Query.updateJoin, IdMap.get?_modify]
  split
  · cases q.joins.get? k with
    | none => rfl
    | some x =>
      simp only [Option.map_some, Option.bind_some, (hf x).1, (hf x).2]
      rfl
  · rfl

end Indexed

/-! ## Listing and unlisting -/

theorem joinsOf_listJoin (q : Query) (c k : ContainerId) (j : JoinId) :
    (q.listJoin c j).joinsOf k = if k = c then q.joinsOf c ++ [j] else q.joinsOf k := by
  simp only [joinsOf, listJoin, IdMap.get?_insert]
  split <;> rfl

theorem incidence_unlistJoin (q : Query) (j : JoinId) (c k : ContainerId) :
    (q.unlistJoin j c).incidence.get? k =
      if k = c then some ((q.joinsOf c).filter (· ≠ j)) |>.filter (· ≠ [])
      else q.incidence.get? k := by
  unfold unlistJoin
  by_cases hrest : (q.joinsOf c).filter (· ≠ j) = []
  · simp only [if_pos hrest, IdMap.get?_erase]
    split
    · rw [hrest]
      rfl
    · rfl
  · simp only [if_neg hrest, IdMap.get?_insert]
    split
    · rw [Option.filter_some, if_pos (by simpa using hrest)]
    · rfl

theorem joinsOf_unlistJoin (q : Query) (j : JoinId) (c k : ContainerId) :
    (q.unlistJoin j c).joinsOf k =
      if k = c then (q.joinsOf c).filter (· ≠ j) else q.joinsOf k := by
  rw [joinsOf, incidence_unlistJoin]
  split
  · rw [Option.filter_some]
    split
    · rfl
    · rename_i hrest
      exact (by simpa using hrest : (q.joinsOf c).filter (· ≠ j) = []).symm
  · rfl

theorem incidence_listJoin_ne_nil {c : ContainerId} {j : JoinId}
    (h : ∀ k, q.incidence.get? k ≠ some []) (k : ContainerId) :
    (q.listJoin c j).incidence.get? k ≠ some [] := by
  simp only [listJoin, IdMap.get?_insert]
  split
  · simp
  · exact h k

theorem incidence_unlistJoin_ne_nil {c : ContainerId} {j : JoinId}
    (h : ∀ k, q.incidence.get? k ≠ some []) (k : ContainerId) :
    (q.unlistJoin j c).incidence.get? k ≠ some [] := by
  rw [incidence_unlistJoin]
  split
  · intro heq
    have hrest := (Option.filter_eq_some_iff.1 heq).2
    simp at hrest
  · exact h k

/-! ## Adding a join -/

theorem join?_putJoin (l r : ContainerId) (join : Join) (j : JoinId) :
    (q.putJoin l r join).join? j = if j = q.nextId then some join else q.join? j :=
  IdMap.get?_insert _ _ _ _

theorem joinsOf_putJoin {l r : ContainerId} (hne : l ≠ r) (join : Join) (c : ContainerId) :
    (q.putJoin l r join).joinsOf c =
      if l = c ∨ r = c then q.joinsOf c ++ [q.nextId] else q.joinsOf c := by
  have hbase : ∀ k, joinsOf { q.handOut with joins := q.joins.insert q.nextId join } k =
      q.joinsOf k := fun _ => rfl
  simp only [putJoin, joinsOf_listJoin, hbase]
  by_cases hl : l = c
  · subst hl
    simp [hne]
  · by_cases hr : r = c
    · subst hr
      simp [Ne.symm hne]
    · simp [Ne.symm hl, Ne.symm hr, hl, hr]

theorem allJoins_putJoin (hn : q.Numbered) (hq : q.count < UInt32.size) (l r : ContainerId)
    (join : Join) : (q.putJoin l r join).allJoins = q.allJoins ++ [q.nextId] := by
  apply IdMap.keys_insert_above
  intro k hk
  rw [toNat_nextId hq]
  exact hn.below k hk

/-- A new join between known items of two containers is listed under both. -/
theorem Indexed.putJoin (h : q.Indexed) (hn : q.Numbered) (hq : q.count < UInt32.size)
    {l r : ContainerId} (hne : l ≠ r) {join : Join} (hl : q.home? join.left = some l)
    (hr : q.home? join.right = some r) : (q.putJoin l r join).Indexed := by
  have hnew : (q.putJoin l r join).ends? q.nextId = some (l, r) := by
    rw [ends?_eq_some]
    exact ⟨join, by rw [join?_putJoin, if_pos rfl], hl, hr⟩
  have hold : ∀ j, j ≠ q.nextId → (q.putJoin l r join).ends? j = q.ends? j := by
    intro j hj
    rw [ends?_eq, ends?_eq, join?_putJoin, if_neg hj]
    rfl
  -- The joins there are, are older than the new one.
  have hmem : ∀ j ∈ q.allJoins, j ≠ q.nextId := by
    intro j hj
    exact hn.ne_nextId hq (e := .join) ((IdMap.mem_keys_iff _ _).1 hj)
  constructor
  · intro j hj
    rw [allJoins_putJoin hn hq, List.mem_append, List.mem_singleton] at hj
    rcases hj with hj | rfl
    · rw [hold j (hmem j hj)]
      exact h.ends_of_mem j hj
    · exact ⟨l, r, hnew, hne⟩
  · intro c
    have htouch : (q.putJoin l r join).touches c q.nextId = decide (l = c ∨ r = c) := by
      simp [touches, hnew]
    have hrest : q.allJoins.filter ((q.putJoin l r join).touches c) = q.joinsOf c := by
      rw [h.joinsOf_eq]
      apply List.filter_congr
      intro j hj
      simp only [touches, hold j (hmem j hj)]
    rw [joinsOf_putJoin hne, allJoins_putJoin hn hq, List.filter_append, hrest]
    by_cases hc : l = c ∨ r = c
    · rw [if_pos hc, List.filter_singleton, htouch, decide_eq_true hc]
      rfl
    · rw [if_neg hc, List.filter_singleton, htouch, decide_eq_false hc]
      exact (List.append_nil _).symm
  · exact incidence_listJoin_ne_nil (incidence_listJoin_ne_nil h.no_empty)

/-! ## Dropping joins -/

/-- Dropping a join touches nothing but the joins and the index. -/
theorem dropJoin_eq (q : Query) (j : JoinId) :
    q.dropJoin j =
      { q with joins := (q.dropJoin j).joins, incidence := (q.dropJoin j).incidence } := by
  unfold dropJoin
  split <;> rfl

theorem dropJoins_eq (q : Query) (js : List JoinId) :
    q.dropJoins js =
      { q with joins := (q.dropJoins js).joins, incidence := (q.dropJoins js).incidence } := by
  unfold dropJoins
  induction js generalizing q with
  | nil => rfl
  | cons j rest ih =>
    rw [List.foldl_cons, ih]
    rw [dropJoin_eq q j]

namespace Indexed

theorem joins_dropJoin (h : q.Indexed) (j : JoinId) : (q.dropJoin j).joins = q.joins.erase j := by
  unfold dropJoin
  cases hends : q.ends? j with
  | some ends => rfl
  | none =>
    -- Only an unknown join has no containers, and there is nothing to erase then.
    have habsent : ¬ q.joins.contains j := by
      intro hc
      rcases (q.joins.contains_iff j).1 hc with ⟨join, hjoin⟩
      rcases h.ends_of_join hjoin with ⟨l, r, hlr, _⟩
      rw [hends] at hlr
      cases hlr
    rw [IdMap.erase_of_absent habsent]

theorem joinsOf_dropJoin (h : q.Indexed) (j : JoinId) (c : ContainerId) :
    (q.dropJoin j).joinsOf c = (q.joinsOf c).filter (· ≠ j) := by
  -- A container that the join does not touch does not list it.
  have hkeep : ∀ k, (∀ l r, q.ends? j = some (l, r) → ¬ (l = k ∨ r = k)) →
      (q.joinsOf k).filter (· ≠ j) = q.joinsOf k := by
    intro k hk
    rw [List.filter_eq_self]
    intro x hx
    have hne : x ≠ j := by
      rintro rfl
      rcases h.mem_joinsOf.1 hx with ⟨l, r, hends, hc⟩
      exact hk l r hends hc
    simpa using hne
  unfold dropJoin
  cases hends : q.ends? j with
  | none =>
    exact (hkeep c fun l r hlr => by rw [hends] at hlr; cases hlr).symm
  | some ends =>
    rcases ends with ⟨l, r⟩
    have hbase : ∀ k, joinsOf { q with joins := q.joins.erase j } k = q.joinsOf k := fun _ => rfl
    simp only [joinsOf_unlistJoin, hbase]
    by_cases hr : c = r
    · -- The right container is the one that is unlisted last.
      subst hr
      rw [if_pos rfl]
      split
      · rename_i hl
        rw [hl, List.filter_filter]
        simp
      · rfl
    · by_cases hl : c = l
      · rw [if_neg hr, if_pos hl, hl]
      · rw [if_neg hr, if_neg hl]
        refine (hkeep c ?_).symm
        intro l' r' hlr
        rw [hends, Option.some.injEq, Prod.mk.injEq] at hlr
        rintro (heq | heq)
        · exact hl (heq ▸ hlr.1.symm)
        · exact hr (heq ▸ hlr.2.symm)

theorem dropJoin (h : q.Indexed) (j : JoinId) : (q.dropJoin j).Indexed := by
  have hjoins := h.joins_dropJoin j
  have hall : (q.dropJoin j).allJoins = q.allJoins.filter (· ≠ j) := by
    rw [allJoins, hjoins, IdMap.keys_erase]
    rfl
  have hends : ∀ k, k ≠ j → (q.dropJoin j).ends? k = q.ends? k := by
    intro k hk
    have hjoin : (q.dropJoin j).join? k = q.join? k := by
      rw [join?, hjoins, IdMap.get?_erase, if_neg hk]
      rfl
    rw [ends?_eq, ends?_eq, hjoin, dropJoin_eq]
    rfl
  constructor
  · intro k hk
    rw [hall, List.mem_filter] at hk
    rw [hends k (by simpa using hk.2)]
    exact h.ends_of_mem k hk.1
  · intro c
    -- Dropping and restricting to what touches a container may change places.
    rw [h.joinsOf_dropJoin, hall, h.joinsOf_eq, List.filter_filter, List.filter_filter]
    apply List.filter_congr
    intro k _
    by_cases hk : k = j
    · simp [hk]
    · simp only [touches, hends k hk, Bool.and_comm]
  · intro c
    unfold Query.dropJoin
    split
    · exact incidence_unlistJoin_ne_nil (incidence_unlistJoin_ne_nil h.no_empty) c
    · exact h.no_empty c

/-- Dropping joins keeps the index, and drops these joins and no others. -/
theorem dropJoins (h : q.Indexed) (js : List JoinId) :
    (q.dropJoins js).Indexed ∧
      ∀ k, (q.dropJoins js).join? k = if k ∈ js then none else q.join? k := by
  unfold Query.dropJoins
  induction js generalizing q with
  | nil => exact ⟨h, fun k => by simp⟩
  | cons j rest ih =>
    rcases ih (h.dropJoin j) with ⟨hindexed, hjoin⟩
    refine ⟨hindexed, ?_⟩
    intro k
    rw [List.foldl_cons, hjoin, join?, h.joins_dropJoin, IdMap.get?_erase]
    by_cases hk : k = j <;> simp [hk, join?]

theorem joinsOf_dropJoins (h : q.Indexed) (js : List JoinId) (c : ContainerId) :
    (q.dropJoins js).joinsOf c = (q.joinsOf c).filter (· ∉ js) := by
  unfold Query.dropJoins
  induction js generalizing q with
  | nil => simp
  | cons j rest ih =>
    rw [List.foldl_cons, ih (h.dropJoin j), h.joinsOf_dropJoin, List.filter_filter]
    simp only [List.mem_cons, not_or, ne_eq, Bool.decide_and, Bool.and_comm]

/-- A join that is left after some were dropped is none of them and was there before. -/
theorem join?_dropJoins (h : q.Indexed) {js : List JoinId} {j : JoinId} {join : Join}
    (hj : (q.dropJoins js).join? j = some join) : j ∉ js ∧ q.join? j = some join := by
  rw [(h.dropJoins js).2 j] at hj
  split at hj
  · cases hj
  · rename_i hmem
    exact ⟨hmem, hj⟩

/-- An item is unused when all joins that touch its container and use it are gone. -/
theorem unused_dropJoins (h : q.Indexed) {c : ContainerId} {i : ItemId} (hi : q.home? i = some c)
    {js : List JoinId} (hjs : ∀ j ∈ q.joinsOf c, (q.join? j).any (·.uses i) → j ∈ js) :
    (q.dropJoins js).Unused i := by
  intro j join hj
  rcases h.join?_dropJoins hj with ⟨hnot, hjoin⟩
  have hkept : ¬ join.uses i := by
    intro huses
    exact hnot (hjs j (h.mem_joinsOf_of_uses hi hjoin huses) (by rwa [hjoin]))
  rwa [Join.uses_iff, not_or] at hkept

end Indexed

/-- What is left after some joins were dropped was there before. -/
theorem Indexed.knows_of_dropJoins (hi : q.Indexed) (js : List JoinId) {e : Entity} {i : Id e}
    (hk : (q.dropJoins js).Knows i) : q.Knows i := by
  have heq := dropJoins_eq q js
  cases e with
  | item =>
    rw [heq] at hk
    exact hk
  | container =>
    rw [heq] at hk
    exact hk
  | join =>
    -- The joins that are left are some of those there were.
    rcases ((q.dropJoins js).joins.contains_iff i).1 hk with ⟨join, hj⟩
    exact IdMap.contains_of_get? (hi.join?_dropJoins hj).2

theorem Numbered.dropJoins (hn : q.Numbered) (hi : q.Indexed) (js : List JoinId) :
    (q.dropJoins js).Numbered :=
  hn.mono (dropJoins_eq q js ▸ Nat.le_refl q.count) fun _ hk => hi.knows_of_dropJoins js hk

theorem Owned.dropJoins (ho : q.Owned) (js : List JoinId) : (q.dropJoins js).Owned := by
  rw [dropJoins_eq]
  exact ho.of_arenas rfl rfl rfl rfl

namespace Indexed

/-! ## The index never contradicts itself -/

theorem sideOf_ok (h : q.Indexed) {c : ContainerId} {j : JoinId} (hj : j ∈ q.joinsOf c) :
    ∃ side, q.sideOf j c = .ok side := by
  rcases h.mem_joinsOf.1 hj with ⟨l, r, hends, hc⟩
  unfold sideOf
  rw [hends]
  simp only
  split
  · exact ⟨.left, rfl⟩
  · rename_i hl
    rw [if_pos (hc.resolve_left hl)]
    exact ⟨.right, rfl⟩

theorem inheritedOuter_ok (h : q.Indexed) (c : ContainerId) :
    ∃ flag, q.inheritedOuter c = .ok flag := by
  unfold inheritedOuter
  split
  · exact ⟨none, rfl⟩
  · rename_i first rest hfirst
    have hmem : first ∈ q.joinsOf c := by
      rw [hfirst]
      exact List.mem_cons_self
    rcases h.sideOf_ok hmem with ⟨side, hside⟩
    exact ⟨_, by rw [hside]; rfl⟩

theorem mapM_sideOf_ok {c : ContainerId} {js : List JoinId}
    (h : ∀ j ∈ js, ∃ side, q.sideOf j c = .ok side) :
    ∃ sides, (js.mapM fun j => do return (j, ← q.sideOf j c) :
      Except QueryError (List (JoinId × Side))) = .ok sides := by
  induction js with
  | nil => exact ⟨[], rfl⟩
  | cons j rest ih =>
    -- The side of the first join, then those of the rest.
    rcases h j List.mem_cons_self with ⟨side, hside⟩
    rcases ih fun k hk => h k (List.mem_cons_of_mem _ hk) with ⟨sides, hsides⟩
    refine ⟨(j, side) :: sides, ?_⟩
    rw [List.mapM_cons, hside]
    simp only [bind, Except.bind, pure, Except.pure] at hsides ⊢
    rw [hsides]

theorem differingJoins_ok (h : q.Indexed) (c : ContainerId) (outer : Bool) :
    ∃ changes, q.differingJoins c outer = .ok changes := by
  rcases mapM_sideOf_ok (q := q) (c := c) fun j hj => h.sideOf_ok hj with ⟨sides, hsides⟩
  unfold differingJoins
  rw [hsides]
  exact ⟨_, rfl⟩

end Indexed

end Query

end LiveSelect
