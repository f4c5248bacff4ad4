import LiveSelect.Proofs.Consistency

/-! # The outer flag of a table

A join carries a flag for each of its two sides, but the flag belongs to the table on that
side: all joins that touch a container agree on it. The invariant gives every container its
flag. A new join takes over the flags of its containers where other joins touch them; setting
the flag of one join sets it for the container on all of its joins; and every other operation
leaves the joins that remain as they were. -/

namespace LiveSelect.Join

variable (x : Join) (on : Side → Bool) (value : Bool)

/-- The join with the flag set on the sides that are named. -/
def withOuterOn : Join :=
  { x with
    leftOuter := if on .left then value else x.leftOuter
    rightOuter := if on .right then value else x.rightOuter }

@[simp] theorem outer_withOuterOn (s : Side) :
    (x.withOuterOn on value).outer s = if on s then value else x.outer s := by
  cases s <;> rfl

@[simp] theorem column_withOuterOn (s : Side) :
    (x.withOuterOn on value).column s = x.column s := by
  cases s <;> rfl

theorem withOuterOn_withOuter (s : Side) :
    (x.withOuter s value).withOuterOn on value =
      x.withOuterOn (fun s' => s' = s || on s') value := by
  cases s <;> simp [withOuterOn, withOuter]

/-- It does not matter whether a side is named that has the flag already. -/
theorem withOuterOn_congr {on' : Side → Bool} (h : ∀ s, x.outer s ≠ value → on s = on' s) :
    x.withOuterOn on value = x.withOuterOn on' value := by
  have hflag : ∀ s, (if on s then value else x.outer s) = if on' s then value else x.outer s := by
    intro s
    by_cases hs : x.outer s = value
    · rw [hs, ite_self, ite_self]
    · rw [h s hs]
  have hleft := hflag .left
  have hright := hflag .right
  simp only [outer] at hleft hright
  rw [withOuterOn, withOuterOn, hleft, hright]

end LiveSelect.Join

namespace LiveSelect.Query

variable {q q' : Query} {outer : ContainerId → Bool} {e : Edit}

/-- Every join carries on each side the flag of the container that owns the column. -/
def Carries (q : Query) (outer : ContainerId → Bool) : Prop :=
  ∀ j join side c, q.join? j = some join → q.home? (join.column side) = some c →
    join.outer side = outer c

/-- Every container has one flag, which all joins that touch it carry for it. -/
def Uniform (q : Query) : Prop := ∃ outer, q.Carries outer

/-! ## Operations that leave joins as they are -/

/-- The joins of the second query are joins of the first, and on each side they have the same
flag for the same container. -/
def KeepsFlags (q q' : Query) : Prop :=
  ∀ j join', q'.join? j = some join' → ∃ join, q.join? j = some join ∧ ∀ side,
    join'.outer side = join.outer side ∧
      ∀ c, q'.home? (join'.column side) = some c → q.home? (join.column side) = some c

theorem Carries.keep (h : q.Carries outer) (hkeeps : KeepsFlags q q') : q'.Carries outer := by
  intro j join' side c hj hc
  obtain ⟨join, hjoin, hside⟩ := hkeeps j join' hj
  obtain ⟨hflag, hhome⟩ := hside side
  rw [hflag]
  exact h j join side c hjoin (hhome c hc)

namespace KeepsFlags

/-- Joins and items may go, and nothing else is seen. -/
theorem of_sub (hjoin : ∀ j join, q'.join? j = some join → q.join? j = some join)
    (hhome : ∀ i c, q'.home? i = some c → q.home? i = some c) : KeepsFlags q q' := by
  intro j join hj
  exact ⟨join, hjoin j join hj, fun side => ⟨rfl, fun c hc => hhome _ c hc⟩⟩

theorem of_home (hjoins : q'.joins = q.joins) (hhome : ∀ i, q'.home? i = q.home? i) :
    KeepsFlags q q' := by
  refine of_sub ?_ ?_
  · intro j join hj
    rw [join?, hjoins] at hj
    exact hj
  · intro i c hc
    rw [hhome] at hc
    exact hc

theorem of_arenas (hjoins : q'.joins = q.joins) (hitems : q'.items = q.items) :
    KeepsFlags q q' := by
  refine of_home hjoins fun i => ?_
  rw [home?, item?, hitems, home?, item?]

theorem trans {q'' : Query} (h : KeepsFlags q q') (h' : KeepsFlags q' q'') : KeepsFlags q q'' := by
  intro j join'' hj''
  obtain ⟨join', hj', hside'⟩ := h' j join'' hj''
  obtain ⟨join, hj, hside⟩ := h j join' hj'
  refine ⟨join, hj, fun side => ⟨?_, fun c hc => ?_⟩⟩
  · rw [(hside' side).1, (hside side).1]
  · exact (hside side).2 c ((hside' side).2 c hc)

theorem dropJoins (h : q.Indexed) (js : List JoinId) : KeepsFlags q (q.dropJoins js) := by
  refine of_sub (fun j join hj => (h.join?_dropJoins hj).2) ?_
  intro i c hc
  rw [dropJoins_eq] at hc
  exact hc

/-- Columns of joins are known, so the next number is not one of them. -/
theorem putItem (h : q.WellFormed) (hq : q.count < UInt32.size) (c : ContainerId)
    (spec : ItemSpec) (uuid : Uuid) : KeepsFlags q (q.putItem c spec uuid) := by
  intro j join hj
  have hj' : q.join? j = some join := hj
  refine ⟨join, hj', fun side => ⟨rfl, fun k hk => ?_⟩⟩
  have hne : join.column side ≠ q.nextId := by
    intro heq
    obtain ⟨k, hk⟩ := h.indexed.home_of_column hj' side
    rw [heq, home?, h.numbered.item?_nextId hq] at hk
    cases hk
  rw [home?, item?_putItem, if_neg hne] at hk
  exact hk

theorem insertItem (h : q.WellFormed) (hq : q.count < UInt32.size) (c : ContainerId)
    (spec : ItemSpec) (uuid : Uuid) : KeepsFlags q (q.insertItem c spec uuid).2.query := by
  have hput := putItem h hq c spec uuid
  rw [insertItem_query]
  split
  · obtain ⟨selected, sortList, hlists⟩ := (q.putItem c spec uuid).attachItem_lists q.nextId
    rw [hlists]
    exact hput.trans (of_arenas rfl rfl)
  · exact hput

theorem newConstants (h : q.WellFormed) (uuid : Uuid) :
    KeepsFlags q (q.newConstants uuid).2.query := by
  have hdrop := dropJoins h.indexed (q.joinsOf q.constants)
  refine hdrop.trans (of_sub ?_ ?_)
  · intro j join hj
    rw [newConstants_query, withoutConstants, foldl_discardItem] at hj
    exact hj
  · intro i c hc
    rw [newConstants_query, withoutConstants, foldl_discardItem] at hc
    simp only [home?, item?, handOut, IdMap.get?_foldl_erase] at hc
    split at hc
    · cases hc
    · exact hc

theorem removeItem (h : q.WellFormed) {i : ItemId} {x : Item × Edit}
    (hx : q.removeItem i = .ok x) : KeepsFlags q x.2.query := by
  obtain ⟨-, hquery⟩ := removeItem_ok hx
  have hdrop := dropJoins h.indexed (q.usersOf x.1.container i)
  have htake : ∀ q₁ : Query, KeepsFlags q₁ (q₁.takeItem x.1.container i) := by
    intro q₁
    refine of_sub (fun _ _ hj => hj) ?_
    intro k c hc
    rw [home?, item?_takeItem] at hc
    split at hc
    · cases hc
    · exact hc
  rw [hquery]
  split
  · exact (hdrop.trans (of_arenas rfl rfl)).trans (htake _)
  · exact hdrop.trans (htake _)

theorem updateItem {f : Item → Item} (hf : ∀ x, (f x).container = x.container) (i : ItemId) :
    KeepsFlags q (q.updateItem i f) :=
  of_home rfl (home?_updateItem hf i)

theorem changeItem {i : ItemId} {p : ItemProperty} {f : Item → Item}
    (he : q.changeItem i p f = .ok e) (hf : ∀ x, (f x).container = x.container)
    (hfollow : ∀ q : Query, (p.follow q i).joins = q.joins ∧ (p.follow q i).items = q.items) :
    KeepsFlags q e.query := by
  obtain ⟨item, -, ⟨-, heq⟩ | ⟨-, heq⟩⟩ := changeItem_ok he
  · rw [heq]
    exact of_arenas rfl rfl
  · rw [heq]
    split
    · obtain ⟨hjoins, hitems⟩ := hfollow (q.updateItem i f)
      exact (updateItem hf i).trans (of_arenas hjoins hitems)
    · exact updateItem hf i

theorem setGrouping (enabled : Bool) : KeepsFlags q (q.setGrouping enabled).query := by
  have hcount : ∀ (xs : List (ItemId × GroupRole)) (q₁ : Query),
      KeepsFlags q₁ (xs.foldl countItem q₁) := by
    intro xs
    induction xs with
    | nil => exact fun q₁ => of_arenas rfl rfl
    | cons x rest ih =>
      intro q₁
      have hstep : KeepsFlags q₁ (q₁.countItem x) :=
        updateItem (f := fun i => { i with groupRole := .count }) (fun _ => rfl) x.1
      exact hstep.trans (ih (q₁.countItem x))
  rw [setGrouping_query]
  split_ifs
  · exact of_arenas rfl rfl
  · have hstart : KeepsFlags q { q with canExecute := false } := of_arenas rfl rfl
    exact (hstart.trans (hcount _ _)).trans (of_arenas rfl rfl)
  · exact of_arenas rfl rfl

theorem setComparator {j : JoinId} {comparator : String}
    (he : q.setComparator j comparator = .ok e) : KeepsFlags q e.query := by
  obtain ⟨_, -, ⟨-, heq⟩ | ⟨-, heq⟩⟩ := setComparator_ok he
  · rw [heq]
    exact of_arenas rfl rfl
  · rw [heq]
    intro k join' hk
    simp only [join?, updateJoin, IdMap.get?_modify] at hk
    split at hk
    · obtain ⟨join, hjoin, rfl⟩ := Option.map_eq_some_iff.1 hk
      exact ⟨join, hjoin, fun side => by cases side <;> exact ⟨rfl, fun _ hc => hc⟩⟩
    · exact ⟨join', hk, fun side => ⟨rfl, fun _ hc => hc⟩⟩

end KeepsFlags

/-! ## New joins -/

/-- A container that a join touches hands its flag on; one that none touches has none. -/
theorem Carries.inheritedOuter (h : q.Carries outer) (hi : q.Indexed) {c : ContainerId}
    {flag : Option Bool} (hflag : q.inheritedOuter c = .ok flag) :
    (q.joinsOf c = [] ∧ flag = none) ∨ flag = some (outer c) := by
  unfold Query.inheritedOuter at hflag
  split at hflag
  · rename_i hnil
    cases hflag
    exact Or.inl ⟨hnil, rfl⟩
  · rename_i first rest hfirst
    have hmem : first ∈ q.joinsOf c := hfirst ▸ List.mem_cons_self
    obtain ⟨l, r, hends, hc⟩ := hi.mem_joinsOf.1 hmem
    obtain ⟨join, hjoin, hl, hr⟩ := ends?_eq_some.1 hends
    obtain ⟨side, hside⟩ := hi.sideOf_ok hmem
    rw [hside] at hflag
    simp only [bind, Except.bind, hjoin, Option.map_some, pure, Except.pure] at hflag
    cases hflag
    refine Or.inr (congrArg some (h first join side c hjoin ?_))
    -- The side is the one whose column the container owns.
    simp only [sideOf, hends] at hside
    split at hside
    · rename_i heq
      cases hside
      exact heq ▸ hl
    · rename_i hne
      rw [if_pos (hc.resolve_left hne)] at hside
      cases hside
      exact hc.resolve_left hne ▸ hr

theorem outer_inherit (join : Join) (left right : Option Bool) :
    (inherit (inherit join .left left) .right right).outer .left = left.getD join.leftOuter ∧
      (inherit (inherit join .left left) .right right).outer .right =
        right.getD join.rightOuter := by
  cases left <;> cases right <;> exact ⟨rfl, rfl⟩

theorem column_inherit (join : Join) (left right : Option Bool) (side : Side) :
    (inherit (inherit join .left left) .right right).column side = join.column side := by
  cases left <;> cases right <;> cases side <;> rfl

/-- A container gets its flag from the first join that touches it. -/
theorem Uniform.addJoin (h : q.Uniform) (hw : q.WellFormed) {join : Join} {x : JoinId × Edit}
    (hx : q.addJoin join = .ok x) : x.2.query.Uniform := by
  obtain ⟨outer, hcarries⟩ := h
  obtain ⟨l, r, left, right, hl, hr, hne, hleft, hright, -, hquery⟩ := addJoin_ok hx
  let new := inherit (inherit join .left left) .right right
  obtain ⟨hnewleft, hnewright⟩ := outer_inherit join left right
  refine ⟨fun c => if c = l.container then new.outer .left
    else if c = r.container then new.outer .right else outer c, ?_⟩
  rw [hquery]
  intro j join' side c hj hc
  rw [join?_putJoin] at hj
  have hhome : q.home? (join'.column side) = some c := hc
  split at hj
  · -- The new join decides, where no join touched its containers before.
    cases hj
    rw [column_inherit] at hhome
    cases side with
    | left =>
      have hcl : l.container = c := Option.some.inj ((home?_of_item? hl).symm.trans hhome)
      exact (if_pos hcl.symm).symm
    | right =>
      have hcr : r.container = c := Option.some.inj ((home?_of_item? hr).symm.trans hhome)
      have hcl : c ≠ l.container := fun heq => hne (heq.symm.trans hcr.symm)
      exact ((if_neg hcl).trans (if_pos hcr.symm)).symm
  · -- A container that an older join touches hands its flag on to the new one.
    have hold := hcarries j join' side c hj hhome
    have htouched : q.joinsOf c ≠ [] :=
      List.ne_nil_of_mem (hw.indexed.mem_joinsOf_of_uses hhome hj (join'.uses_column side))
    have hkept : ∀ flag, q.inheritedOuter c = .ok flag → flag = some (outer c) :=
      fun flag hflag => (hcarries.inheritedOuter hw.indexed hflag).resolve_left
        fun hnone => htouched hnone.1
    rw [hold]
    beta_reduce
    split
    · rename_i hcl
      have hflag : left = some (outer c) := hkept left (hcl ▸ hleft)
      exact (hnewleft.trans (congrArg (·.getD join.leftOuter) hflag)).symm
    · split
      · rename_i hcr
        have hflag : right = some (outer c) := hkept right (hcr ▸ hright)
        exact (hnewright.trans (congrArg (·.getD join.rightOuter) hflag)).symm
      · rfl

/-! ## Setting the flag -/

theorem column_withOuter (join : Join) (side side' : Side) (value : Bool) :
    (join.withOuter side value).column side' = join.column side' := by
  cases side <;> cases side' <;> rfl

/-- A join is looked up with all the flags set that a list names for it. -/
theorem join?_setFlags (outer : Bool) (xs : List (JoinId × Side)) (q : Query) (k : JoinId) :
    (xs.foldl (·.setFlag outer) q).join? k =
      (q.join? k).map (·.withOuterOn (fun s => (k, s) ∈ xs) outer) := by
  induction xs generalizing q with
  | nil => exact Option.map_id'.symm
  | cons x rest ih =>
    rw [List.foldl_cons, ih]
    simp only [setFlag, updateJoin, join?, IdMap.get?_modify]
    split
    · rename_i hk
      rw [Option.map_map]
      congr 1
      funext y
      simp [Join.withOuterOn_withOuter, List.mem_cons, Prod.ext_iff, hk]
    · rename_i hk
      congr 1
      funext y
      simp [List.mem_cons, Prod.ext_iff, hk]

theorem foldl_setFlag_frame (outer : Bool) (xs : List (JoinId × Side)) (q : Query) :
    xs.foldl (·.setFlag outer) q = { q with joins := (xs.foldl (·.setFlag outer) q).joins } := by
  induction xs generalizing q with
  | nil => rfl
  | cons x rest ih => exact ih (q.setFlag outer x)

theorem mem_mapM {α β ε : Type} {f : α → Except ε β} {xs : List α} {ys : List β}
    (h : xs.mapM f = .ok ys) (y : β) : y ∈ ys ↔ ∃ x ∈ xs, f x = .ok y := by
  induction xs generalizing ys with
  | nil =>
    cases h
    simp
  | cons x rest ih =>
    rw [List.mapM_cons] at h
    obtain ⟨z, hz, h⟩ := QueryDefinition.bind_ok h
    obtain ⟨zs, hzs, h⟩ := QueryDefinition.bind_ok h
    cases h
    rw [List.mem_cons, ih hzs]
    constructor
    · rintro (rfl | ⟨w, hw, heq⟩)
      · exact ⟨x, List.mem_cons_self, hz⟩
      · exact ⟨w, List.mem_cons_of_mem _ hw, heq⟩
    · rintro ⟨w, hw, heq⟩
      rcases List.mem_cons.1 hw with rfl | hw
      · exact Or.inl (Except.ok.inj (heq.symm.trans hz))
      · exact Or.inr ⟨w, hw, heq⟩

theorem fst_mapM_sideOf {c : ContainerId} {js : List JoinId} {sides : List (JoinId × Side)}
    (h : (js.mapM fun j => do return (j, ← q.sideOf j c) :
      Except QueryError (List (JoinId × Side))) = .ok sides) : sides.map Prod.fst = js := by
  induction js generalizing sides with
  | nil =>
    cases h
    rfl
  | cons j rest ih =>
    rw [List.mapM_cons] at h
    obtain ⟨x, hx, h⟩ := QueryDefinition.bind_ok h
    obtain ⟨xs, hxs, h⟩ := QueryDefinition.bind_ok h
    obtain ⟨side, -, hx⟩ := QueryDefinition.bind_ok hx
    cases hx
    cases h
    rw [List.map_cons, ih hxs]

/-- The joins that are changed are those of the container whose flag differs. -/
theorem mem_differingJoins {c : ContainerId} {value : Bool} {changes : List (JoinId × Side)}
    (h : q.differingJoins c value = .ok changes) (j : JoinId) (side : Side) :
    (j, side) ∈ changes ↔
      j ∈ q.joinsOf c ∧ q.sideOf j c = .ok side ∧ (q.join? j).any (·.outer side ≠ value) := by
  unfold differingJoins at h
  obtain ⟨sides, hsides, h⟩ := QueryDefinition.bind_ok h
  cases h
  rw [List.mem_filter, mem_mapM hsides, ← and_assoc]
  refine and_congr_left fun _ => ?_
  constructor
  · rintro ⟨k, hk, heq⟩
    obtain ⟨s, hs, heq⟩ := QueryDefinition.bind_ok heq
    cases heq
    exact ⟨hk, hs⟩
  · rintro ⟨hj, hside⟩
    exact ⟨j, hj, by rw [hside]; rfl⟩

/-- The side of a join that a container holds is the one whose column it owns. -/
theorem Indexed.sideOf_eq_ok_iff (h : q.Indexed) {j : JoinId} {join : Join} {c : ContainerId}
    (hj : q.join? j = some join) (side : Side) :
    q.sideOf j c = .ok side ↔ q.home? (join.column side) = some c := by
  obtain ⟨l, r, hl, hr, hne⟩ := h.home_of_join hj
  have hends : q.ends? j = some (l, r) := ends?_eq_some.2 ⟨join, hj, hl, hr⟩
  unfold sideOf
  rw [hends]
  simp only
  cases side with
  | left =>
    rw [Join.column, hl, Option.some.injEq]
    split_ifs with hlc hrc
    · exact iff_of_true rfl hlc
    · exact iff_of_false (fun heq => by cases heq) hlc
    · exact iff_of_false (fun heq => by cases heq) hlc
  | right =>
    rw [Join.column, hr, Option.some.injEq]
    split_ifs with hlc hrc
    · exact iff_of_false (fun heq => by cases heq) fun hrc => hne (hlc.trans hrc.symm)
    · exact iff_of_true rfl hrc
    · exact iff_of_false (fun heq => by cases heq) hrc

/-- The joins afterwards have the flag on every side that the container holds, and are else as
they were. -/
theorem Indexed.join?_changed (h : q.Indexed) {c : ContainerId} {value : Bool}
    {changes : List (JoinId × Side)} (hd : q.differingJoins c value = .ok changes) (k : JoinId) :
    (changes.foldl (·.setFlag value) q).join? k =
      (q.join? k).map fun x => x.withOuterOn (fun s => q.home? (x.column s) = some c) value := by
  rw [join?_setFlags]
  cases hk : q.join? k with
  | none => rfl
  | some x =>
    refine congrArg some (x.withOuterOn_congr _ _ fun s hs => ?_)
    rw [decide_eq_decide, mem_differingJoins hd, h.sideOf_eq_ok_iff hk, hk, Option.any_some]
    exact ⟨fun hall => hall.2.1, fun hc =>
      ⟨h.mem_joinsOf_of_uses hc hk (x.uses_column s), hc, decide_eq_true hs⟩⟩

/-- Setting the flag on one join sets the flag of the container. -/
theorem Uniform.setOuter (h : q.Uniform) (hw : q.WellFormed) {j : JoinId} {side : Side}
    {value : Bool} (he : q.setOuter j side value = .ok e) : e.query.Uniform := by
  obtain ⟨outer, hcarries⟩ := h
  obtain ⟨join, item, changes, hjoin, hitem, hchanges, heq⟩ := setOuter_ok he
  refine ⟨fun c => if c = item.container then value else outer c, ?_⟩
  rw [heq]
  intro k join' s c hk hc
  rw [hw.indexed.join?_changed hchanges, Option.map_eq_some_iff] at hk
  obtain ⟨old, hold, rfl⟩ := hk
  rw [foldl_setFlag_frame, Join.column_withOuterOn] at hc
  have hhome : q.home? (old.column s) = some c := hc
  rw [Join.outer_withOuterOn, hhome, hcarries k old s c hold hhome]
  simp only [Option.some.injEq, decide_eq_true_eq]

/-! ## Operations and copies -/

/-- An operation that goes through leaves a query whose joins agree. -/
theorem Uniform.perform (h : q.Uniform) (hw : q.WellFormed) (hq : q.count < UInt32.size)
    {op : Operation} {reply : Reply} (hp : q.perform op = .ok (reply, e)) : e.query.Uniform := by
  have hkeep : KeepsFlags q e.query → e.query.Uniform := by
    intro hkeeps
    obtain ⟨outer, hcarries⟩ := h
    exact ⟨outer, hcarries.keep hkeeps⟩
  cases op with
  | addJoin join =>
    obtain ⟨x, hx, -, rfl⟩ := Outcome.map_ok hp
    exact h.addJoin hw hx
  | setOuter j side value => exact h.setOuter hw (Outcome.ofEdit_ok hp).2
  | removeJoin j =>
    obtain ⟨x, hx, -, rfl⟩ := Outcome.map_ok hp
    rw [(removeJoin_ok hx).2] at hkeep ⊢
    exact hkeep (.dropJoins hw.indexed [j])
  | setComparator j value => exact hkeep (.setComparator (Outcome.ofEdit_ok hp).2)
  | addTable c =>
    obtain ⟨-, -, -, heq⟩ := addTable_ok (Outcome.ofEdit_ok hp).2
    obtain ⟨s, t, hlists⟩ :=
      foldl_attachItem_lists (q.itemsOf c) { q with tables := q.tables ++ [c] }
    rw [heq, hlists] at hkeep ⊢
    exact hkeep (.of_arenas rfl rfl)
  | removeTable c =>
    obtain ⟨-, -, heq⟩ := removeTable_ok (Outcome.ofEdit_ok hp).2
    -- The table goes first; its joins go after it, and its items stay known.
    have htables : KeepsFlags q { q with tables := q.tables.erase c } := .of_arenas rfl rfl
    have hindexed : Indexed { q with tables := q.tables.erase c } :=
      hw.indexed.of_home rfl rfl fun _ _ _ => ⟨rfl, rfl⟩
    rw [heq, foldl_unlistItem] at hkeep ⊢
    exact hkeep ((htables.trans (.dropJoins hindexed _)).trans (.of_arenas rfl rfl))
  | newConstants uuid =>
    cases hp
    exact hkeep (.newConstants hw uuid)
  | addItem c spec uuid =>
    obtain ⟨x, hx, -, rfl⟩ := Outcome.map_ok hp
    obtain ⟨-, rfl⟩ := addItem_ok hx
    exact hkeep (.insertItem hw hq c spec uuid)
  | removeItem i =>
    obtain ⟨x, hx, -, rfl⟩ := Outcome.map_ok hp
    exact hkeep (.removeItem hw hx)
  | setSelected i value =>
    refine hkeep (.changeItem (Outcome.ofEdit_ok hp).2 (fun _ => rfl) fun q => ?_)
    simp only [ItemProperty.selected, syncSelection]
    split_ifs <;> exact ⟨rfl, rfl⟩
  | setSortOrder i value | setGroupRole i value | setItemAlias i value | setFilter i value
  | setHaving i value | setItemName i value =>
    exact hkeep (.changeItem (Outcome.ofEdit_ok hp).2 (fun _ => rfl) fun _ => ⟨rfl, rfl⟩)
  | setGrouping value =>
    cases hp
    exact hkeep (.setGrouping value)
  | setContainerAlias c a =>
    rw [(setContainerAlias_ok (Outcome.ofEdit_ok hp).2).2] at hkeep ⊢
    exact hkeep (.of_arenas rfl rfl)
  | moveItem i index =>
    obtain ⟨-, -, heq⟩ := moveItem_ok (Outcome.ofEdit_ok hp).2
    rw [heq] at hkeep ⊢
    exact hkeep (.of_arenas rfl rfl)
  | moveSortedItemToEnd i =>
    obtain ⟨-, heq⟩ := moveSortedItemToEnd_ok (Outcome.ofEdit_ok hp).2
    rw [heq] at hkeep ⊢
    exact hkeep (.of_arenas rfl rfl)
  | newTable identity uuid =>
    cases hp
    exact hkeep (.of_arenas rfl rfl)
  | setName value | setZoomLevel value | setStreamingRowLimit value | setStreaming value
  | setDialect value | setRowLimit value =>
    cases hp
    exact hkeep (.of_arenas rfl rfl)
  | setGlobalFilter value =>
    cases hp
    rw [setGlobalFilter_query] at hkeep ⊢
    exact hkeep (.of_arenas rfl rfl)
  | defineHandWritten text =>
    cases hp
    rw [defineHandWritten_query] at hkeep ⊢
    exact hkeep (.of_arenas rfl rfl)
  | removeHandWritten =>
    cases hp
    rw [removeHandWritten_query] at hkeep ⊢
    exact hkeep (.of_arenas rfl rfl)
  | setCanExecute value | startCompound | endCompound =>
    cases hp
    refine hkeep (.of_arenas ?_ ?_) <;> exact (Edit.query_setCanExecute _ _).symm ▸ rfl

/-- A container of a copy has the flag of the container that it stands for. -/
theorem Uniform.copy (h : q.Uniform) (hw : q.WellFormed) (hq : q.count < UInt32.size) (uuid : Uuid)
    (mint : Minting) : (q.copy uuid mint).Uniform := by
  classical
  obtain ⟨outer, hcarries⟩ := h
  have htwin := twin_copy hw hq uuid mint
  refine ⟨fun c' => if hc : ∃ c, q.renumbering.Pairs c c' then outer hc.choose else false, ?_⟩
  intro j' join' side c' hj' hc'
  obtain ⟨j, hj⟩ := paired_of_knows_copy hw hq uuid mint (e := .join) (IdMap.contains_of_get? hj')
  rcases rel_cases (htwin.join? hj) with ⟨-, hnone⟩ | ⟨join, y, hjoin, hy, hmatch⟩
  · rw [hj'] at hnone
    cases hnone
  · rw [hj', Option.some.injEq] at hy
    subst hy
    rcases rel_cases (htwin.home? (hmatch.column side)) with ⟨-, hnone⟩ | ⟨c, k, hc, hk, hpair⟩
    · rw [hc'] at hnone
      cases hnone
    · rw [hc', Option.some.injEq] at hk
      subst hk
      have hstands : ∃ c, q.renumbering.Pairs c c' := ⟨c, hpair⟩
      have hsame : hstands.choose = c := (htwin.oneToOne _).1 hstands.choose_spec hpair
      beta_reduce
      rw [dif_pos hstands, hsame, ← hmatch.outer]
      exact hcarries j join side c hjoin hc

theorem Reachable.uniform (h : q.Reachable) : q.Uniform := by
  have hall : q.Uniform ∧ q.WellFormed ∧ q.count < UInt32.size := by
    refine h.induction (P := fun q => q.Uniform ∧ q.WellFormed ∧ q.count < UInt32.size) ?_ ?_ ?_
    · intro uuid mint
      refine ⟨⟨fun _ => false, ?_⟩, .bare uuid mint, show 1 < UInt32.size by decide⟩
      intro j join side c hj _
      cases hj
    · rintro q op ⟨hu, hw, hq⟩ hcount
      refine ⟨?_, hw.after hq op, hcount⟩
      cases hp : q.perform op with
      | error err => rwa [after_error hp]
      | ok x =>
        rw [after_ok hp]
        exact hu.perform hw hq hp
    · rintro q uuid mint ⟨hu, hw, hq⟩
      exact ⟨hu.copy hw hq uuid mint, hw.copy hq uuid mint,
        Nat.lt_of_le_of_lt (count_copy_le hw uuid mint) hq⟩
  exact hall.1

/-! ## All joins of a container agree -/

/-- In a reachable query all joins that touch a container carry the same flag on its side,
which is the left side where the container owns the left column and else the right one. -/
theorem Reachable.joins_agree_on_outer (h : q.Reachable) (c : ContainerId) :
    ∃ outer : Bool, ∀ j ∈ q.joinsOf c, ∃ join, q.join? j = some join ∧
      ((q.home? join.left = some c ∧ q.home? join.right ≠ some c ∧ join.leftOuter = outer) ∨
        (q.home? join.right = some c ∧ q.home? join.left ≠ some c ∧ join.rightOuter = outer)) := by
  obtain ⟨outer, hcarries⟩ := h.uniform
  have hindexed := h.wellFormed.indexed
  refine ⟨outer c, fun j hj => ?_⟩
  obtain ⟨join, hjoin, hc⟩ := hindexed.mem_joinsOf_iff.1 hj
  obtain ⟨l, r, hl, hr, hne⟩ := hindexed.home_of_join hjoin
  refine ⟨join, hjoin, ?_⟩
  rcases hc with hc | hc
  · have hother : q.home? join.right ≠ some c := by
      rw [hl] at hc
      rw [hr, ← hc]
      exact fun heq => hne (Option.some.inj heq).symm
    exact Or.inl ⟨hc, hother, hcarries j join .left c hjoin hc⟩
  · have hother : q.home? join.left ≠ some c := by
      rw [hr] at hc
      rw [hl, ← hc]
      exact fun heq => hne (Option.some.inj heq)
    exact Or.inr ⟨hc, hother, hcarries j join .right c hjoin hc⟩

/-- Two tables joined both ways. The second join is made with flags of its own, which give way
to those of the first, and then the flag of one table is set on the first join. -/
def twiceJoined : Query :=
  [ .addJoin { left := .ofCount 7, right := .ofCount 6, leftOuter := true, rightOuter := true },
    .setOuter (.ofCount 8) .left true ].foldl after joinedTables

theorem twiceJoined_reachable : twiceJoined.Reachable :=
  joinedTables_reachable.foldl_after _ (by decide +kernel)

/-- Both joins of the first table carry its flag, each on another side. -/
theorem twiceJoined_joins_agree :
    twiceJoined.Reachable ∧ twiceJoined.joinsOf (.ofCount 4) = [.ofCount 8, .ofCount 9] ∧
      ∃ outer : Bool, ∀ j ∈ [.ofCount 8, .ofCount 9], ∃ join, twiceJoined.join? j = some join ∧
        ((twiceJoined.home? join.left = some (.ofCount 4) ∧
            twiceJoined.home? join.right ≠ some (.ofCount 4) ∧ join.leftOuter = outer) ∨
          (twiceJoined.home? join.right = some (.ofCount 4) ∧
            twiceJoined.home? join.left ≠ some (.ofCount 4) ∧ join.rightOuter = outer)) := by
  have hjoins : twiceJoined.joinsOf (.ofCount 4) = [.ofCount 8, .ofCount 9] := by decide +kernel
  refine ⟨twiceJoined_reachable, hjoins, ?_⟩
  rw [← hjoins]
  exact twiceJoined_reachable.joins_agree_on_outer (.ofCount 4)

end LiveSelect.Query
