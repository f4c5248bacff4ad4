import LiveSelect.Query.Indexing
import LiveSelect.Proofs.Refusals

/-! # No access breaks off

Where the parts of a query agree, an operation that indexes an arena always finds something: a
table of the statement is a known container, a container lists known items only, and the index
names known joins. So the operations written with their accesses come to the same as those that
look everything up. -/

namespace LiveSelect

namespace Query

variable {q : Query} {e : Entity} {α β : Type}

theorem itemAt_of_item? {i : ItemId} {item : Item} (h : q.item? i = some item) :
    q.itemAt i = .ok item := by
  rw [itemAt, h]

theorem containerAt_of_container? {c : ContainerId} {k : Container}
    (h : q.container? c = some k) : q.containerAt c = .ok k := by
  rw [containerAt, h]

theorem joinAt_of_join? {j : JoinId} {join : Join} (h : q.join? j = some join) :
    q.joinAt j = .ok join := by
  rw [joinAt, h]

/-- At a known container the access yields its items. -/
theorem containerAt_of_contains {c : ContainerId} (h : q.containers.contains c) :
    ∃ k, q.containerAt c = .ok k ∧ k.items = q.itemsOf c := by
  obtain ⟨k, hk⟩ := (q.containers.contains_iff c).1 h
  refine ⟨k, containerAt_of_container? hk, ?_⟩
  rw [itemsOf, container?, hk, Option.map_some, Option.getD_some]

end Query

namespace Guarded

variable {q : Query} {α β : Type} {f : α → Guarded β}

/-! ## Running steps -/

theorem run_access_bind {x : Indexing α} {a : α} (h : x = .ok a) :
    ((liftM x : Guarded α) >>= f).run = (f a).run := by
  rw [h]
  rfl

theorem run_bind_ok {m : Guarded α} {a : α} (h : m.run = .ok (.ok a)) :
    (m >>= f).run = (f a).run := by
  rw [ExceptT.run_bind, h]
  rfl

theorem run_bind_error {m : Guarded α} {err : QueryError} (h : m.run = .ok (.error err)) :
    (m >>= f).run = .ok (.error err) := by
  rw [ExceptT.run_bind, h]
  rfl

/-! ## Tables and items -/

theorem addTable_run (q : Query) (c : ContainerId) : (addTable q c).run = .ok (q.addTable c) := by
  unfold addTable Query.addTable
  by_cases hknown : q.containers.contains c
  · obtain ⟨k, hk, hitems⟩ := q.containerAt_of_contains hknown
    by_cases hconst : c = q.constants
    · simp only [hknown, if_pos hconst]
      rfl
    · by_cases htable : q.tables.contains c
      · simp only [hknown, if_neg hconst, htable]
        rfl
      · simp only [hknown, if_neg hconst, htable, ← hitems]
        exact run_access_bind hk
  · simp only [hknown]
    rfl

theorem removeTable_run (h : q.Owned) (c : ContainerId) :
    (removeTable q c).run = .ok (q.removeTable c) := by
  unfold removeTable Query.removeTable
  by_cases hconst : c = q.constants
  · simp only [if_pos hconst]
    rfl
  · by_cases htable : q.tables.contains c
    · obtain ⟨k, hk, hitems⟩ :=
        q.containerAt_of_contains (h.knows_tables c (List.contains_iff_mem.1 htable))
      -- The joins are gone by now, but the containers are those that were there before.
      let e := (Edit.start { q with tables := q.tables.erase c }).each (q.joinsOf c) Edit.dropJoin
      have hk' : e.query.containerAt c = .ok k := by
        obtain ⟨joins, incidence, hquery⟩ := Edit.query_each_dropJoin
          (.start { q with tables := q.tables.erase c }) (q.joinsOf c)
        rw [show e.query = _ from hquery]
        exact hk
      simp only [if_neg hconst, htable, ← hitems]
      exact run_access_bind hk'
    · simp only [if_neg hconst, htable]
      rfl

theorem removeItem_run (q : Query) (i : ItemId) :
    (removeItem q i).run = .ok (q.removeItem i) := by
  unfold removeItem
  cases hitem : q.item? i with
  | none =>
    rw [Query.removeItem, hitem]
    rfl
  | some item => exact run_access_bind (Query.itemAt_of_item? hitem)

/-! ## Joins -/

theorem differingJoins_run (c : ContainerId) (outer : Bool) {js : List JoinId}
    (h : ∀ j ∈ js, q.joins.contains j) :
    (differingJoins q c outer js).run = .ok ((q.sidesOf c js).map (q.differing outer)) := by
  induction js with
  | nil => rfl
  | cons j rest ih =>
    obtain ⟨join, hjoin⟩ := (q.joins.contains_iff j).1 (h j List.mem_cons_self)
    have hrest := ih fun k hk => h k (List.mem_cons_of_mem _ hk)
    rw [Query.sidesOf_cons, differingJoins]
    cases hside : q.sideOf j c with
    | error err => rfl
    | ok side =>
      rw [run_bind_ok (m := ofExcept (.ok side)) rfl,
        run_access_bind (Query.joinAt_of_join? hjoin)]
      cases hsides : q.sidesOf c rest with
      | error err =>
        rw [hsides] at hrest
        exact run_bind_error hrest
      | ok sides =>
        rw [hsides] at hrest
        rw [run_bind_ok hrest]
        have hdiffers : (q.join? j).any (·.outer side ≠ outer) = decide (join.outer side ≠ outer) := by
          rw [Query.join?, hjoin, Option.any_some]
        simp only [Except.map, Except.bind, Query.differing, List.filter_cons, hdiffers]
        split <;> simp_all <;> rfl

theorem setOuter_run (h : q.Indexed) (j : JoinId) (side : Side) (outer : Bool) :
    (setOuter q j side outer).run = .ok (q.setOuter j side outer) := by
  unfold setOuter Query.setOuter
  cases hjoin : q.join? j with
  | none => rfl
  | some join =>
    cases hitem : q.item? (join.column side) with
    | none => simp only [hitem]; rfl
    | some item =>
      have hlisted : ∀ k ∈ q.joinsOf item.container, q.joins.contains k := by
        intro k hk
        obtain ⟨join', hjoin', -⟩ := h.mem_joinsOf_iff.1 hk
        exact IdMap.contains_of_get? hjoin'
      have hrun := differingJoins_run item.container outer hlisted
      rw [← Query.differingJoins_eq] at hrun
      simp only [hitem]
      cases hchanges : q.differingJoins item.container outer with
      | error err =>
        rw [hchanges] at hrun
        exact run_bind_error hrun
      | ok changes =>
        rw [hchanges] at hrun
        exact run_bind_ok hrun

end Guarded

/-! ## Copies -/

namespace Indexing

variable {q : Query} {e : Entity} {α β γ : Type}

/-- When an access finds what a map holds, a loop of accesses finds the values of the map. -/
theorem mapM_access {m : IdMap e α} {access : Id e → Indexing α}
    (haccess : ∀ k a, m.get? k = some a → access k = .ok a) {ι : Type} (key : ι → Id e)
    (g : ι → α → γ) {xs : List ι} (h : ∀ x ∈ xs, m.contains (key x)) :
    xs.mapM (fun x => do return g x (← access (key x)) : ι → Indexing γ) =
      .ok (xs.filterMap fun x => (m.get? (key x)).map (g x)) := by
  induction xs with
  | nil => rfl
  | cons x rest ih =>
    obtain ⟨a, ha⟩ := (m.contains_iff _).1 (h x List.mem_cons_self)
    have hrest := ih fun y hy => h y (List.mem_cons_of_mem _ hy)
    rw [List.mapM_cons, hrest, haccess _ a ha, List.filterMap_cons, ha]
    rfl

theorem carry_eq {m : IdMap e α} {access : Id e → Indexing α}
    (haccess : ∀ k a, m.get? k = some a → access k = .ok a) {pairs : List (Id e × Id e)}
    (h : ∀ x ∈ pairs, m.contains x.1) (f : Id e → α → Option β) :
    carry access pairs f = .ok (Query.carry m pairs f) := by
  have hcarried : ∀ x : Id e × Id e,
      ((m.get? x.1).map fun a => (x.2, a)).bind (fun y => (f y.1 y.2).map (y.1, ·)) =
        Query.carried m f x := by
    intro x
    rw [Query.carried, Option.bind_map]
    rfl
  unfold carry
  rw [mapM_access haccess Prod.fst (fun x a => (x.2, a)) h, Query.carry_eq]
  simp only [← funext hcarried, ← List.filterMap_filterMap]
  rfl

theorem flatten_items (q : Query) (cs : List ContainerId) :
    (cs.filterMap fun c => (q.containers.get? c).map Container.items).flatten =
      cs.flatMap q.itemsOf := by
  induction cs with
  | nil => rfl
  | cons c rest ih =>
    rw [List.filterMap_cons, List.flatMap_cons, Query.itemsOf, Query.container?]
    cases q.containers.get? c with
    | none => exact ih
    | some k => exact congrArg (k.items ++ ·) ih

theorem filter_joins (q : Query) (p : Join → Bool) (js : List JoinId) :
    ((js.filterMap fun j => (q.joins.get? j).map fun join => (j, join)).filter
      fun x => p x.2).map Prod.fst = js.filter fun j => (q.join? j).any p := by
  induction js with
  | nil => rfl
  | cons j rest ih =>
    rw [List.filterMap_cons, List.filter_cons, ← ih, Query.join?]
    cases q.joins.get? j with
    | none => rfl
    | some join =>
      simp only [Option.map_some, Option.any_some, List.filter_cons]
      split <;> rfl

theorem renumbering_eq (h : q.Owned) : renumbering q = .ok q.renumbering := by
  have howned : (q.copyOrder.mapM fun c => do return (← q.containerAt c).items : Indexing _) =
      .ok (q.copyOrder.filterMap fun c => (q.containers.get? c).map Container.items) :=
    mapM_access (fun _ _ => Query.containerAt_of_container?) id (fun _ k => k.items)
      fun c hc => (Query.mem_copyOrder h).1 hc
  have hfound : (q.allJoins.mapM fun j => do return (j, ← q.joinAt j) : Indexing _) =
      .ok (q.allJoins.filterMap fun j => (q.joins.get? j).map fun join => (j, join)) :=
    mapM_access (fun _ _ => Query.joinAt_of_join?) id (fun j join => (j, join))
      fun j hj => (IdMap.mem_keys_iff q.joins j).1 hj
  let items := numberFrom (numberFrom 0 q.copyOrder).length (q.copyOrder.flatMap q.itemsOf)
  have hkept := filter_joins q
    (fun join => (items.lookup join.left).isSome && (items.lookup join.right).isSome) q.allJoins
  unfold renumbering
  rw [QueryDefinition.bind_of_ok howned, QueryDefinition.bind_of_ok hfound, flatten_items]
  exact congrArg (fun kept => Except.ok (Renumbering.mk _ items (numberFrom _ kept))) hkept

theorem mem_of_mem_numberFrom {first : Nat} {olds : List (Id e)} {x : Id e × Id e}
    (hx : x ∈ numberFrom first olds) : x.1 ∈ olds := by
  have hmem := List.mem_map_of_mem (f := Prod.fst) hx
  rwa [fst_numberFrom] at hmem

/-- Where items and containers agree on who owns whom, no access of a copy breaks off. -/
theorem copy_of_owned (h : q.Owned) (uuid : Uuid) (mint : Minting) :
    copy q uuid mint = .ok (q.copyWithRenumbering uuid mint) := by
  -- What is paired with a new number is known under its old one.
  have hcontainers : ∀ x ∈ q.renumbering.containers, q.containers.contains x.1 :=
    fun x hx => (Query.mem_copyOrder h).1 (mem_of_mem_numberFrom hx)
  have hitems : ∀ x ∈ q.renumbering.items, q.items.contains x.1 :=
    fun x hx => (Query.mem_copiedItems h).1 (mem_of_mem_numberFrom hx)
  have hjoins : ∀ x ∈ q.renumbering.joins, q.joins.contains x.1 :=
    fun x hx => (IdMap.mem_keys_iff _ _).1 (List.mem_of_mem_filter (mem_of_mem_numberFrom hx))
  unfold copy
  rw [QueryDefinition.bind_of_ok (renumbering_eq h),
    QueryDefinition.bind_of_ok (carry_eq (fun _ _ => Query.containerAt_of_container?) hcontainers _),
    QueryDefinition.bind_of_ok (carry_eq (fun _ _ => Query.itemAt_of_item?) hitems _),
    QueryDefinition.bind_of_ok (carry_eq (fun _ _ => Query.joinAt_of_join?) hjoins _)]
  rfl

/-- No access of a copy breaks off. -/
theorem copy_eq (h : q.WellFormed) (uuid : Uuid) (mint : Minting) :
    copy q uuid mint = .ok (q.copyWithRenumbering uuid mint) :=
  copy_of_owned h.owned uuid mint

/-- Without a container of constants a copy breaks off at once. -/
theorem copy_of_missing (h : q.container? q.constants = none) (uuid : Uuid) (mint : Minting) :
    copy q uuid mint = .error (.container q.constants) := by
  have haccess : q.containerAt q.constants = .error (.container q.constants) := by
    rw [Query.containerAt, h]
  unfold copy renumbering Query.copyOrder
  rw [List.mapM_cons, haccess]
  rfl

end Indexing

end LiveSelect
