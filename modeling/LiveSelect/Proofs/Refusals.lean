import LiveSelect.Query.Procedure
import LiveSelect.Proofs.Consistency

/-! # Refused operations

Carried out step by step, an operation comes to the same as when it is performed as a whole.
The point is in the refusals: performed as a whole, a refused operation yields no edit, while
its steps leave an edit behind. That edit is the one from which the steps started, because
every step that can still refuse comes before all that change or announce something, or else
looks for what an earlier step has found already. -/

namespace LiveSelect

namespace Edit

/-- Dropping joins leaves the items and the tables of a query alone. -/
theorem query_each_dropJoin (e : Edit) (js : List JoinId) :
    ∃ joins incidence, (e.each js dropJoin).query = { e.query with joins, incidence } := by
  refine ⟨(e.query.dropJoins js).joins, (e.query.dropJoins js).incidence, ?_⟩
  rw [query_each _ query_dropJoin]
  exact Query.dropJoins_eq e.query js

theorem itemsOf_each_dropJoin (e : Edit) (js : List JoinId) (c : ContainerId) :
    (e.each js dropJoin).query.itemsOf c = e.query.itemsOf c := by
  obtain ⟨joins, incidence, hquery⟩ := query_each_dropJoin e js
  rw [hquery]
  rfl

theorem isAttached_each_dropJoin (e : Edit) (js : List JoinId) (c : ContainerId) :
    (e.each js dropJoin).query.isAttached c = e.query.isAttached c := by
  obtain ⟨joins, incidence, hquery⟩ := query_each_dropJoin e js
  rw [hquery]
  rfl

theorem item?_each_dropJoin (e : Edit) (js : List JoinId) (i : ItemId) :
    (e.each js dropJoin).query.item? i = e.query.item? i := by
  obtain ⟨joins, incidence, hquery⟩ := query_each_dropJoin e js
  rw [hquery]
  rfl

theorem ite_update (e : Edit) (condition : Bool) (f : Query → Query) :
    (if condition then e.update f else e) = e.update fun q => if condition then f q else q := by
  cases condition <;> rfl

end Edit

namespace Query

variable {q : Query}

theorem updateItem_eq_self {i : ItemId} {item : Item} {f : Item → Item}
    (hitem : q.item? i = some item) (hf : f item = item) : q.updateItem i f = q := by
  unfold updateItem
  rw [IdMap.modify_eq_self]
  intro x hx
  have hx' : x = item := Option.some.inj (hx.symm.trans hitem)
  rw [hx', hf]

/-- Between known items a join may be refused for three reasons. -/
theorem addJoin_of_items {join : Join} {left right : Item} (hleft : q.item? join.left = some left)
    (hright : q.item? join.right = some right) :
    q.addJoin join =
      if left.container = right.container then .error (.selfJoin join.left join.right)
      else (q.inheritedOuter left.container).bind fun leftOuter =>
        (q.inheritedOuter right.container).bind fun rightOuter =>
          .ok (q.nextId, (Edit.start (q.putJoin left.container right.container
            (inherit (inherit join .left leftOuter) .right rightOuter))).announce
              (.joinAdded q.nextId)) := by
  unfold addJoin
  rw [hleft, hright]
  by_cases hsame : left.container = right.container
  · simp only [if_pos hsame]
    rfl
  · simp only [if_neg hsame]
    rfl

/-- The sides that a container holds in some joins. -/
def sidesOf (q : Query) (c : ContainerId) (js : List JoinId) :
    Except QueryError (List (JoinId × Side)) :=
  js.mapM fun j => do return (j, ← q.sideOf j c)

/-- Those sides on which the flag differs from `outer`. -/
def differing (q : Query) (outer : Bool) (sides : List (JoinId × Side)) : List (JoinId × Side) :=
  sides.filter fun x => (q.join? x.1).any (·.outer x.2 ≠ outer)

theorem differingJoins_eq (q : Query) (c : ContainerId) (outer : Bool) :
    q.differingJoins c outer = (q.sidesOf c (q.joinsOf c)).map (q.differing outer) := by
  unfold differingJoins sidesOf
  cases ((q.joinsOf c).mapM fun j => do return (j, ← q.sideOf j c) :
    Except QueryError (List (JoinId × Side))) <;> rfl

theorem sidesOf_cons (q : Query) (c : ContainerId) (j : JoinId) (rest : List JoinId) :
    q.sidesOf c (j :: rest) =
      (q.sideOf j c).bind fun side => (q.sidesOf c rest).map ((j, side) :: ·) := by
  unfold sidesOf
  rw [List.mapM_cons]
  cases q.sideOf j c with
  | error err => rfl
  | ok side =>
    cases (rest.mapM fun j => do return (j, ← q.sideOf j c) :
      Except QueryError (List (JoinId × Side))) <;> rfl

end Query

namespace Procedure

variable {α β : Type} {e : Edit} {err : QueryError}

/-! ## Running steps -/

/-- Steps after others run on what the others leave, unless these came to a refusal. -/
theorem runOn_bind (m : Procedure α) (k : α → Procedure β) :
    (m >>= k).runOn e =
      match m.runOn e with
      | (.ok a, e') => (k a).runOn e'
      | (.error err, e') => (.error err, e') := by
  unfold runOn
  simp only [bind, ExceptT.bind, ExceptT.run, ExceptT.mk, StateT.bind, StateT.run]
  rcases m e with ⟨result, e'⟩
  cases result <;> rfl

theorem runOn_pure (a : α) : (pure a : Procedure α).runOn e = (.ok a, e) := rfl

theorem runOn_ask_bind (f : Query → α) (k : α → Procedure β) :
    (ask f >>= k).runOn e = (k (f e.query)).runOn e := rfl

theorem runOn_act (f : Edit → Edit) : (act f).runOn e = (.ok (), f e) := rfl

theorem runOn_act_bind (f : Edit → Edit) (k : Unit → Procedure β) :
    (act f >>= k).runOn e = (k ()).runOn (f e) := rfl

theorem runOn_each (xs : List α) (step : Edit → α → Edit) :
    (each xs step).runOn e = (.ok (), e.each xs step) := by
  induction xs generalizing e with
  | nil => rfl
  | cons x rest ih => exact ih

theorem runOn_each_bind (xs : List α) (step : Edit → α → Edit) (k : Unit → Procedure β) :
    (each xs step >>= k).runOn e = (k ()).runOn (e.each xs step) := by
  rw [runOn_bind, runOn_each]

/-! ## What steps come to -/

/-- The steps come to a result and an edit, or to a refusal that finds the query as it was. -/
def Settles (m : Procedure α) (q : Query) (r : Except QueryError (α × Edit)) : Prop :=
  m.runOn (.start q) =
    match r with
    | .ok (a, e) => (.ok a, e)
    | .error err => (.error err, .start q)

namespace Settles

variable {m : Procedure α} {k : α → Procedure β} {q : Query} {r : Except QueryError (β × Edit)}
variable {a : α}

theorem of_ok (h : m.runOn (.start q) = (.ok a, e)) : m.Settles q (.ok (a, e)) := h

theorem bind_error (h : m.Settles q (.error err)) : (m >>= k).Settles q (.error err) := by
  unfold Settles at *
  rw [runOn_bind, h]

/-- Steps that have done nothing so far may be followed by any. -/
theorem bind_ok (h : m.Settles q (.ok (a, .start q))) (hk : (k a).Settles q r) :
    (m >>= k).Settles q r := by
  unfold Settles at *
  rw [runOn_bind, h]
  exact hk

theorem ask {f : Query → α} (h : (k (f q)).Settles q r) : (ask f >>= k).Settles q r := h

/-- A condition on which an operation is refused. -/
theorem guard {condition : Bool} {p : Prop} [Decidable p] {k : Unit → Procedure β}
    (h : condition = true ↔ p) (hk : (k ()).Settles q r) :
    (refuseIf condition err >>= k).Settles q (if p then .error err else r) := by
  cases condition with
  | true =>
    rw [if_pos (h.1 rfl)]
    exact bind_error rfl
  | false =>
    rw [if_neg fun hp => Bool.noConfusion (h.2 hp)]
    exact bind_ok rfl hk

theorem missing {f : Query → Option α} (h : f q = none) :
    (lookUp f err >>= k).Settles q (.error err) := by
  refine bind_error ?_
  unfold Settles lookUp
  rw [runOn_ask_bind, Edit.query_start, h]
  rfl

theorem found {f : Query → Option α} (h : f q = some a) (hk : (k a).Settles q r) :
    (lookUp f err >>= k).Settles q r := by
  refine bind_ok ?_ hk
  unfold Settles lookUp
  rw [runOn_ask_bind, Edit.query_start, h]
  rfl

theorem container {c : ContainerId} {k : Container → Procedure β}
    (hk : ∀ x, (k x).Settles q r) :
    (knownContainer c >>= k).Settles q
      (if !q.containers.contains c then .error (.unknownContainer c) else r) := by
  cases hfound : q.container? c with
  | none =>
    have hunknown : ¬ q.containers.contains c := by
      rw [IdMap.contains_iff]
      rintro ⟨x, hx⟩
      rw [Query.container?, hx] at hfound
      cases hfound
    rw [if_pos (by simp [hunknown])]
    exact missing hfound
  | some x =>
    rw [if_neg (by simp [IdMap.contains_of_get? hfound])]
    exact found hfound (hk x)

theorem examined_error {f : Query → Except QueryError α} (h : f q = .error err) :
    (examine f >>= k).Settles q (.error err) := by
  refine bind_error ?_
  unfold Settles examine
  rw [runOn_ask_bind, Edit.query_start, h]
  rfl

theorem examined_ok {f : Query → Except QueryError α} (h : f q = .ok a)
    (hk : (k a).Settles q r) : (examine f >>= k).Settles q r := by
  refine bind_ok ?_ hk
  unfold Settles examine
  rw [runOn_ask_bind, Edit.query_start, h]
  rfl

theorem map_ite_error {p : Prop} [Decidable p] (f : α → β) (r : Except QueryError α) :
    (if p then .error err else r).map f = if p then .error err else r.map f := by
  split <;> rfl

theorem map {r : Except QueryError (α × Edit)} (h : m.Settles q r) (f : α → β) :
    (m >>= fun a => pure (f a)).Settles q (r.map fun x => (f x.1, x.2)) := by
  unfold Settles at *
  rw [runOn_bind, h]
  rcases r with err | ⟨a, e⟩ <;> rfl

/-- Steps of an operation that returns nothing. -/
theorem done {m : Procedure Unit} {r : Except QueryError Edit}
    (h : m.Settles q (r.map fun e => ((), e))) :
    (m >>= fun _ => pure Reply.done).Settles q (Outcome.ofEdit r) := by
  have hmap := h.map fun _ => Reply.done
  cases r <;> exact hmap

end Settles

variable (q : Query)

/-! ## Tables -/

theorem addTable_settles (c : ContainerId) :
    (addTable c).Settles q ((q.addTable c).map fun e => ((), e)) := by
  unfold addTable Query.addTable
  simp only [Settles.map_ite_error]
  refine .container fun _ => ?_
  refine .ask (.guard decide_eq_true_iff (.ask (.guard Iff.rfl (.of_ok ?_))))
  simp only [change, announce, runOn_act_bind, runOn_ask_bind, runOn_each_bind, runOn_act]
  rfl

theorem removeTable_settles (c : ContainerId) :
    (removeTable c).Settles q ((q.removeTable c).map fun e => ((), e)) := by
  unfold removeTable Query.removeTable
  simp only [Settles.map_ite_error]
  refine .ask (.guard decide_eq_true_iff (.ask (.guard Iff.rfl (.of_ok ?_))))
  simp only [change, announce, runOn_act_bind, runOn_ask_bind, runOn_each_bind, runOn_act]
  -- The items are looked up when the joins are gone already.
  rw [Edit.itemsOf_each_dropJoin]
  rfl

theorem setContainerAlias_settles (c : ContainerId) (aliasName : Option String) :
    (setContainerAlias c aliasName).Settles q
      ((q.setContainerAlias c aliasName).map fun e => ((), e)) := by
  unfold setContainerAlias Query.setContainerAlias
  simp only [Settles.map_ite_error]
  exact .container fun _ => .of_ok rfl

/-! ## Items -/

theorem addItem_settles (c : ContainerId) (spec : ItemSpec) (uuid : Uuid) :
    (addItem c spec uuid).Settles q (q.addItem c spec uuid) := by
  unfold addItem Query.addItem
  exact .container fun _ => .of_ok rfl

theorem moveItem_settles (i : ItemId) (index : Nat) :
    (moveItem i index).Settles q ((q.moveItem i index).map fun e => ((), e)) := by
  unfold moveItem Query.moveItem
  simp only [Settles.map_ite_error]
  exact .ask (.guard Iff.rfl (.ask (.guard decide_eq_true_iff (.of_ok rfl))))

theorem moveSortedItemToEnd_settles (i : ItemId) :
    (moveSortedItemToEnd i).Settles q ((q.moveSortedItemToEnd i).map fun e => ((), e)) := by
  unfold moveSortedItemToEnd Query.moveSortedItemToEnd
  simp only [Settles.map_ite_error]
  exact .ask (.guard Iff.rfl (.of_ok rfl))

/-- The record of the item is still there when it is looked up again. -/
theorem removeItem_settles (i : ItemId) : (removeItem i).Settles q (q.removeItem i) := by
  unfold removeItem Query.removeItem
  cases hitem : q.item? i with
  | none => exact .missing hitem
  | some item =>
    refine .found hitem (.ask (.of_ok ?_))
    simp only [change, ifAttached, runOn_act_bind, runOn_ask_bind, runOn_each_bind]
    have hattached := Edit.isAttached_each_dropJoin (.start q)
      ((q.joinsOf item.container).filter fun j => (q.join? j).any (·.uses i)) item.container
    have hfound := Edit.item?_each_dropJoin (.start q)
      ((q.joinsOf item.container).filter fun j => (q.join? j).any (·.uses i)) i
    generalize (Edit.start q).each _ Edit.dropJoin = dropped at hattached hfound ⊢
    rw [hattached, Edit.query_start]
    have hlisted : (if q.isAttached item.container then dropped.detachItem i
        else dropped).query.item? i = some item := by
      split
      · rw [Edit.query_detachItem]
        exact hfound.trans hitem
      · exact hfound.trans hitem
    generalize (if q.isAttached item.container then dropped.detachItem i else dropped) = unlisted
      at hlisted ⊢
    have hagain : (unlisted.update (·.updateContainer item.container fun k =>
        { k with items := k.items.filter (· ≠ i) })).query.item? i = some item := hlisted
    rw [hagain]
    rfl

/-- Sets a property of items; an item that has the value already stays as it is. -/
structure Sets (p : ItemProperty) (f : Item → Item) : Prop where
  container : ∀ item, (f item).container = item.container
  same : ∀ item, p.read (f item) = p.read item → f item = item

/-- An item that is changed before it is seen that nothing changes has not changed. -/
theorem changeItem_settles (i : ItemId) {p : ItemProperty} {f : Item → Item} (hf : Sets p f) :
    (changeItem i p f).Settles q ((q.changeItem i p f).map fun e => ((), e)) := by
  unfold changeItem Query.changeItem
  cases hitem : q.item? i with
  | none => exact .missing hitem
  | some item =>
    refine .found hitem ?_
    simp only
    by_cases hsame : p.read item = p.read (f item)
    · have hq : q.updateItem i f = q := Query.updateItem_eq_self hitem (hf.same item hsame.symm)
      rw [if_pos hsame, if_neg (not_not.2 hsame)]
      refine .of_ok ?_
      rw [change, runOn_act_bind, runOn_pure, Edit.start, Edit.update, hq]
    · rw [if_neg hsame, if_pos hsame]
      refine .of_ok ?_
      simp only [change, ifAttached, announce, runOn_act_bind, runOn_act, hf.container,
        Edit.ite_update]
      rfl

/-! ## Joins -/

theorem addJoin_settles (join : Join) : (addJoin join).Settles q (q.addJoin join) := by
  cases hleft : q.item? join.left with
  | none =>
    unfold Query.addJoin
    rw [hleft]
    exact .missing hleft
  | some left =>
    cases hright : q.item? join.right with
    | none =>
      unfold Query.addJoin
      rw [hleft, hright]
      exact .found hleft (.missing hright)
    | some right =>
      rw [Query.addJoin_of_items hleft hright]
      refine .found hleft (.found hright (.guard decide_eq_true_iff ?_))
      cases hleftOuter : q.inheritedOuter left.container with
      | error err => exact .examined_error hleftOuter
      | ok leftOuter =>
        refine .examined_ok hleftOuter ?_
        cases hrightOuter : q.inheritedOuter right.container with
        | error err => exact .examined_error hrightOuter
        | ok rightOuter => exact .examined_ok hrightOuter (.of_ok rfl)

/-- A join that has no two containers is not dropped. -/
theorem removeJoin_settles (j : JoinId) : (removeJoin j).Settles q (q.removeJoin j) := by
  unfold removeJoin Query.removeJoin
  cases hjoin : q.join? j with
  | none => exact .missing hjoin
  | some join =>
    refine .found hjoin ?_
    unfold Settles dropJoin
    simp only [bind_assoc, runOn_ask_bind, runOn_act_bind, Edit.query_start, pure_bind]
    cases hends : q.ends? j with
    | none =>
      have hkept : (Edit.start q).dropJoin j = .start q := by
        unfold Edit.dropJoin
        rw [Edit.query_start, hends]
      rw [hkept]
      rfl
    | some ends =>
      rw [Option.bind_some, hjoin]
      rfl

/-- The sides of all the joins are found before any flag is set. -/
theorem differingJoins_settles (c : ContainerId) (outer : Bool) (js : List JoinId) :
    (differingJoins c outer js).Settles q
      ((q.sidesOf c js).map fun sides => (q.differing outer sides, .start q)) := by
  induction js with
  | nil => rfl
  | cons j rest ih =>
    rw [Query.sidesOf_cons]
    unfold differingJoins
    cases hside : q.sideOf j c with
    | error err => exact .examined_error hside
    | ok side =>
      refine .examined_ok hside (.ask ?_)
      cases hrest : q.sidesOf c rest with
      | error err =>
        rw [hrest] at ih
        exact .bind_error ih
      | ok sides =>
        rw [hrest] at ih
        refine .bind_ok ih ?_
        have hcons : q.differing outer ((j, side) :: sides) =
            if (q.join? j).any (·.outer side ≠ outer) then (j, side) :: q.differing outer sides
            else q.differing outer sides := List.filter_cons
        refine .of_ok ?_
        rw [hcons]
        rfl

theorem setOuter_settles (j : JoinId) (side : Side) (outer : Bool) :
    (setOuter j side outer).Settles q ((q.setOuter j side outer).map fun e => ((), e)) := by
  unfold setOuter Query.setOuter
  cases hjoin : q.join? j with
  | none => exact .missing hjoin
  | some join =>
    refine .found hjoin ?_
    simp only
    cases hitem : q.item? (join.column side) with
    | none => exact .missing hitem
    | some item =>
      refine .found hitem (.ask ?_)
      have hchanges := differingJoins_settles q item.container outer (q.joinsOf item.container)
      simp only [Query.differingJoins_eq]
      cases hsides : q.sidesOf item.container (q.joinsOf item.container) with
      | error err =>
        rw [hsides] at hchanges
        exact .bind_error hchanges
      | ok sides =>
        rw [hsides] at hchanges
        exact .bind_ok hchanges (.of_ok (runOn_each _ _))

theorem setComparator_settles (j : JoinId) (comparator : String) :
    (setComparator j comparator).Settles q
      ((q.setComparator j comparator).map fun e => ((), e)) := by
  unfold setComparator Query.setComparator
  cases hjoin : q.join? j with
  | none => exact .missing hjoin
  | some join =>
    refine .found hjoin ?_
    simp only
    by_cases hsame : join.comparator = comparator
    · rw [if_pos hsame, if_neg (not_not.2 hsame)]
      rfl
    · rw [if_neg hsame, if_pos hsame]
      rfl

/-! ## Operations -/

theorem perform_settles (op : Operation) : (perform op).Settles q (q.perform op) := by
  cases op with
  | addTable c => exact (addTable_settles q c).done
  | removeTable c => exact (removeTable_settles q c).done
  | setContainerAlias c aliasName => exact (setContainerAlias_settles q c aliasName).done
  | addItem c spec uuid => exact (addItem_settles q c spec uuid).map Reply.item
  | removeItem i => exact (removeItem_settles q i).map Reply.removedItem
  | moveItem i index => exact (moveItem_settles q i index).done
  | moveSortedItemToEnd i => exact (moveSortedItemToEnd_settles q i).done
  | setSelected i | setSortOrder i | setGroupRole i | setItemAlias i | setFilter i | setHaving i
  | setItemName i =>
    refine .done (changeItem_settles q i ⟨fun _ => rfl, fun item h => ?_⟩)
    cases h
    rfl
  | addJoin join => exact (addJoin_settles q join).map Reply.join
  | removeJoin j => exact (removeJoin_settles q j).map Reply.removedJoin
  | setOuter j side outer => exact (setOuter_settles q j side outer).done
  | setComparator j comparator => exact (setComparator_settles q j comparator).done
  | newTable | newConstants | setGrouping | setName | setGlobalFilter | setZoomLevel | setRowLimit
  | setStreamingRowLimit | setStreaming | setDialect | defineHandWritten | removeHandWritten
  | setCanExecute | startCompound | endCompound => exact .of_ok rfl

end Procedure

namespace ObservedQuery

variable {α : Type}

/-- The steps of a refused operation leave nothing behind. -/
theorem execute_of_error {o : ObservedQuery α} {op : Operation} {err : QueryError}
    (h : o.query.perform op = .error err) : o.execute op = ⟨.error err, [], o⟩ := by
  have hsettles := Procedure.perform_settles o.query op
  rw [h] at hsettles
  unfold execute
  rw [hsettles]
  simp [Edit.start, Registry.deliverAll]

theorem execute_of_ok {o : ObservedQuery α} {op : Operation} {reply : Reply} {e : Edit}
    (h : o.query.perform op = .ok (reply, e)) :
    o.execute op = ⟨.ok reply, o.observers.deliverAll e.notices, { o with query := e.query }⟩ := by
  have hsettles := Procedure.perform_settles o.query op
  rw [h] at hsettles
  unfold execute
  rw [hsettles]

/-- Carried out step by step, an operation comes to the same as when it is performed at once. -/
theorem execute_eq_perform (o : ObservedQuery α) (op : Operation) :
    o.execute op = o.perform op := by
  unfold perform
  cases h : o.query.perform op with
  | error err => exact execute_of_error h
  | ok x => exact execute_of_ok h

/-- An operation that is refused leaves no trace: whatever steps it took, the query with all its
parts and the observers are as they were, and no observer was called. -/
theorem refused_leaves_no_trace (o : ObservedQuery α) (op : Operation) {err : QueryError}
    (h : (o.execute op).reply = .error err) :
    (o.execute op).after = o ∧ (o.execute op).calls = [] ∧ o.execute op = o.perform op := by
  refine ⟨?_, ?_, o.execute_eq_perform op⟩
  all_goals
    cases hperform : o.query.perform op with
    | error err' => rw [execute_of_error hperform]
    | ok x =>
      rw [execute_of_ok hperform] at h
      cases h

/-- The joined tables with one observer. -/
def observedTables : ObservedQuery String :=
  (ObservedQuery.observe { query := Query.joinedTables } "watch").2

/-- A join of a column with itself is refused, and the observer is not called. -/
theorem observedTables_refuses_selfJoin :
    let op := Operation.addJoin { left := .ofCount 6, right := .ofCount 6 }
    (observedTables.execute op).reply = .error (.selfJoin (.ofCount 6) (.ofCount 6)) ∧
      (observedTables.execute op).after = observedTables ∧
      (observedTables.execute op).calls = [] := by
  intro op
  have hreply : (observedTables.execute op).reply =
      .error (.selfJoin (.ofCount 6) (.ofCount 6)) := by
    rw [execute_eq_perform]
    decide +kernel
  obtain ⟨hafter, hcalls, -⟩ := observedTables.refused_leaves_no_trace op hreply
  exact ⟨hreply, hafter, hcalls⟩

end ObservedQuery

end LiveSelect
