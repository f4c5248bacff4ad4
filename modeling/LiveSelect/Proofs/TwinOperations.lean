import LiveSelect.Proofs.TwinText

/-! # Operations on twins

The same operation on twins, with numbers that stand for each other, goes through on both
or is refused on both for matching reasons. When it goes through the replies match, and the
two queries are twins again, along a renumbering in which a number that was handed out on
one side stands for the number that was handed out on the other. -/

namespace LiveSelect

/-! ## Matching operations, replies and refusals -/

section Matching

variable (r : Renumbering)

/-- Refusals for the same reason. -/
inductive QueryError.Matches : QueryError → QueryError → Prop where
  | inconsistentJoinTopology {c c' : ContainerId} {j j' : JoinId} (hc : r.Pairs c c')
    (hj : r.Pairs j j') : Matches (.inconsistentJoinTopology c j) (.inconsistentJoinTopology c' j')
  | columnNotDisplayable (name : String) :
    Matches (.columnNotDisplayable name) (.columnNotDisplayable name)
  | unknownItem {i i' : ItemId} (hi : r.Pairs i i') : Matches (.unknownItem i) (.unknownItem i')
  | unknownContainer {c c' : ContainerId} (hc : r.Pairs c c') :
    Matches (.unknownContainer c) (.unknownContainer c')
  | unknownJoin {j j' : JoinId} (hj : r.Pairs j j') : Matches (.unknownJoin j) (.unknownJoin j')
  | selfJoin {i i' k k' : ItemId} (hi : r.Pairs i i') (hk : r.Pairs k k') :
    Matches (.selfJoin i k) (.selfJoin i' k')
  | tableAlreadyAdded {c c' : ContainerId} (hc : r.Pairs c c') :
    Matches (.tableAlreadyAdded c) (.tableAlreadyAdded c')
  | tableNotInQuery {c c' : ContainerId} (hc : r.Pairs c c') :
    Matches (.tableNotInQuery c) (.tableNotInQuery c')
  | constantsContainer : Matches .constantsContainer .constantsContainer
  | indexOutOfBounds (index length : Nat) :
    Matches (.indexOutOfBounds index length) (.indexOutOfBounds index length)
  | itemNotSelected {i i' : ItemId} (hi : r.Pairs i i') :
    Matches (.itemNotSelected i) (.itemNotSelected i')
  | itemNotSorted {i i' : ItemId} (hi : r.Pairs i i') :
    Matches (.itemNotSorted i) (.itemNotSorted i')
  | invalidSql (detail : String) : Matches (.invalidSql detail) (.invalidSql detail)

/-- Replies that are the same but for numbers and identifiers. -/
inductive Reply.Matches : Reply → Reply → Prop where
  | done : Matches .done .done
  | container {c c' : ContainerId} (hc : r.Pairs c c') : Matches (.container c) (.container c')
  | item {i i' : ItemId} (hi : r.Pairs i i') : Matches (.item i) (.item i')
  | join {j j' : JoinId} (hj : r.Pairs j j') : Matches (.join j) (.join j')
  | removedItem {x y : Item} (hxy : x.Matches r y) : Matches (.removedItem x) (.removedItem y)
  | removedJoin {x y : Join} (hxy : x.Matches r y) : Matches (.removedJoin x) (.removedJoin y)

/-- Operations that are the same but for the numbers they name and the identifiers they bring. -/
inductive Operation.Matches : Operation → Operation → Prop where
  | newTable (identity : TableIdentity) (uuid uuid' : Uuid) :
    Matches (.newTable identity uuid) (.newTable identity uuid')
  | addTable {c c' : ContainerId} (hc : r.Pairs c c') : Matches (.addTable c) (.addTable c')
  | removeTable {c c' : ContainerId} (hc : r.Pairs c c') :
    Matches (.removeTable c) (.removeTable c')
  | setContainerAlias {c c' : ContainerId} (hc : r.Pairs c c') (aliasName : Option String) :
    Matches (.setContainerAlias c aliasName) (.setContainerAlias c' aliasName)
  | newConstants (uuid uuid' : Uuid) : Matches (.newConstants uuid) (.newConstants uuid')
  | addItem {c c' : ContainerId} (hc : r.Pairs c c') (spec : ItemSpec) (uuid uuid' : Uuid) :
    Matches (.addItem c spec uuid) (.addItem c' spec uuid')
  | removeItem {i i' : ItemId} (hi : r.Pairs i i') : Matches (.removeItem i) (.removeItem i')
  | moveItem {i i' : ItemId} (hi : r.Pairs i i') (index : Nat) :
    Matches (.moveItem i index) (.moveItem i' index)
  | moveSortedItemToEnd {i i' : ItemId} (hi : r.Pairs i i') :
    Matches (.moveSortedItemToEnd i) (.moveSortedItemToEnd i')
  | setSelected {i i' : ItemId} (hi : r.Pairs i i') (value : Bool) :
    Matches (.setSelected i value) (.setSelected i' value)
  | setSortOrder {i i' : ItemId} (hi : r.Pairs i i') (value : SortOrder) :
    Matches (.setSortOrder i value) (.setSortOrder i' value)
  | setGroupRole {i i' : ItemId} (hi : r.Pairs i i') (value : GroupRole) :
    Matches (.setGroupRole i value) (.setGroupRole i' value)
  | setItemAlias {i i' : ItemId} (hi : r.Pairs i i') (value : Option String) :
    Matches (.setItemAlias i value) (.setItemAlias i' value)
  | setFilter {i i' : ItemId} (hi : r.Pairs i i') (value : Option String) :
    Matches (.setFilter i value) (.setFilter i' value)
  | setHaving {i i' : ItemId} (hi : r.Pairs i i') (value : Option String) :
    Matches (.setHaving i value) (.setHaving i' value)
  | setItemName {i i' : ItemId} (hi : r.Pairs i i') (value : String) :
    Matches (.setItemName i value) (.setItemName i' value)
  | setGrouping (value : Bool) : Matches (.setGrouping value) (.setGrouping value)
  | addJoin {join join' : Join} (hjoin : join.Matches r join') :
    Matches (.addJoin join) (.addJoin join')
  | removeJoin {j j' : JoinId} (hj : r.Pairs j j') : Matches (.removeJoin j) (.removeJoin j')
  | setOuter {j j' : JoinId} (hj : r.Pairs j j') (side : Side) (value : Bool) :
    Matches (.setOuter j side value) (.setOuter j' side value)
  | setComparator {j j' : JoinId} (hj : r.Pairs j j') (value : String) :
    Matches (.setComparator j value) (.setComparator j' value)
  | setName (value : Option String) : Matches (.setName value) (.setName value)
  | setGlobalFilter (value : Option String) :
    Matches (.setGlobalFilter value) (.setGlobalFilter value)
  | setZoomLevel (value : Int32) : Matches (.setZoomLevel value) (.setZoomLevel value)
  | setRowLimit (value : UInt32) : Matches (.setRowLimit value) (.setRowLimit value)
  | setStreamingRowLimit (value : UInt32) :
    Matches (.setStreamingRowLimit value) (.setStreamingRowLimit value)
  | setStreaming (value : Bool) : Matches (.setStreaming value) (.setStreaming value)
  | setDialect (value : Dialect) : Matches (.setDialect value) (.setDialect value)
  | defineHandWritten (text : String) : Matches (.defineHandWritten text) (.defineHandWritten text)
  | removeHandWritten : Matches .removeHandWritten .removeHandWritten
  | setCanExecute (value : Bool) : Matches (.setCanExecute value) (.setCanExecute value)
  | startCompound : Matches .startCompound .startCompound
  | endCompound : Matches .endCompound .endCompound

/-- Both go through with results in a relation, or both are refused for matching reasons. -/
inductive Agree {α β : Type} (R : α → β → Prop) : Except QueryError α → Except QueryError β → Prop
    where
  | ok {a : α} {b : β} (h : R a b) : Agree R (.ok a) (.ok b)
  | refused {x y : QueryError} (h : x.Matches r y) : Agree R (.error x) (.error y)

end Matching

/-- The numbers that two replies hand out stand for each other from then on. -/
def Renumbering.extend (r : Renumbering) : Reply → Reply → Renumbering
  | .container c, .container c' => r.add c c'
  | .item i, .item i' => r.add i i'
  | .join j, .join j' => r.add j j'
  | _, _ => r

namespace Agree

variable {r : Renumbering} {α β γ δ : Type} {R : α → β → Prop} {S : γ → δ → Prop}
  {x : Except QueryError α} {y : Except QueryError β}

theorem bind (h : Agree r R x y) {f : α → Except QueryError γ} {f' : β → Except QueryError δ}
    (hf : ∀ a b, R a b → Agree r S (f a) (f' b)) : Agree r S (x >>= f) (y >>= f') := by
  cases h with
  | ok hab => exact hf _ _ hab
  | refused herr => exact .refused herr

theorem map (h : Agree r R x y) {f : α → γ} {f' : β → δ} (hf : ∀ a b, R a b → S (f a) (f' b)) :
    Agree r S (x.map f) (y.map f') := by
  cases h with
  | ok hab => exact .ok (hf _ _ hab)
  | refused herr => exact .refused herr

theorem mapM {f : α → Except QueryError γ} {f' : β → Except QueryError δ} {xs : List α}
    {ys : List β} (hl : List.Forall₂ R xs ys) (hf : ∀ a b, R a b → Agree r S (f a) (f' b)) :
    Agree r (List.Forall₂ S) (xs.mapM f) (ys.mapM f') := by
  induction hl with
  | nil => exact .ok .nil
  | cons hab _ ih =>
    rw [List.mapM_cons, List.mapM_cons]
    apply (hf _ _ hab).bind
    intro c d hcd
    exact ih.bind fun cs ds hcds => .ok (.cons hcd hcds)

end Agree

/-- Edits that leave twins behind. -/
def Edit.Twins (r : Renumbering) (e e' : Edit) : Prop := Query.Twin r e.query e'.query

namespace Query.Twin

variable {r : Renumbering} {q q' : Query} {i i' : ItemId} {c c' : ContainerId} {j j' : JoinId}

/-! ## Tables -/

theorem addTable (h : Twin r q q') (hc : r.Pairs c c') :
    Agree r (Edit.Twins r) (q.addTable c) (q'.addTable c') := by
  have hconst := eq_iff_eq (h.oneToOne _) hc h.constants
  unfold Query.addTable
  rw [h.containers.contains hc, contains_eq (h.oneToOne _) hc h.tables]
  simp only [hconst]
  split
  · exact .refused (.unknownContainer hc)
  · split
    · exact .refused .constantsContainer
    · split
      · exact .refused (.tableAlreadyAdded hc)
      · refine .ok ?_
        unfold Edit.Twins
        rw [Edit.query_announce, Edit.query_each _ Edit.query_attachItem, Edit.query_announce,
          Edit.query_each _ Edit.query_attachItem]
        -- The table comes first, then its items are wired in one by one.
        have hadded : Twin r { q with tables := q.tables ++ [c] }
            { q' with tables := q'.tables ++ [c'] } :=
          { h with tables := List.rel_append h.tables (.cons hc .nil) }
        exact foldl_matches hadded (h.itemsOf hc) fun _ _ _ _ h hi => h.attachItem hi

theorem removeTable (h : Twin r q q') (hi : q.Indexed) (hi' : q'.Indexed) (hc : r.Pairs c c') :
    Agree r (Edit.Twins r) (q.removeTable c) (q'.removeTable c') := by
  have hconst := eq_iff_eq (h.oneToOne _) hc h.constants
  unfold Query.removeTable
  rw [contains_eq (h.oneToOne _) hc h.tables]
  simp only [hconst]
  split
  · exact .refused .constantsContainer
  · split
    · exact .refused (.tableNotInQuery hc)
    · refine .ok ?_
      unfold Edit.Twins
      rw [Edit.query_announce, Edit.query_each _ Edit.query_detachItem,
        Edit.query_each _ Edit.query_dropJoin, Edit.query_announce,
        Edit.query_each _ Edit.query_detachItem, Edit.query_each _ Edit.query_dropJoin]
      -- The table goes first, then its joins, then its items.
      have hremoved : Twin r { q with tables := q.tables.erase c }
          { q' with tables := q'.tables.erase c' } :=
        { h with tables := forall₂_erase (h.oneToOne _) hc h.tables }
      have hdropped := hremoved.dropJoins (h.joinsOf hi hi' hc)
      exact foldl_matches hdropped (h.itemsOf hc) fun _ _ _ _ h hi => h.unlistItem hi

theorem setContainerAlias (h : Twin r q q') (hc : r.Pairs c c') (aliasName : Option String) :
    Agree r (Edit.Twins r) (q.setContainerAlias c aliasName)
      (q'.setContainerAlias c' aliasName) := by
  unfold Query.setContainerAlias
  rw [h.containers.contains hc]
  split
  · exact .refused (.unknownContainer hc)
  · exact .ok (h.updateContainer hc fun _ _ hxy => { hxy with aliasName := rfl })

/-! ## Lists -/

theorem moveItem (h : Twin r q q') (hi : r.Pairs i i') (index : Nat) :
    Agree r (Edit.Twins r) (q.moveItem i index) (q'.moveItem i' index) := by
  unfold Query.moveItem
  rw [contains_eq (h.oneToOne _) hi h.selected, h.selected.length_eq]
  split
  · exact .refused (.itemNotSelected hi)
  · split
    · exact .refused (.indexOutOfBounds index _)
    · have hmoved := forall₂_insertIdx index hi (forall₂_erase (h.oneToOne _) hi h.selected)
      exact .ok { h with selected := hmoved }

theorem moveSortedItemToEnd (h : Twin r q q') (hi : r.Pairs i i') :
    Agree r (Edit.Twins r) (q.moveSortedItemToEnd i) (q'.moveSortedItemToEnd i') := by
  unfold Query.moveSortedItemToEnd
  rw [contains_eq (h.oneToOne _) hi h.sortList]
  split
  · exact .refused (.itemNotSorted hi)
  · have hrest := forall₂_erase (h.oneToOne _) hi h.sortList
    exact .ok { h with sortList := List.rel_append hrest (.cons hi .nil) }

/-! ## Properties -/

/-- A property is read from what an item describes, and a change of it changes that alone. -/
theorem changeItem (h : Twin r q q') (hi : r.Pairs i i') {p : ItemProperty}
    {g : ItemSpec → PropertyValue} {f : ItemSpec → ItemSpec}
    (hread : ∀ x, p.read x = g x.toItemSpec)
    (hfollow : ∀ q q', Twin r q q' → Twin r (p.follow q i) (p.follow q' i')) :
    Agree r (Edit.Twins r) (q.changeItem i p fun x => { x with toItemSpec := f x.toItemSpec })
      (q'.changeItem i' p fun x => { x with toItemSpec := f x.toItemSpec }) := by
  unfold Query.changeItem
  rcases rel_cases (h.item? hi) with ⟨hq, hq'⟩ | ⟨x, y, hq, hq', hxy⟩
  · rw [hq, hq']
    exact .refused (.unknownItem hi)
  · have hchanged : ∀ x y, Item.Matches r x y →
        Item.Matches r { x with toItemSpec := f x.toItemSpec }
          { y with toItemSpec := f y.toItemSpec } :=
      fun x y hxy => ⟨congrArg f hxy.spec, hxy.container⟩
    have hupdated := h.updateItem hi hchanged
    have hattached := hupdated.isAttached hxy.container
    simp only [hq, hq', hread, hxy.spec]
    split
    · -- Nothing changes when the property already has the value.
      exact .ok h
    · refine .ok ?_
      unfold Edit.Twins
      rw [Edit.query_announce, Edit.query_announce, Edit.query_start, Edit.query_start, hattached]
      split
      · exact hfollow _ _ hupdated
      · exact hupdated

theorem uncountedColumns (h : Twin r q q') :
    List.Forall₂ (fun x y : ItemId × GroupRole => r.Pairs x.1 y.1 ∧ x.2 = y.2) q.uncountedColumns
      q'.uncountedColumns := by
  refine List.rel_filterMap ?_ h.selected
  intro i i' hi
  refine rel_bind ?_ (h.item? hi)
  intro x y hxy
  have hkind : x.kind = y.kind := congrArg ItemSpec.kind hxy.spec
  have hrole : x.groupRole = y.groupRole := congrArg ItemSpec.groupRole hxy.spec
  rw [hkind, hrole]
  split
  · exact .some ⟨hi, rfl⟩
  · exact .none

theorem countItem (h : Twin r q q') {x y : ItemId × GroupRole} (hxy : r.Pairs x.1 y.1) :
    Twin r (q.countItem x) (q'.countItem y) := by
  refine h.updateItem hxy fun x y hxy => ⟨?_, hxy.container⟩
  exact congrArg (fun s : ItemSpec => { s with groupRole := .count }) hxy.spec

theorem setCanExecute (h : Twin r q q') (value : Bool) :
    (q.setCanExecute value).Twins r (q'.setCanExecute value) := by
  unfold Edit.Twins Query.setCanExecute
  rw [Edit.query_setCanExecute, Edit.query_setCanExecute]
  exact h.withSettings (fun q => { q with canExecute := value }) fun _ => ⟨rfl, rfl⟩

theorem setGrouping (h : Twin r q q') (value : Bool) :
    Twin r (q.setGrouping value).query (q'.setGrouping value).query := by
  rw [setGrouping_query, setGrouping_query]
  have hsame : q.grouping = value ↔ q'.grouping = value := by rw [h.grouping_eq]
  by_cases hold : q.grouping = value
  · rw [if_pos hold, if_pos (hsame.1 hold)]
    exact h
  · rw [if_neg hold, if_neg (mt hsame.2 hold)]
    by_cases hvalue : value
    · -- The counts are made while the query may not be executed.
      rw [if_pos hvalue, if_pos hvalue]
      have hstarted := h.withSettings (fun q => { q with canExecute := false }) fun _ => ⟨rfl, rfl⟩
      have hcounted := foldl_matches (P := Twin r) (f := Query.countItem) hstarted
        h.uncountedColumns fun _ _ _ _ h hxy => h.countItem hxy.1
      exact hcounted.withSettings (fun q => { q with canExecute := true, grouping := value })
        fun _ => ⟨rfl, rfl⟩
    · rw [if_neg hvalue, if_neg hvalue]
      exact h.withSettings (fun q => { q with grouping := value }) fun _ => ⟨rfl, rfl⟩

/-! ## Joins -/

theorem sideOf (h : Twin r q q') (hj : r.Pairs j j') (hc : r.Pairs c c') :
    Agree r Eq (q.sideOf j c) (q'.sideOf j' c') := by
  unfold Query.sideOf
  rcases rel_cases (h.ends? hj) with ⟨hq, hq'⟩ | ⟨⟨u, v⟩, ⟨u', v'⟩, hq, hq', hu, hv⟩
  · rw [hq, hq']
    exact .refused (.inconsistentJoinTopology hc hj)
  · simp only [hq, hq', eq_iff_eq (h.oneToOne _) hu hc, eq_iff_eq (h.oneToOne _) hv hc]
    split
    · exact .ok rfl
    · split
      · exact .ok rfl
      · exact .refused (.inconsistentJoinTopology hc hj)

theorem inheritedOuter (h : Twin r q q') (hi : q.Indexed) (hi' : q'.Indexed) (hc : r.Pairs c c') :
    Agree r Eq (q.inheritedOuter c) (q'.inheritedOuter c') := by
  have hjoins := h.joinsOf hi hi' hc
  unfold Query.inheritedOuter
  revert hjoins
  cases q.joinsOf c <;> cases q'.joinsOf c' <;> intro hjoins <;> cases hjoins
  · exact .ok rfl
  · -- The first joins of both lists stand for each other, so they pass on the same flag.
    rename_i hj _
    refine (h.sideOf hj hc).bind fun side side' hside => .ok ?_
    subst hside
    exact eq_of_rel (rel_map (fun _ _ hk => hk.outer side) (h.join? hj))

theorem inherit_matches {x y : Join} (hxy : x.Matches r y) (side : Side) (outer : Option Bool) :
    (inherit x side outer).Matches r (inherit y side outer) := by
  cases outer with
  | none => exact hxy
  | some value => exact hxy.withOuter side value

theorem differingJoins (h : Twin r q q') (hi : q.Indexed) (hi' : q'.Indexed) (hc : r.Pairs c c')
    (outer : Bool) :
    Agree r (List.Forall₂ fun x y : JoinId × Side => r.Pairs x.1 y.1 ∧ x.2 = y.2)
      (q.differingJoins c outer) (q'.differingJoins c' outer) := by
  have hsides : Agree r (List.Forall₂ fun x y : JoinId × Side => r.Pairs x.1 y.1 ∧ x.2 = y.2)
      ((q.joinsOf c).mapM fun j => do return (j, ← q.sideOf j c))
      ((q'.joinsOf c').mapM fun j => do return (j, ← q'.sideOf j c')) := by
    apply Agree.mapM (h.joinsOf hi hi' hc)
    intro j j' hj
    exact (h.sideOf hj hc).bind fun side side' hside => .ok ⟨hj, hside⟩
  refine hsides.bind fun xs ys hl => .ok (forall₂_filter ?_ hl)
  intro x y hxy
  rw [hxy.2]
  refine rel_any ?_ (h.join? hxy.1)
  intro k k' hk
  rw [hk.outer]

theorem setOuter (h : Twin r q q') (hi : q.Indexed) (hi' : q'.Indexed) (hj : r.Pairs j j')
    (side : Side) (outer : Bool) :
    Agree r (Edit.Twins r) (q.setOuter j side outer) (q'.setOuter j' side outer) := by
  unfold Query.setOuter
  rcases rel_cases (h.join? hj) with ⟨hq, hq'⟩ | ⟨k, k', hq, hq', hk⟩
  · rw [hq, hq']
    exact .refused (.unknownJoin hj)
  · rcases rel_cases (h.item? (hk.column side)) with ⟨hx, hx'⟩ | ⟨x, y, hx, hx', hxy⟩
    · simp only [hq, hq', hx, hx']
      exact .refused (.unknownItem (hk.column side))
    · simp only [hq, hq', hx, hx']
      refine (h.differingJoins hi hi' hxy.container outer).bind fun xs ys hl => .ok ?_
      unfold Edit.Twins
      rw [Edit.query_each (f := (·.setFlag outer)) _ (Edit.query_flipOuter · outer),
        Edit.query_each (f := (·.setFlag outer)) _ (Edit.query_flipOuter · outer)]
      apply foldl_matches h hl
      intro _ _ x y h hxy
      apply h.updateJoin hxy.1
      intro k k' hk
      rw [hxy.2]
      exact hk.withOuter _ _

theorem setComparator (h : Twin r q q') (hj : r.Pairs j j') (comparator : String) :
    Agree r (Edit.Twins r) (q.setComparator j comparator) (q'.setComparator j' comparator) := by
  unfold Query.setComparator
  rcases rel_cases (h.join? hj) with ⟨hq, hq'⟩ | ⟨k, k', hq, hq', hk⟩
  · rw [hq, hq']
    exact .refused (.unknownJoin hj)
  · simp only [hq, hq', hk.comparator]
    split
    · exact .ok h
    · exact .ok (h.updateJoin hj fun _ _ hk => { hk with comparator := rfl })

theorem removeJoin (h : Twin r q q') (hj : r.Pairs j j') :
    Agree r (fun x y => x.1.Matches r y.1 ∧ x.2.Twins r y.2) (q.removeJoin j)
      (q'.removeJoin j') := by
  unfold Query.removeJoin
  rcases rel_cases (h.join? hj) with ⟨hq, hq'⟩ | ⟨k, k', hq, hq', hk⟩
  · rw [hq, hq']
    exact .refused (.unknownJoin hj)
  · rcases rel_cases (h.ends? hj) with ⟨he, he'⟩ | ⟨u, v, he, he', -⟩
    · simp only [hq, hq', he, he']
      exact .refused (.unknownJoin hj)
    · simp only [hq, hq', he, he']
      refine .ok ⟨hk, ?_⟩
      unfold Edit.Twins
      rw [Edit.query_dropJoin, Edit.query_dropJoin]
      exact h.dropJoin hj

theorem usersOf (h : Twin r q q') (hi : q.Indexed) (hi' : q'.Indexed) (hc : r.Pairs c c')
    (hii : r.Pairs i i') : List.Forall₂ r.Pairs (q.usersOf c i) (q'.usersOf c' i') := by
  refine forall₂_filter ?_ (h.joinsOf hi hi' hc)
  intro j j' hj
  refine rel_any ?_ (h.join? hj)
  intro k k' hk
  simp only [Join.uses, eq_iff_eq (h.oneToOne _) hk.left hii, eq_iff_eq (h.oneToOne _) hk.right hii]

theorem removeItem (h : Twin r q q') (hi : q.Indexed) (hi' : q'.Indexed) (hii : r.Pairs i i') :
    Agree r (fun x y => x.1.Matches r y.1 ∧ x.2.Twins r y.2) (q.removeItem i)
      (q'.removeItem i') := by
  rcases rel_cases (h.item? hii) with ⟨hq, hq'⟩ | ⟨x, y, hq, hq', hxy⟩
  · simp only [Query.removeItem, hq, hq']
    exact .refused (.unknownItem hii)
  · rcases removeItem_of_item? hq with ⟨e, he⟩
    rcases removeItem_of_item? hq' with ⟨e', he'⟩
    have hdropped := h.dropJoins (h.usersOf hi hi' hxy.container hii)
    rw [he, he']
    refine .ok ⟨hxy, ?_⟩
    unfold Edit.Twins
    rw [(removeItem_ok he).2, (removeItem_ok he').2, h.isAttached hxy.container]
    refine takeItem ?_ hxy.container hii
    split
    · exact hdropped.unlistItem hii
    · exact hdropped

/-! ## New numbers -/

section Numbers

variable (h : Twin r q q') (hn : q.Numbered) (hn' : q'.Numbered) (hq : q.count < UInt32.size)
  (hq' : q'.count < UInt32.size)

include h hn hn' hq hq'

theorem newTable (identity : TableIdentity) (uuid uuid' : Uuid) :
    Twin (r.add (q.nextId : ContainerId) q'.nextId) (q.newTable identity uuid).2
      (q'.newTable identity uuid').2 := by
  have hout := h.handOut hn hn' hq hq' .container
  exact { hout with
    containers := hout.containers.insert hout.oneToOne (r.pairs_add_self _ _)
      ⟨rfl, rfl, rfl, .nil⟩ }

theorem putItem (hc : r.Pairs c c') (spec : ItemSpec) (uuid uuid' : Uuid) :
    Twin (r.add (q.nextId : ItemId) q'.nextId) (q.putItem c spec uuid)
      (q'.putItem c' spec uuid') := by
  have hout := h.handOut hn hn' hq hq' .item
  have hnew := r.pairs_add_self (q.nextId : ItemId) q'.nextId
  have hc' := r.within_add (q.nextId : ItemId) q'.nextId hc
  -- The item is made under the new numbers, then its container owns it.
  have hmade : Twin (r.add (q.nextId : ItemId) q'.nextId)
      { q.handOut with items := q.items.insert q.nextId { spec with container := c, uuid } }
      { q'.handOut with
        items := q'.items.insert q'.nextId { spec with container := c', uuid := uuid' } } :=
    { hout with items := hout.items.insert hout.oneToOne hnew ⟨rfl, hc'⟩ }
  apply hmade.updateContainer hc'
  intro x y hxy
  exact { hxy with items := List.rel_append hxy.items (.cons hnew .nil) }

theorem insertItem (hc : r.Pairs c c') (spec : ItemSpec) (uuid uuid' : Uuid) :
    Twin (r.add (q.nextId : ItemId) q'.nextId) (q.insertItem c spec uuid).2.query
      (q'.insertItem c' spec uuid').2.query := by
  have hput := h.putItem hn hn' hq hq' hc spec uuid uuid'
  rw [insertItem_query, insertItem_query, h.isAttached hc]
  split
  · exact hput.attachItem (r.pairs_add_self _ _)
  · exact hput

theorem addItem (hc : r.Pairs c c') (spec : ItemSpec) (uuid uuid' : Uuid) :
    Agree r (fun x y => x.1 = q.nextId ∧ y.1 = q'.nextId ∧
        x.2.Twins (r.add (q.nextId : ItemId) q'.nextId) y.2)
      (q.addItem c spec uuid) (q'.addItem c' spec uuid') := by
  unfold Query.addItem
  rw [h.containers.contains hc]
  split
  · exact .refused (.unknownContainer hc)
  · exact .ok ⟨rfl, rfl, h.insertItem hn hn' hq hq' hc spec uuid uuid'⟩

theorem putJoin {u u' v v' : ContainerId} {k k' : Join} (hk : k.Matches r k') :
    Twin (r.add (q.nextId : JoinId) q'.nextId) (q.putJoin u v k) (q'.putJoin u' v' k') := by
  have hout := h.handOut hn hn' hq hq' .join
  have hnew := r.pairs_add_self (q.nextId : JoinId) q'.nextId
  have hwithin := r.within_add (q.nextId : JoinId) q'.nextId
  refine { hout with
    joins := hout.joins.insert hout.oneToOne hnew (hk.mono hwithin), allJoins := ?_ }
  rw [allJoins_putJoin hn hq, allJoins_putJoin hn' hq']
  exact List.rel_append hout.allJoins (.cons hnew .nil)

theorem addJoin (hi : q.Indexed) (hi' : q'.Indexed) {k k' : Join} (hk : k.Matches r k') :
    Agree r (fun x y => x.1 = q.nextId ∧ y.1 = q'.nextId ∧
        x.2.Twins (r.add (q.nextId : JoinId) q'.nextId) y.2)
      (q.addJoin k) (q'.addJoin k') := by
  unfold Query.addJoin
  rcases rel_cases (h.item? hk.left) with ⟨hl, hl'⟩ | ⟨x, y, hl, hl', hxy⟩
  · rw [hl, hl']
    exact .refused (.unknownItem hk.left)
  · rcases rel_cases (h.item? hk.right) with ⟨hr, hr'⟩ | ⟨u, v, hr, hr', huv⟩
    · rw [hl, hl', hr, hr']
      exact .refused (.unknownItem hk.right)
    · -- The columns are in one container on both sides or on neither.
      have hsame : x.container = u.container ↔ y.container = v.container := by
        constructor
        · intro heq
          exact (h.oneToOne _).2 hxy.container (heq ▸ huv.container)
        · intro heq
          exact (h.oneToOne _).1 hxy.container (heq ▸ huv.container)
      simp only [hl, hl', hr, hr', hsame]
      split
      · exact .refused (.selfJoin hk.left hk.right)
      · apply (h.inheritedOuter hi hi' hxy.container).bind
        intro left left' hleft
        apply (h.inheritedOuter hi hi' huv.container).bind
        intro right right' hright
        subst hleft hright
        refine .ok ⟨rfl, rfl, ?_⟩
        exact h.putJoin hn hn' hq hq' (inherit_matches (inherit_matches hk _ _) _ _)

end Numbers

theorem withoutConstants (h : Twin r q q') (hi : q.Indexed) (hi' : q'.Indexed) :
    Twin r q.withoutConstants q'.withoutConstants := by
  have hdropped := h.dropJoins (h.joinsOf hi hi' h.constants)
  exact foldl_matches (hdropped.eraseContainer h.constants) (h.itemsOf h.constants)
    fun _ _ _ _ h hi => h.discardItem hi

theorem newConstants (h : Twin r q q') (hw : q.WellFormed) (hw' : q'.WellFormed)
    (hq : q.count < UInt32.size) (hq' : q'.count < UInt32.size) (uuid uuid' : Uuid) :
    Twin (r.add (q.newConstants uuid).1 (q'.newConstants uuid').1) (q.newConstants uuid).2.query
      (q'.newConstants uuid').2.query := by
  -- Once the old constants are gone on both sides, the new ones get the next numbers.
  have hbare := h.withoutConstants hw.indexed hw'.indexed
  have hcount := count_withoutConstants q
  have hcount' := count_withoutConstants q'
  have hout := hbare.handOut (hw.numbered.withoutConstants hw.indexed)
    (hw'.numbered.withoutConstants hw'.indexed) (hcount ▸ hq) (hcount' ▸ hq') .container
  rw [newConstants_query, newConstants_query, newConstants_id, newConstants_id]
  have hnew := r.pairs_add_self (q.withoutConstants.nextId : ContainerId) q'.withoutConstants.nextId
  exact { hout with
    containers := hout.containers.insert hout.oneToOne hnew ⟨rfl, rfl, rfl, .nil⟩
    constants := hnew }

/-! ## All operations -/

/-- What twins reply to matching operations, and what becomes of them. -/
theorem perform (h : Twin r q q') (hw : q.WellFormed) (hw' : q'.WellFormed)
    (hq : q.count < UInt32.size) (hq' : q'.count < UInt32.size) {op op' : Operation}
    (hop : op.Matches r op') :
    Agree r (fun x y => x.1.Matches (r.extend x.1 y.1) y.1 ∧ x.2.Twins (r.extend x.1 y.1) y.2)
      (q.perform op) (q'.perform op') := by
  have hn := hw.numbered
  have hn' := hw'.numbered
  have hi := hw.indexed
  have hi' := hw'.indexed
  -- An operation that returns nothing hands out nothing.
  have hquiet : ∀ {x y : Except QueryError Edit}, Agree r (Edit.Twins r) x y →
      Agree r (fun x y => x.1.Matches (r.extend x.1 y.1) y.1 ∧ x.2.Twins (r.extend x.1 y.1) y.2)
        (Outcome.ofEdit x) (Outcome.ofEdit y) :=
    fun hxy => hxy.map fun _ _ he => ⟨.done, he⟩
  cases hop with
  | newTable identity uuid uuid' =>
    exact .ok ⟨.container (r.pairs_add_self _ _), h.newTable hn hn' hq hq' identity uuid uuid'⟩
  | addTable hc => exact hquiet (h.addTable hc)
  | removeTable hc => exact hquiet (h.removeTable hi hi' hc)
  | setContainerAlias hc aliasName => exact hquiet (h.setContainerAlias hc aliasName)
  | newConstants uuid uuid' =>
    exact .ok ⟨.container (r.pairs_add_self _ _), h.newConstants hw hw' hq hq' uuid uuid'⟩
  | addItem hc spec uuid uuid' =>
    refine (h.addItem hn hn' hq hq' hc spec uuid uuid').map ?_
    rintro ⟨_, e⟩ ⟨_, e'⟩ ⟨rfl, rfl, he⟩
    exact ⟨.item (r.pairs_add_self _ _), he⟩
  | removeItem hii =>
    exact (h.removeItem hi hi' hii).map fun _ _ hxy => ⟨.removedItem hxy.1, hxy.2⟩
  | moveItem hii index => exact hquiet (h.moveItem hii index)
  | moveSortedItemToEnd hii => exact hquiet (h.moveSortedItemToEnd hii)
  | setSelected hii value =>
    exact hquiet (h.changeItem hii (g := fun s => .flag s.selected)
      (f := fun s => { s with selected := value }) (fun _ => rfl) fun _ _ h => h.syncSelection hii)
  | setSortOrder hii value =>
    exact hquiet (h.changeItem hii (g := fun s => .sortOrder s.sortOrder)
      (f := fun s => { s with sortOrder := value }) (fun _ => rfl) fun _ _ h => h.syncSortList hii)
  | setGroupRole hii value =>
    exact hquiet (h.changeItem hii (g := fun s => .groupRole s.groupRole)
      (f := fun s => { s with groupRole := value }) (fun _ => rfl) fun _ _ h => h)
  | setItemAlias hii value =>
    exact hquiet (h.changeItem hii (g := fun s => .text s.aliasName)
      (f := fun s => { s with aliasName := value }) (fun _ => rfl) fun _ _ h => h)
  | setFilter hii value =>
    exact hquiet (h.changeItem hii (g := fun s => .text s.filter)
      (f := fun s => { s with filter := value }) (fun _ => rfl) fun _ _ h => h)
  | setHaving hii value =>
    exact hquiet (h.changeItem hii (g := fun s => .text s.having)
      (f := fun s => { s with having := value }) (fun _ => rfl) fun _ _ h => h)
  | setItemName hii value =>
    exact hquiet (h.changeItem hii (g := fun s => .text (some s.name))
      (f := fun s => { s with name := value }) (fun _ => rfl) fun _ _ h => h)
  | setGrouping value => exact .ok ⟨.done, h.setGrouping value⟩
  | addJoin hjoin =>
    refine (h.addJoin hn hn' hq hq' hi hi' hjoin).map ?_
    rintro ⟨_, e⟩ ⟨_, e'⟩ ⟨rfl, rfl, he⟩
    exact ⟨.join (r.pairs_add_self _ _), he⟩
  | removeJoin hj => exact (h.removeJoin hj).map fun _ _ hxy => ⟨.removedJoin hxy.1, hxy.2⟩
  | setOuter hj side value => exact hquiet (h.setOuter hi hi' hj side value)
  | setComparator hj value => exact hquiet (h.setComparator hj value)
  | setName value =>
    exact .ok ⟨.done, h.withSettings (fun q => { q with name := value }) fun _ => ⟨rfl, rfl⟩⟩
  | setGlobalFilter value =>
    refine .ok ⟨.done, ?_⟩
    unfold Edit.Twins
    rw [setGlobalFilter_query, setGlobalFilter_query]
    exact h.withSettings (fun q => { q with globalFilter := value }) fun _ => ⟨rfl, rfl⟩
  | setZoomLevel value =>
    exact .ok ⟨.done, h.withSettings (fun q => { q with zoomLevel := value }) fun _ => ⟨rfl, rfl⟩⟩
  | setRowLimit value =>
    exact .ok ⟨.done, h.withSettings (fun q => { q with rowLimit := value }) fun _ => ⟨rfl, rfl⟩⟩
  | setStreamingRowLimit value =>
    exact .ok ⟨.done, h.withSettings (fun q => { q with streamingRowLimit := value })
      fun _ => ⟨rfl, rfl⟩⟩
  | setStreaming value =>
    exact .ok ⟨.done, h.withSettings (fun q => { q with streaming := value }) fun _ => ⟨rfl, rfl⟩⟩
  | setDialect value =>
    exact .ok ⟨.done, h.withSettings (fun q => { q with dialect := value }) fun _ => ⟨rfl, rfl⟩⟩
  | defineHandWritten text =>
    refine .ok ⟨.done, ?_⟩
    unfold Edit.Twins
    -- A text that the query has anyway is not kept, and twins have the same text.
    rw [defineHandWritten_query, defineHandWritten_query, ← h.text hi hi', ← h.handWritten_eq]
    exact h.withSettings (fun x =>
      { x with handWritten := if q.text = text then q.handWritten else some text }) fun _ =>
        ⟨rfl, rfl⟩
  | removeHandWritten =>
    refine .ok ⟨.done, ?_⟩
    unfold Edit.Twins
    rw [removeHandWritten_query, removeHandWritten_query]
    exact h.withSettings (fun q => { q with handWritten := none }) fun _ => ⟨rfl, rfl⟩
  | setCanExecute value => exact .ok ⟨.done, h.setCanExecute value⟩
  | startCompound => exact .ok ⟨.done, h.setCanExecute false⟩
  | endCompound => exact .ok ⟨.done, h.setCanExecute true⟩

end Query.Twin

end LiveSelect
