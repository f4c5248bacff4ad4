import LiveSelect.Proofs.Copies

/-! # Consistency of reachable queries

Whatever a caller has done, with whatever ids and in whatever order, the parts of a query
agree with each other. The index of joins lists every join under its two containers and
nothing else, so that no operation ever meets a join that it cannot place; the selection and
the sort list hold the flagged items of attached containers and nothing else. -/

namespace LiveSelect.Query

variable {q : Query}

/-- A query with two tables of one column each and a join between the columns. -/
def joinedTables : Query :=
  let uuid : Uuid := .ofNat 0
  [ .newTable { name := "a" } uuid, .newTable { name := "b" } uuid,
    .addItem (.ofCount 4) { name := "x", selected := true } uuid,
    .addItem (.ofCount 5) { name := "y", sortOrder := .ascending } uuid,
    .addTable (.ofCount 4), .addTable (.ofCount 5),
    .addJoin { left := .ofCount 6, right := .ofCount 7 } ].foldl after (create uuid fun _ => uuid)

theorem joinedTables_reachable : joinedTables.Reachable :=
  (Reachable.create _ _).foldl_after _ (by decide +kernel)

/-! ## The index of joins -/

namespace Indexed

theorem addJoin_not_inconsistent (h : q.Indexed) (join : Join) (c : ContainerId) (j : JoinId) :
    q.addJoin join ≠ .error (.inconsistentJoinTopology c j) := by
  intro herr
  unfold addJoin at herr
  split at herr
  · cases herr
  · cases herr
  · rename_i l r _ _
    rcases h.inheritedOuter_ok l.container with ⟨left, hleft⟩
    rcases h.inheritedOuter_ok r.container with ⟨right, hright⟩
    simp only [hleft, hright, bind, Except.bind] at herr
    split at herr
    · cases herr
    · cases herr

theorem setOuter_not_inconsistent (h : q.Indexed) (k : JoinId) (side : Side) (outer : Bool)
    (c : ContainerId) (j : JoinId) :
    q.setOuter k side outer ≠ .error (.inconsistentJoinTopology c j) := by
  intro herr
  unfold setOuter at herr
  split at herr
  · cases herr
  · split at herr
    · cases herr
    · rename_i item _
      rcases h.differingJoins_ok item.container outer with ⟨changes, hchanges⟩
      rw [hchanges] at herr
      cases herr

end Indexed

/-- In a reachable query the index of joins is exact, and no operation on joins ever fails
because of it. -/
theorem Reachable.joinIndex_exact (h : q.Reachable) :
    (∀ c j, j ∈ q.joinsOf c ↔ ∃ join, q.join? j = some join ∧
      (q.home? join.left = some c ∨ q.home? join.right = some c)) ∧
    (∀ j join, q.join? j = some join → ∃ left right,
      q.item? join.left = some left ∧ q.item? join.right = some right ∧
      left.container ≠ right.container ∧
      (q.joinsOf left.container).count j = 1 ∧ (q.joinsOf right.container).count j = 1) ∧
    (∀ c, q.incidence.get? c ≠ some []) ∧
    (∀ join c j, q.addJoin join ≠ .error (.inconsistentJoinTopology c j)) ∧
    (∀ k side outer c j, q.setOuter k side outer ≠ .error (.inconsistentJoinTopology c j)) := by
  have hindexed : q.Indexed := h.wellFormed.indexed
  refine ⟨fun c j => hindexed.mem_joinsOf_iff, ?_, hindexed.no_empty,
    hindexed.addJoin_not_inconsistent, hindexed.setOuter_not_inconsistent⟩
  intro j join hjoin
  rcases hindexed.home_of_join hjoin with ⟨l, r, hl, hr, hne⟩
  rcases home?_eq_some.1 hl with ⟨left, hleft, rfl⟩
  rcases home?_eq_some.1 hr with ⟨right, hright, rfl⟩
  refine ⟨left, right, hleft, hright, hne, ?_, ?_⟩
  · exact List.count_eq_one_of_mem (hindexed.nodup_joinsOf _)
      (hindexed.mem_joinsOf_iff.2 ⟨join, hjoin, Or.inl hl⟩)
  · exact List.count_eq_one_of_mem (hindexed.nodup_joinsOf _)
      (hindexed.mem_joinsOf_iff.2 ⟨join, hjoin, Or.inr hr⟩)

/-- The join of two tables is listed under the first of them. -/
theorem joinedTables_lists_join :
    joinedTables.Reachable ∧ Id.ofCount 8 ∈ joinedTables.joinsOf (.ofCount 4) := by
  refine ⟨joinedTables_reachable, ?_⟩
  rw [joinedTables_reachable.joinIndex_exact.1]
  exact ⟨{ left := .ofCount 6, right := .ofCount 7 }, by decide +kernel, Or.inl (by decide +kernel)⟩

/-! ## The selection and the sort list -/

/-- In a reachable query the selection holds, each once, the selected items of attached
containers, and the sort list the sorted ones. -/
theorem Reachable.lists_exact (h : q.Reachable) :
    q.selected.Nodup ∧
    (∀ i, i ∈ q.selected ↔ ∃ item, q.item? i = some item ∧ item.selected = true ∧
      (item.container ∈ q.tables ∨ item.container = q.constants)) ∧
    q.sortList.Nodup ∧
    (∀ i, i ∈ q.sortList ↔ ∃ item, q.item? i = some item ∧ item.sortOrder ≠ .unsorted ∧
      (item.container ∈ q.tables ∨ item.container = q.constants)) := by
  have hlisted : q.Listed := h.wellFormed.listed
  have hshows : ∀ p i, q.Shows p i ↔ ∃ item, q.item? i = some item ∧ p item = true ∧
      (item.container ∈ q.tables ∨ item.container = q.constants) := by
    intro p i
    simp only [Shows, isAttached_iff, or_comm]
  refine ⟨hlisted.selected.nodup, ?_, hlisted.sortList.nodup, ?_⟩
  · intro i
    rw [hlisted.selected.mem, hshows]
  · intro i
    rw [hlisted.sortList.mem, hshows]
    simp only [Item.isSorted, decide_eq_true_eq]

/-- The sorted column of a table is on the sort list. -/
theorem joinedTables_sorts :
    joinedTables.Reachable ∧ Id.ofCount 7 ∈ joinedTables.sortList := by
  refine ⟨joinedTables_reachable, ?_⟩
  rw [joinedTables_reachable.lists_exact.2.2.2]
  refine ⟨{
    name := "y", sortOrder := .ascending, container := .ofCount 5, uuid := .ofNat 0 }, ?_⟩
  decide +kernel

end LiveSelect.Query
