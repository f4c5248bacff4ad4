import LiveSelect.Proofs.Readiness

/-! # Turning grouping on and off

To turn grouping on makes a count of every selected column, as one compound edit: the columns
change while the query may not be executed, then it may be again, and the setting itself comes
last. Here the query that is left and all the notices are written down, from the loop over the
columns that do not count yet. A selected column that counts already is passed over by the loop
and is a count all the same, so the roles afterwards do not depend on the roles before. -/

namespace LiveSelect.Query

/-! ## The loop over the columns -/

/-- An item is a count after the loop if it is one of the columns that were given. -/
theorem item?_foldl_countItem (xs : List (ItemId × GroupRole)) (q : Query) (i : ItemId) :
    (xs.foldl countItem q).item? i = (q.item? i).map fun item =>
      if i ∈ xs.map Prod.fst then { item with groupRole := .count } else item := by
  induction xs generalizing q with
  | nil => exact Option.map_id'.symm
  | cons x rest ih =>
    rw [List.foldl_cons, ih]
    simp only [countItem, updateItem, item?, IdMap.get?_modify, List.map_cons, List.mem_cons]
    by_cases hi : i = x.1
    · rw [if_pos hi, Option.map_map]
      congr 1
      funext item
      rw [if_pos (Or.inl hi)]
      exact ite_self _
    · simp only [hi, if_false, false_or]

/-- Exactly the selected columns are made counts. -/
theorem item?_countColumns (q : Query) (i : ItemId) :
    q.countColumns.query.item? i = (q.item? i).map fun item =>
      if i ∈ q.selected ∧ item.kind = .column then { item with groupRole := .count } else item := by
  have hloop : q.countColumns.query.item? i =
      (q.uncountedColumns.foldl countItem { q with canExecute := false }).item? i := by
    rw [countColumns, Edit.query_setCanExecute, Edit.query_each _ Edit.query_countColumn,
      startCompound, Edit.query_setCanExecute, Edit.query_start]
    rfl
  have hunready : item? { q with canExecute := false } i = q.item? i := rfl
  rw [hloop, item?_foldl_countItem, hunready, fst_uncountedColumns]
  refine Option.map_congr fun item hitem => ?_
  by_cases hrole : item.groupRole = .count
  · -- To make a count of a count changes nothing.
    have hsame : { item with groupRole := .count } = item := by rw [← hrole]
    rw [hsame, ite_self, ite_self]
  · have hcolumn : i ∈ q.selected.filter (q.itemHas Item.isUncounted) ↔
        i ∈ q.selected ∧ item.kind = .column := by
      rw [List.mem_filter, itemHas, hitem, Option.any_some]
      simp [Item.isUncounted, hrole]
    exact if_congr hcolumn rfl rfl

/-- Each column that did not count is told of while the query may not be executed, and then it
is told that the query may be. -/
theorem countColumns_notices (q : Query) :
    ∃ changes, q.countColumns.notices =
        changes ++ [⟨.readyToExecute, q.countColumns.query⟩] ∧
      List.Forall₂ (fun i n => ∃ item, q.item? i = some item ∧
          n.event = .itemChanged i ⟨.groupRole, .groupRole item.groupRole, .groupRole .count⟩ ∧
          n.seen.canExecute = false)
        (q.selected.filter (q.itemHas Item.isUncounted)) changes := by
  -- The loop runs while the query may not be executed.
  have hunready : (q.startCompound.each q.uncountedColumns countColumn).query.canExecute = false :=
    Edit.each_induction (M := (·.query.canExecute = false)) (fun _ _ _ he => he) rfl
  have hloop : ∃ changes,
      (q.startCompound.each q.uncountedColumns countColumn).notices = [] ++ changes ∧
      List.Forall₂ (fun x n => ∃ item, q.item? x.1 = some item ∧
        n.event = .itemChanged x.1 ⟨.groupRole, .groupRole item.groupRole, .groupRole .count⟩ ∧
        n.seen.canExecute = false) q.uncountedColumns changes := by
    refine Edit.each_announce (P := (·.canExecute = false)) (fun _ _ => rfl)
      (fun _ _ _ hr => hr) ?_ rfl
    intro r x hx hr
    rcases mem_uncountedColumns.1 hx with ⟨-, item, hitem, -, hrole⟩
    exact ⟨item, hitem, by rw [hrole], hr⟩
  rcases hloop with ⟨changes, htold, hall⟩
  refine ⟨changes, ?_, ?_⟩
  · simp only [countColumns, Edit.setCanExecute, hunready, Bool.not_false, Bool.and_self, if_true,
      Edit.notices_announce, Edit.notices_update, htold, Edit.query_announce, List.nil_append]
  · rw [← fst_uncountedColumns, List.forall₂_map_left_iff]
    exact hall

/-! ## The whole operation -/

/-- To turn grouping on makes exactly the selected columns counts and leaves the query ready. Each
of them that was no count is told of with its former role, in the order of the selection and while
the query may not be executed; then comes the signal that it may be, and last the setting. To set
grouping to what it is does nothing, and to turn it off changes the setting and tells of that. -/
theorem setGrouping_exact (q : Query) :
    (q.Reachable → q.grouping = false →
      ∃ e, q.perform (.setGrouping true) = .ok (.done, e) ∧
        e.query = { q with items := e.query.items, grouping := true, canExecute := true } ∧
        (∀ i, e.query.item? i = (q.item? i).map fun item =>
          if i ∈ q.selected ∧ item.kind = .column then { item with groupRole := .count }
          else item) ∧
        (q.selected.filter (q.itemHas Item.isUncounted)).Nodup ∧
        ∃ changes, e.notices = changes ++
            [⟨.readyToExecute, { e.query with grouping := false }⟩,
              ⟨.queryChanged ⟨.grouping, .flag false, .flag true⟩, e.query⟩] ∧
          List.Forall₂ (fun i n => ∃ item, q.item? i = some item ∧
              n.event = .itemChanged i ⟨.groupRole, .groupRole item.groupRole, .groupRole .count⟩ ∧
              n.seen.canExecute = false)
            (q.selected.filter (q.itemHas Item.isUncounted)) changes) ∧
    q.perform (.setGrouping q.grouping) = .ok (.done, .start q) ∧
    (q.grouping = true →
      q.perform (.setGrouping false) = .ok (.done,
        (Edit.start { q with grouping := false }).announce
          (.queryChanged ⟨.grouping, .flag true, .flag false⟩))) := by
  refine ⟨fun h hoff => ?_, ?_, fun hon => ?_⟩
  · have hedit : q.setGrouping true = (q.countColumns.update ({ · with grouping := true })).announce
        (.queryChanged ⟨.grouping, .flag false, .flag true⟩) := by
      simp only [setGrouping, hoff, Bool.false_eq_true, if_false, if_true]
      rfl
    rcases q.countColumns_query with ⟨items, hquery⟩
    rcases q.countColumns_notices with ⟨changes, hnotices, hall⟩
    refine ⟨_, congrArg Outcome.done hedit, ?_, q.item?_countColumns, ?_, changes, ?_, hall⟩
    · rw [Edit.query_announce, Edit.query_update, hquery]
    · exact h.wellFormed.listed.selected.nodup.filter _
    · have hstill : { q.countColumns.query with grouping := false } = q.countColumns.query := by
        rw [hquery, ← hoff]
      rw [Edit.notices_announce, Edit.notices_update, hnotices, List.append_assoc]
      exact congrArg (fun r => changes ++ [⟨.readyToExecute, r⟩, _]) hstill.symm
  · simp only [perform, setGrouping, if_true]
    rfl
  · simp only [perform, setGrouping, hon, Bool.true_eq_false, Bool.false_eq_true, if_false]
    rfl

/-- Four selected items: a plain column, a column that is summed, one that counts, and an
expression. The query has been marked as not to be executed. -/
def mixedSelection : Query :=
  let uuid : Uuid := .ofNat 0
  [ .addItem (.ofCount 5) { name := "z", selected := true, groupRole := .sum } uuid,
    .addItem (.ofCount 5) { name := "n", selected := true, groupRole := .count } uuid,
    .addItem (.ofCount 4) { name := "1 + 1", kind := .expression, selected := true } uuid,
    .setCanExecute false ].foldl after joinedTables

theorem mixedSelection_reachable : mixedSelection.Reachable :=
  joinedTables_reachable.foldl_after _ (by decide +kernel)

/-- The two columns that do not count are told of, and the expression keeps its role. Grouping can
be turned off again, but not twice. -/
theorem mixedSelection_setGrouping :
    mixedSelection.Reachable ∧ mixedSelection.grouping = false ∧
      (∃ e, mixedSelection.perform (.setGrouping true) = .ok (.done, e) ∧
        e.query.canExecute = true ∧ e.notices.length = 4 ∧
        [Id.ofCount 6, .ofCount 9, .ofCount 10, .ofCount 11].map
            (fun i => (e.query.item? i).map (·.groupRole)) =
          [some .count, some .count, some .count, some .grouped]) ∧
      (mixedSelection.after (.setGrouping true)).grouping = true ∧
      (∃ e, (mixedSelection.after (.setGrouping true)).perform (.setGrouping false) =
        .ok (.done, e) ∧ e.notices.length = 1) ∧
      mixedSelection.perform (.setGrouping false) = .ok (.done, .start mixedSelection) := by
  have hoff : mixedSelection.grouping = false := by decide +kernel
  have hon : (mixedSelection.after (.setGrouping true)).grouping = true := by decide +kernel
  refine ⟨mixedSelection_reachable, hoff, ?_, hon,
    ⟨_, (setGrouping_exact _).2.2 hon, rfl⟩, hoff ▸ (setGrouping_exact mixedSelection).2.1⟩
  rcases (setGrouping_exact mixedSelection).1 mixedSelection_reachable hoff with
    ⟨e, he, hquery, hitems, -, changes, hnotices, hall⟩
  refine ⟨e, he, congrArg canExecute hquery, ?_, ?_⟩
  · have htold : changes.length = 2 := by
      rw [← hall.length_eq]
      decide +kernel
    rw [hnotices, List.length_append, htold]
    rfl
  · simp only [hitems]
    decide +kernel

end LiveSelect.Query
