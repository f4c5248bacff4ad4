import LiveSelect.Proofs.Mirror
import LiveSelect.Proofs.Removals

/-! # A table that is taken out and put back

The flags of items outlive the time that their table spends outside the statement, the joins of
the table do not. A table that is taken from the statement and added again is therefore the old
one at the end: of the tables, and with its flagged items at the end of both lists, in the order
of the table. Its joins are gone, and everything else is as it was. -/

namespace LiveSelect.Query

variable {q : Query} {c : ContainerId} {e : Edit}

/-! ## What is not refused -/

theorem Owned.removeTable_of_mem (h : q.Owned) (hc : c ∈ q.tables) :
    ∃ e, q.removeTable c = .ok e := by
  have hconst : c ≠ q.constants := fun heq => h.constants_not_table (heq ▸ hc)
  unfold removeTable
  rw [if_neg hconst, if_neg (by simpa using hc)]
  exact ⟨_, rfl⟩

theorem addTable_of_detached (hknown : q.containers.contains c) (hc : ¬ q.isAttached c) :
    ∃ e, q.addTable c = .ok e := by
  rw [isAttached_iff, not_or] at hc
  unfold addTable
  rw [if_neg (by simpa using hknown), if_neg hc.1, if_neg (by simpa using hc.2)]
  exact ⟨_, rfl⟩

/-! ## Out of the statement -/

/-- Taking a table out touches the tables, the two lists, the joins and their index only. -/
theorem removeTable_frame (he : q.removeTable c = .ok e) :
    ∃ tables selected sortList joins incidence,
      e.query = { q with tables, selected, sortList, joins, incidence } := by
  rcases removeTable_ok he with ⟨-, -, hquery⟩
  rw [foldl_unlistItem, dropJoins_eq] at hquery
  exact ⟨_, _, _, _, _, hquery⟩

/-- Without a table, its items and its joins the query is the old one. -/
theorem WellFormed.removeTable_query (h : q.WellFormed) (he : q.removeTable c = .ok e) :
    e.query = { q with
      tables := q.tables.filter (· ≠ c)
      selected := q.selected.filter (· ∉ q.itemsOf c)
      sortList := q.sortList.filter (· ∉ q.itemsOf c)
      joins := q.joins.restrict (!q.touches c ·)
      incidence := e.query.incidence } := by
  have hloses := h.loses_removeTable he
  have hjoins : e.query.joins = q.joins.restrict (!q.touches c ·) := by
    apply IdMap.ext_get?
    intro j
    rw [IdMap.get?_restrict]
    have hjoin : e.query.join? j = if q.touches c j then none else q.join? j := hloses.joins j
    rw [← join?, hjoin, join?]
    cases q.touches c j <;> rfl
  have hlisted : ∀ l : List ItemId,
      l.filter (fun i => !decide (q.home? i = some c)) = l.filter (· ∉ q.itemsOf c) :=
    fun l => (h.filter_not_mem_itemsOf c l).symm
  have htables : e.query.tables = q.tables.filter (· ≠ c) := by
    rw [hloses.tables]
    simp only [ne_eq, decide_not]
  have hselected := hloses.selected.trans (hlisted q.selected)
  have hsortList := hloses.sortList.trans (hlisted q.sortList)
  rcases removeTable_frame he with ⟨tables, selected, sortList, joins, incidence, hframe⟩
  rw [hframe] at htables hselected hsortList hjoins ⊢
  cases htables
  cases hselected
  cases hsortList
  cases hjoins
  rfl

/-! ## Out and in again -/

/-- In a reachable query a table of the statement may be taken out and added again. It is then the
last table, its selected items are the last selected ones and its sorted items the last sorted
ones, each in the order of the table. Exactly the joins that touch it are gone. No other part of
the query has changed, and what is left has kept its order. -/
theorem Reachable.reattachment_exact (h : q.Reachable) (hc : c ∈ q.tables) :
    ∃ e e', q.perform (.removeTable c) = .ok (.done, e) ∧
      e.query.perform (.addTable c) = .ok (.done, e') ∧
      e'.query = { q with
        tables := q.tables.filter (· ≠ c) ++ [c]
        selected := q.selected.filter (· ∉ q.itemsOf c) ++
          (q.itemsOf c).filter (q.itemHas (·.selected))
        sortList := q.sortList.filter (· ∉ q.itemsOf c) ++
          (q.itemsOf c).filter (q.itemHas Item.isSorted)
        joins := q.joins.restrict (!q.touches c ·)
        incidence := e'.query.incidence } ∧
      (∀ k, e'.query.joinsOf k = (q.joinsOf k).filter (!q.touches c ·)) ∧
      ∀ k, e'.query.incidence.get? k ≠ some [] := by
  have hw : q.WellFormed := h.wellFormed
  rcases hw.owned.removeTable_of_mem hc with ⟨e, he⟩
  have hloses := hw.loses_removeTable he
  have hquery := hw.removeTable_query he
  have hw' : e.query.WellFormed := by
    rcases removeTable_ok he with ⟨hconst, -, heq⟩
    exact heq ▸ hw.removeTable hconst
  -- The container is known as before, but no longer attached.
  have hknown : e.query.containers.contains c := by
    rw [hquery]
    exact hw.owned.knows_tables c hc
  have hdetached : ¬ e.query.isAttached c := by
    rw [hquery, isAttached_iff, not_or]
    exact ⟨fun heq => hw.owned.constants_not_table (heq ▸ hc), by simp⟩
  rcases addTable_of_detached hknown hdetached with ⟨e', he'⟩
  have hquery' : e'.query = { e.query with
      tables := e.query.tables ++ [c]
      selected := e.query.selected ++ (e.query.itemsOf c).filter (e.query.itemHas (·.selected))
      sortList :=
        e.query.sortList ++ (e.query.itemsOf c).filter (e.query.itemHas Item.isSorted) } :=
    (addTable_ok he').2.2.2.trans (hw'.addTable_query hdetached)
  refine ⟨e, e', ?_, ?_, ?_, ?_, ?_⟩
  · rw [perform, he]
    rfl
  · rw [perform, he']
    rfl
  · rw [hquery', hquery]
    rfl
  · rw [hquery']
    exact hloses.joinsOf
  · rw [hquery']
    exact hloses.no_empty

/-- Three tables in a row, joined one to the next; the first two have selected columns that take
turns in the selection. -/
def chainedTables : Query :=
  let uuid : Uuid := .ofNat 0
  [ .addItem (.ofCount 5) { name := "z", selected := true } uuid,
    .addItem (.ofCount 4) { name := "w", selected := true, sortOrder := .descending } uuid,
    .newTable { name := "c" } uuid, .addItem (.ofCount 11) { name := "v" } uuid,
    .addTable (.ofCount 11),
    .addJoin { left := .ofCount 9, right := .ofCount 12 } ].foldl after joinedTables

theorem chainedTables_reachable : chainedTables.Reachable :=
  joinedTables_reachable.foldl_after _ (by decide +kernel)

/-- The first table goes behind the others with its two selected columns; of the two joins the
one between the other tables is left. -/
theorem chainedTables_reattach_first :
    Id.ofCount 4 ∈ chainedTables.tables ∧
      chainedTables.selected = [.ofCount 6, .ofCount 9, .ofCount 10] ∧
      ∃ e e', chainedTables.perform (.removeTable (.ofCount 4)) = .ok (.done, e) ∧
        e.query.perform (.addTable (.ofCount 4)) = .ok (.done, e') ∧
        e'.query.tables = [.ofCount 5, .ofCount 11, .ofCount 4] ∧
        e'.query.selected = [.ofCount 9, .ofCount 6, .ofCount 10] ∧
        e'.query.sortList = [.ofCount 7, .ofCount 10] ∧
        e'.query.allJoins = [.ofCount 13] ∧
        e'.query.joinsOf (.ofCount 5) = [.ofCount 13] := by
  have hc : Id.ofCount 4 ∈ chainedTables.tables := by decide +kernel
  rcases chainedTables_reachable.reattachment_exact hc with ⟨e, e', he, he', hquery, hjoinsOf, -⟩
  refine ⟨hc, by decide +kernel, e, e', he, he', ?_, ?_, ?_, ?_, ?_⟩
  · rw [congrArg tables hquery]
    dsimp only
    decide +kernel
  · rw [congrArg selected hquery]
    dsimp only
    decide +kernel
  · rw [congrArg sortList hquery]
    dsimp only
    decide +kernel
  · rw [allJoins, congrArg joins hquery]
    dsimp only
    decide +kernel
  · rw [hjoinsOf]
    decide +kernel

end LiveSelect.Query
