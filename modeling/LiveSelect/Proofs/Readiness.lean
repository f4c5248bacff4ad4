import Mathlib.Algebra.Order.BigOperators.Group.List
import Mathlib.Algebra.Order.Group.Nat
import LiveSelect.Proofs.Unseen

/-! # The signal of readiness

That a query may be executed again is announced when a compound edit ends. Whoever executes it
then should execute what the operation leaves behind, and does so with one exception: when
grouping is turned on, the compound edit that counts the columns ends before the setting itself
is changed. The text is then still without groups, though the columns count already. -/

namespace LiveSelect

/-! ## Clauses with longer entries -/

theorem length_clause_le {β : Type} {f g : β → String} (h : ∀ x, (f x).length ≤ (g x).length)
    (keyword separator : String) (l : List β) :
    (clause keyword separator (l.map f)).length ≤ (clause keyword separator (l.map g)).length := by
  cases l with
  | nil => exact Nat.le_refl _
  | cons x rest =>
    have hf := length_clause keyword separator ((x :: rest).map f) (List.cons_ne_nil _ _)
    have hg := length_clause keyword separator ((x :: rest).map g) (List.cons_ne_nil _ _)
    have hsum : (((x :: rest).map f).map fun t => t.length + separator.length).sum ≤
        (((x :: rest).map g).map fun t => t.length + separator.length).sum := by
      rw [List.map_map, List.map_map]
      exact List.sum_le_sum fun y _ => Nat.add_le_add_right (h y) _
    omega

namespace Query

variable {q : Query} {e : Edit} {op : Operation} {reply : Reply}

/-! ## Grouping and the text -/

/-- Inside its aggregate function an item takes more room. -/
theorem length_expression_le (q : Query) (n : Naming) (wrap : Bool) (item : Item) :
    (q.expression n false item).length ≤ (q.expression n wrap item).length := by
  unfold expression
  split
  · exact Nat.le_refl _
  · split
    · cases wrap with
      | false => exact Nat.le_refl _
      | true =>
        simp only [if_true, Bool.false_eq_true, if_false, String.length_append]
        omega
    · exact Nat.le_refl _

/-- With groups the statement is longer: at least two spaces are added to it. -/
theorem length_statement_grouped (n : Naming) (hplain : q.grouping = false) :
    (q.statement n).length < (statement { q with grouping := true } n).length := by
  let grouped : Query := { q with grouping := true }
  have hselect : (q.selectClause n).length ≤ (grouped.selectClause n).length := by
    have hentry : ∀ item, (q.selectEntry n item).length ≤ (grouped.selectEntry n item).length := by
      intro item
      have hexpression := q.length_expression_le n true item
      simp only [selectEntry, hplain, String.length_append]
      exact Nat.add_le_add_right hexpression _
    have hclause := length_clause_le hentry " " ", " (q.resolve q.selected)
    rw [selectClause, selectClause, String.length_append, String.length_append]
    exact Nat.add_le_add_left hclause _
  have horder : (q.orderByClause n).length ≤ (grouped.orderByClause n).length := by
    have hentry : ∀ item, (q.orderByEntry n item).length ≤
        (grouped.orderByEntry n item).length := by
      intro item
      have hexpression := q.length_expression_le n true item
      simp only [orderByEntry, hplain, String.length_append]
      exact Nat.add_le_add_right (Nat.add_le_add_right hexpression _) _
    exact length_clause_le hentry "\nORDER BY " ", " ((q.resolve q.sortList).filter isSortable)
  have hfrom : grouped.fromClause n = q.fromClause n :=
    q.fromClause_of_settings n true q.handWritten
  have hwhere : grouped.whereClause n = q.whereClause n := rfl
  -- GROUP BY and HAVING may be empty; the spaces after them are written all the same.
  have hspace : " ".length = 1 := by decide
  have hnone : "".length = 0 := by decide
  change _ < (grouped.statement n).length
  rw [statement, statement, hplain, hfrom, hwhere, if_neg Bool.false_ne_true,
    if_pos (show grouped.grouping = true from rfl)]
  simp only [String.length_append, hspace, hnone]
  omega

/-- That groups are formed shows in the text of every query that selects something, unless a
hand-written text hides it. -/
theorem textWith_grouped_iff (n : Naming) (hplain : q.grouping = false) :
    q.textWith n = textWith { q with grouping := true } n ↔
      ¬ (q.handWritten = none ∧ q.selected ≠ []) := by
  have hderived : q.derivedText n = derivedText { q with grouping := true } n ↔
      q.selected = [] := by
    by_cases hempty : q.selected = []
    · have hplainText : q.derivedText n = "" := if_pos hempty
      have hgroupedText : derivedText { q with grouping := true } n = "" := if_pos hempty
      exact iff_of_true (hplainText.trans hgroupedText.symm) hempty
    · have hplainText : q.derivedText n = q.statement n := if_neg hempty
      have hgroupedText : derivedText { q with grouping := true } n =
          statement { q with grouping := true } n := if_neg hempty
      refine iff_of_false (fun heq => ?_) hempty
      rw [hplainText, hgroupedText] at heq
      exact Nat.ne_of_lt (length_statement_grouped n hplain) (congrArg String.length heq)
  have hhidden : ∀ (handWritten : Option String) (s t : String),
      handWritten.getD s = handWritten.getD t ↔ (handWritten = none → s = t) := by
    intro handWritten s t
    cases handWritten <;> simp
  refine (hhidden q.handWritten _ _).trans ?_
  rw [hderived]
  exact not_and_not_right.symm

/-! ## Who sends the signal -/

/-- Counting the columns changes no more than the items and whether the query may be executed. -/
theorem countColumns_query (q : Query) :
    ∃ items, q.countColumns.query = { q with items, canExecute := true } := by
  have hcounted : ∀ (xs : List (ItemId × GroupRole)) (r : Query),
      ∃ items, xs.foldl countItem r = { r with items } := by
    intro xs
    induction xs with
    | nil => exact fun r => ⟨r.items, rfl⟩
    | cons x rest ih =>
      intro r
      obtain ⟨items, hrest⟩ := ih (r.countItem x)
      exact ⟨items, hrest⟩
  obtain ⟨items, heq⟩ := hcounted q.uncountedColumns { q with canExecute := false }
  refine ⟨items, ?_⟩
  rw [countColumns, Edit.query_setCanExecute, Edit.query_each _ Edit.query_countColumn,
    startCompound, Edit.query_setCanExecute, Edit.query_start, heq]

/-- When the columns are counted, the signal comes last. -/
theorem countColumns_tells (q : Query) :
    q.countColumns.Tells fun event seen =>
      event = .readyToExecute → seen = q.countColumns.query := by
  generalize hlast : q.countColumns.query = last
  have hstart : q.startCompound.Tells fun event seen => event = .readyToExecute → seen = last :=
    (Edit.Tells.start q).setCanExecute nofun
  have hcounted : (q.startCompound.each q.uncountedColumns countColumn).Tells
      fun event seen => event = .readyToExecute → seen = last :=
    Edit.each_induction (fun e x _ he => (he.update _).announce nofun) hstart
  refine hcounted.setCanExecute fun _ _ => ?_
  rw [← hlast, countColumns, Edit.query_setCanExecute]

/-- Of the operations that take several steps only the one that turns grouping on ends a compound
edit. -/
theorem perform_not_ready (hp : q.perform op = .ok (reply, e)) (hop : op.isCascade)
    (hgrouping : op ≠ .setGrouping true) : e.Tells fun event _ => event ≠ .readyToExecute := by
  have hjoins : ∀ {e : Edit} (js : List JoinId), e.Tells (fun event _ => event ≠ .readyToExecute) →
      (e.each js Edit.dropJoin).Tells fun event _ => event ≠ .readyToExecute :=
    fun js he => Edit.each_induction (fun _ _ _ he => he.dropJoin fun _ => nofun) he
  cases op with
  | addTable c =>
    rw [addTable_edit (Outcome.ofEdit_ok hp).2]
    refine Edit.Tells.announce (Edit.each_induction (fun _ _ _ he => ?_) (.start _)) nofun
    exact he.attachItem nofun
  | removeTable c =>
    rw [removeTable_edit (Outcome.ofEdit_ok hp).2]
    refine Edit.Tells.announce (Edit.each_induction (fun _ _ _ he => ?_) ?_) nofun
    · exact he.detachItem fun _ => nofun
    · exact hjoins _ (.start _)
  | newConstants uuid =>
    have hdropped : q.dropConstants.Tells fun event _ => event ≠ .readyToExecute := by
      refine Edit.each_induction (fun _ _ _ he => ?_) ((hjoins _ (.start q)).update _)
      rw [Edit.forgetItem_eq]
      exact (he.detachItem fun _ => nofun).update _
    -- The new container is put in its place without a notice.
    cases hp
    exact hdropped
  | removeItem i =>
    obtain ⟨x, hx, -, rfl⟩ := Outcome.map_ok hp
    rw [removeItem_edit hx]
    refine Edit.Tells.update ?_ _
    unfold releaseItem
    simp only
    split
    · exact (hjoins _ (.start _)).detachItem fun _ => nofun
    · exact hjoins _ (.start _)
  | setGrouping enabled =>
    cases hp
    cases enabled with
    | true => exact absurd rfl hgrouping
    | false =>
      rcases q.setGrouping_edit false with heq | ⟨-, heq⟩
      · rw [heq]
        exact .start q
      · rw [heq]
        exact ((Edit.Tells.start q).update _).announce nofun
  | setOuter j side outer =>
    obtain ⟨c, changes, -, rfl⟩ := setOuter_edit (Outcome.ofEdit_ok hp).2
    exact Edit.each_induction (fun _ _ _ he => (he.update _).announce nofun) (.start _)
  | _ => cases hop

/-- The signal shows the query as the operation leaves it, but for the setting when grouping is
turned on. -/
theorem perform_ready (hp : q.perform op = .ok (reply, e)) {x : Notice} (hx : x ∈ e.notices)
    (hready : x.event = .readyToExecute) :
    (op ≠ .setGrouping true ∧ x.seen = e.query) ∨
      (op = .setGrouping true ∧ q.grouping = false ∧ x.seen = q.countColumns.query ∧
        e.query = { x.seen with grouping := true }) := by
  by_cases hgrouping : op = .setGrouping true
  · refine Or.inr ⟨hgrouping, ?_⟩
    subst hgrouping
    cases hp
    rcases q.setGrouping_edit true with heq | ⟨hoff, heq⟩
    · rw [heq] at hx
      cases hx
    · rw [heq, if_pos rfl] at hx
      rcases List.mem_append.1 hx with hx | hx
      · have hseen := q.countColumns_tells x hx hready
        refine ⟨Bool.not_eq_true _ ▸ hoff, hseen, ?_⟩
        rw [heq, if_pos rfl, hseen]
        rfl
      · -- The last notice is of the setting.
        rw [List.mem_singleton.1 hx] at hready
        cases hready
  · refine Or.inl ⟨hgrouping, ?_⟩
    cases hop : op.isCascade with
    | true => exact absurd hready (perform_not_ready hp hop hgrouping x hx)
    | false =>
      have hnow := (perform_atOnce hp hop).tells (R := fun _ seen => seen = e.query) fun _ => rfl
      exact hnow x hx

/-- An operation turns grouping on where it shows: something is selected, and no hand-written text
hides it. -/
def ShowsGroups (q : Query) (op : Operation) : Prop :=
  op = .setGrouping true ∧ q.handWritten = none ∧ q.selected ≠ []

end Query

namespace ObservedQuery

variable {α : Type}

/-- When an observer hears that the query may be executed again, it sees the query as the operation
leaves it, but for the setting of groups. It reads the final text, in the query's own dialect and
in every other, unless the operation turns grouping on where that shows. -/
theorem readiness_shows_text_iff (o : ObservedQuery α) (op : Operation) (x : α × Notice)
    (hx : x ∈ (o.execute op).calls) (hready : x.2.event = .readyToExecute) :
    let after := (o.execute op).after.query
    after = { x.2.seen with grouping := after.grouping } ∧
    (x.2.seen.text = after.text ↔ ¬ o.query.ShowsGroups op) ∧
    ∀ d : Dialect, x.2.seen.textWith d.naming = after.textWith d.naming ↔
      ¬ o.query.ShowsGroups op := by
  intro after
  obtain ⟨reply, e, hp, hmem⟩ := Query.edit_of_mem_notices (notice_of_call hx)
  have hafter : after = e.query := by
    rw [← Query.after_ok hp]
    exact congrArg ObservedQuery.query (o.after_execute op)
  rw [hafter]
  rcases Query.perform_ready hp hmem hready with ⟨hgrouping, hseen⟩ | ⟨rfl, hoff, hseen, hlast⟩
  · have hhidden : ¬ o.query.ShowsGroups op := fun h => hgrouping h.1
    rw [hseen]
    exact ⟨rfl, iff_of_true rfl hhidden, fun _ => iff_of_true rfl hhidden⟩
  · -- What the counting leaves alone decides whether the setting shows.
    obtain ⟨items, hcounted⟩ := o.query.countColumns_query
    rw [hcounted] at hseen
    have hplain : x.2.seen.grouping = false := by
      rw [hseen]
      exact hoff
    have htext : ∀ n : Naming, x.2.seen.textWith n = e.query.textWith n ↔
        ¬ o.query.ShowsGroups (.setGrouping true) := by
      intro n
      rw [hlast, Query.textWith_grouped_iff n hplain, hseen]
      simp [Query.ShowsGroups]
    refine ⟨?_, ?_, fun d => htext d.naming⟩
    · rw [hlast]
    · have hdialect : e.query.dialect = x.2.seen.dialect := by rw [hlast]
      rw [Query.text, Query.text, hdialect]
      exact htext _

/-- At the end of a compound edit of the joined tables the observer reads the final text. -/
theorem observedTables_ready_at_end :
    let o := { observedTables with query := observedTables.query.after .startCompound }
    ∃ x ∈ (o.execute .endCompound).calls, x.2.event = .readyToExecute ∧
      x.2.seen.text = (o.execute .endCompound).after.query.text := by
  intro o
  have hfirst : ((o.execute .endCompound).calls[0]?).map (·.2.event) = some .readyToExecute := by
    decide +kernel
  obtain ⟨x, hx, hready⟩ := Option.map_eq_some_iff.1 hfirst
  have hmem := List.mem_of_getElem? hx
  obtain ⟨-, htext, -⟩ := o.readiness_shows_text_iff .endCompound x hmem hready
  exact ⟨x, hmem, hready, htext.2 fun hshown => nomatch hshown.1⟩

/-- When grouping is turned on, the observer is told that the query may be executed while its text
is still without groups. -/
theorem readiness_before_groups :
    ∃ (o : ObservedQuery String) (op : Operation) (x : String × Notice), o.query.Reachable ∧
      x ∈ (o.execute op).calls ∧ x.2.event = .readyToExecute ∧
      x.2.seen.text ≠ (o.execute op).after.query.text := by
  have hsecond : ((observedTables.execute (.setGrouping true)).calls[1]?).map
      (fun x => (x.2.event, x.2.seen.text)) = some (.readyToExecute,
        "SELECT a.x \nFROM a a \nINNER JOIN b b \n  ON a.x = b.y \nORDER BY b.y ASC ") := by
    decide +kernel
  have hafter : (observedTables.execute (.setGrouping true)).after.query.text =
      "SELECT COUNT(a.x) \nFROM a a \nINNER JOIN b b \n  ON a.x = b.y   \nORDER BY b.y ASC " := by
    decide +kernel
  obtain ⟨x, hx, hseen⟩ := Option.map_eq_some_iff.1 hsecond
  obtain ⟨hready, htext⟩ := Prod.mk.inj hseen
  refine ⟨observedTables, .setGrouping true, x, Query.joinedTables_reachable,
    List.mem_of_getElem? hx, hready, ?_⟩
  rw [htext, hafter]
  decide

end ObservedQuery

end LiveSelect
