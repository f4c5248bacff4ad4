import LiveSelect.Proofs.Agreement

/-! # Hand-written texts

A text that is put in the place of the generated one hides the state of the query; it does not
change what the state yields. A text that the query has anyway is ignored. What it has is its
present text, though, so while one hand-written text is in force, the text that the state would
yield is taken for another one and replaces it. -/

namespace LiveSelect

namespace Query

/-- What the state of a query yields does not depend on the text that hides it. -/
theorem derivedText_of_handWritten (q : Query) (n : Naming) (handWritten : Option String) :
    derivedText { q with handWritten } n = q.derivedText n := by
  have hfrom := q.fromClause_of_settings n q.grouping handWritten
  have hstatement : statement { q with handWritten } n = q.statement n := by
    rw [statement, hfrom]
    rfl
  rw [derivedText, hstatement]
  rfl

theorem text_of_handWritten (q : Query) (handWritten : Option String) :
    text { q with handWritten } = handWritten.getD (q.derivedText q.dialect.naming) := by
  change handWritten.getD (derivedText { q with handWritten } q.dialect.naming) = _
  rw [derivedText_of_handWritten]

/-- A query has the text that its state yields, unless another one was written by hand. -/
theorem text_eq_fresh_iff (q : Query) :
    q.text = text { q with handWritten := none } ↔
      q.handWritten = none ∨ q.handWritten = some (text { q with handWritten := none }) := by
  have hfresh := q.text_of_handWritten none
  rw [Option.getD_none] at hfresh
  rw [hfresh]
  change q.handWritten.getD _ = _ ↔ _
  cases q.handWritten with
  | none => simp
  | some text => simp

end Query

namespace ObservedQuery

variable {α : Type}

/-- A text is ignored when the query has it, else every observer hears of it. -/
theorem execute_defineHandWritten (o : ObservedQuery α) (text : String) :
    o.execute (.defineHandWritten text) =
      if o.query.text = text then ⟨.ok .done, [], o⟩
      else
        let q := { o.query with handWritten := some text }
        ⟨.ok .done, o.observers.deliver
          ⟨.queryChanged ⟨.handWritten, .text o.query.handWritten, .text (some text)⟩, q⟩,
          { o with query := q }⟩ := by
  have hperform : o.query.perform (.defineHandWritten text) =
      .ok (.done, o.query.defineHandWritten text) := rfl
  rw [execute_of_ok hperform, Query.defineHandWritten]
  split
  · rfl
  · simp only [Registry.deliverAll, Edit.announce, Edit.start, List.nil_append,
      List.flatMap_singleton]

/-- To write by hand what the state of the query yields is ignored just when no other text hides
it. Else the new text takes the place of the hidden one, and every observer hears of it. -/
theorem fresh_text_ignored_iff (o : ObservedQuery α) :
    let fresh := Query.text { o.query with handWritten := none }
    let done := o.execute (.defineHandWritten fresh)
    done.after.query.text = fresh ∧
    (done.after = o ∧ done.calls = [] ↔
      o.query.handWritten = none ∨ o.query.handWritten = some fresh) ∧
    ∀ text, o.query.handWritten = some text → text ≠ fresh →
      done.after = { o with query := { o.query with handWritten := some fresh } } ∧
      done.calls = o.observers.deliver
        ⟨.queryChanged ⟨.handWritten, .text (some text), .text (some fresh)⟩,
          done.after.query⟩ := by
  intro fresh done
  have hdone : done = _ := o.execute_defineHandWritten fresh
  have hhidden : o.query.text = fresh ↔ _ := o.query.text_eq_fresh_iff
  by_cases hsame : o.query.text = fresh
  · rw [if_pos hsame] at hdone
    rw [hdone]
    refine ⟨hsame, iff_of_true ⟨rfl, rfl⟩ (hhidden.1 hsame), fun text htext hne => ?_⟩
    rcases hhidden.1 hsame with hnone | hsome
    · rw [htext] at hnone
      cases hnone
    · rw [htext, Option.some.injEq] at hsome
      exact absurd hsome hne
  · rw [if_neg hsame] at hdone
    rw [hdone]
    refine ⟨rfl, iff_of_false (fun h => ?_) (mt hhidden.2 hsame), fun text htext _ => ⟨rfl, ?_⟩⟩
    · -- The query had another text before.
      refine hsame ?_
      rw [← h.1]
      rfl
    · rw [← htext]

/-- The joined tables with one observer, hidden by a text that was written by hand. -/
def hiddenTables : ObservedQuery String :=
  let query := [.defineHandWritten "SELECT 1"].foldl Query.after Query.joinedTables
  { observedTables with query }

theorem hiddenTables_reachable : hiddenTables.query.Reachable :=
  Query.joinedTables_reachable.foldl_after _ (by decide +kernel)

/-- The observer of the hidden tables hears that their own text takes the place of the other. -/
theorem hiddenTables_hears_fresh_text :
    let fresh := Query.text { hiddenTables.query with handWritten := none }
    hiddenTables.query.handWritten = some "SELECT 1" ∧ "SELECT 1" ≠ fresh ∧
      ((hiddenTables.execute (.defineHandWritten fresh)).calls.map (·.2.event)) =
        [.queryChanged ⟨.handWritten, .text (some "SELECT 1"), .text (some fresh)⟩] := by
  intro fresh
  have hhidden : hiddenTables.query.handWritten = some "SELECT 1" := by decide +kernel
  have hne : "SELECT 1" ≠ fresh := by decide +kernel
  obtain ⟨-, -, hreplaced⟩ := hiddenTables.fresh_text_ignored_iff
  refine ⟨hhidden, hne, ?_⟩
  rw [(hreplaced "SELECT 1" hhidden hne).2]
  rfl

/-- The text that the state yields is not ignored although it is what would show without the
other one. -/
theorem fresh_text_not_ignored :
    ∃ o : ObservedQuery String, o.query.Reachable ∧
      let fresh := Query.text { o.query with handWritten := none }
      (o.execute (.defineHandWritten fresh)).after.query.handWritten ≠ o.query.handWritten ∧
      (o.execute (.defineHandWritten fresh)).calls ≠ [] := by
  refine ⟨hiddenTables, hiddenTables_reachable, ?_, ?_⟩
  · decide +kernel
  · intro hnone
    have hcount : (hiddenTables.execute (.defineHandWritten
        (Query.text { hiddenTables.query with handWritten := none }))).calls.length = 1 := by
      decide +kernel
    rw [hnone] at hcount
    cases hcount

end ObservedQuery

end LiveSelect
