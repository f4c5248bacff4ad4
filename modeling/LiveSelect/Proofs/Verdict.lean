import LiveSelect.Proofs.Loading

/-! # When a document describes a query

Many steps of a build may be refused, but only the joins of a document can make them be: the
numbers that are handed out are new, the containers and items that are named are known, and the
index of joins is exact. So the document alone tells whether it describes a query, and if not,
what the first fault is. -/

namespace LiveSelect.QueryDefinition

open Query

variable {D : QueryDefinition} {q q₀ q₁ : Query} {d : Draft}

/-- Properties of known items are set without a refusal, also when an item comes twice. -/
theorem describe_known {columns : List (ItemId × ColumnDefinition)}
    (hknown : ∀ x ∈ columns, q.items.contains x.1) :
    ∃ q', columns.foldlM setProperties q = .ok q' := by
  let known (_ : List (ItemId × ColumnDefinition)) (q' : Query) : Prop :=
    ∀ i, q'.items.contains i ↔ q.items.contains i
  have hbegin : known [] q := fun _ => Iff.rfl
  have hloop : ∃ q', columns.foldlM setProperties q = .ok q' ∧ known columns q' := by
    refine foldlM_runs hbegin fun done x rest q' hsplit hsame => ?_
    have hmem : x ∈ columns := hsplit ▸ List.mem_append_right _ List.mem_cons_self
    obtain ⟨item, hitem⟩ := (q'.items.contains_iff _).1 ((hsame x.1).2 (hknown x hmem))
    obtain ⟨selected, sortList, hset, -⟩ := setProperties_ok hitem x.2
    refine ⟨_, hset, fun i => ?_⟩
    rw [← hsame i]
    exact IdMap.contains_modify _ _ _ _
  obtain ⟨q', hrun, -⟩ := hloop
  exact ⟨q', hrun⟩

/-- A document whose joins are sound is built to the end. -/
theorem build_ok (D : QueryDefinition) (settings : QuerySettings) (uuid : Uuid) (mint : Minting)
    (hsize : D.size < UInt32.size) (hsound : ∀ j ∈ D.joins, D.Sound j) :
    ∃ q, D.build settings uuid mint = .ok q := by
  obtain ⟨q₀, d, hblank, hlaid, hbuild⟩ := D.exists_laidOut settings uuid mint hsize
  obtain ⟨q₁, hjoin, hjoined⟩ := hlaid.addJoins hblank.joins_eq hblank.incidence_eq hsize
    (List.append_nil D.joins).symm hsound
  obtain ⟨⟨canExecute, hgrouping⟩, -, -, hplain⟩ := hlaid.group hblank hjoined
  have hknown : ∀ x ∈ d.columns, q₁.items.contains x.1 := by
    intro x hx
    obtain ⟨item, hitem, -⟩ := hplain x hx
    exact IdMap.contains_of_get? hitem
  obtain ⟨q₂, hdescribe⟩ := describe_known hknown
    (q := { q₁ with grouping := D.grouping, canExecute })
  rw [hbuild, bind_of_ok hjoin, hgrouping, bind_of_ok hdescribe]
  exact ⟨_, rfl⟩

/-- A build stops at the first join with a fault. -/
theorem build_error (D : QueryDefinition) (settings : QuerySettings) (uuid : Uuid) (mint : Minting)
    (hsize : D.size < UInt32.size) {before after : List JoinDefinition} {j : JoinDefinition}
    {err : DefinitionError} (hsplit : D.joins = before ++ j :: after)
    (hsound : ∀ j' ∈ before, D.Sound j') (hfault : D.Fault j err) :
    D.build settings uuid mint = .error err := by
  obtain ⟨q₀, d, hblank, hlaid, hbuild⟩ := D.exists_laidOut settings uuid mint hsize
  rw [hbuild,
    hlaid.addJoins_error hblank.joins_eq hblank.incidence_eq hsize hsplit hsound hfault]
  rfl

/-- A build goes through just if all joins are sound. Otherwise it tells the fault of the first
join that is not, and there is nothing else that it can be refused for. The document is small
enough for the counter of a query, which has 32 bits. -/
theorem build_verdict (D : QueryDefinition) (settings : QuerySettings) (uuid : Uuid)
    (mint : Minting) (hsize : D.size < UInt32.size) :
    ((∃ q, D.build settings uuid mint = .ok q) ↔ ∀ j ∈ D.joins, D.Sound j) ∧
    ∀ err, D.build settings uuid mint = .error err ↔ ∃ before j after,
      D.joins = before ++ j :: after ∧ (∀ j' ∈ before, D.Sound j') ∧ D.Fault j err := by
  have hok := D.build_ok settings uuid mint hsize
  have herror : ∀ {before j after err}, D.joins = before ++ j :: after →
      (∀ j' ∈ before, D.Sound j') → D.Fault j err → D.build settings uuid mint = .error err :=
    D.build_error settings uuid mint hsize
  rcases D.sound_or_first_fault with hsound | ⟨before, j, after, err, hsplit, hsound, hfault⟩
  · obtain ⟨q, hq⟩ := hok hsound
    refine ⟨iff_of_true ⟨q, hq⟩ hsound, fun err => ⟨fun herr => ?_, ?_⟩⟩
    · rw [hq] at herr
      cases herr
    · rintro ⟨before, j, after, hsplit, hbefore, hfault⟩
      exact herror hsplit hbefore hfault
  · have hrefused := herror hsplit hsound hfault
    refine ⟨⟨?_, hok⟩, fun err' => ⟨fun herr => ?_, ?_⟩⟩
    · rintro ⟨q, hq⟩
      rw [hrefused] at hq
      cases hq
    · rw [hrefused] at herr
      cases herr
      exact ⟨before, j, after, hsplit, hsound, hfault⟩
    · rintro ⟨before', j', after', hsplit', hbefore', hfault'⟩
      exact herror hsplit' hbefore' hfault'

/-- The totals with a second join, to a table that the document does not have. -/
def invoiceTotals : QueryDefinition :=
  { customerTotals with
    joins := customerTotals.joins ++ [{ left := "ORDERS.TOTAL", right := "INVOICES.TOTAL" }] }

/-- The first join of the document is sound, and the second one is refused for its table. -/
theorem invoiceTotals_refused :
    invoiceTotals.size < UInt32.size ∧
      invoiceTotals.build {} (.ofNat 0) .ofNat = .error (.unknownTable "INVOICES") := by
  have hsize : invoiceTotals.size < UInt32.size := by decide +kernel
  have hsound : ∀ j ∈ customerTotals.joins, invoiceTotals.Sound j := by
    intro j hj
    obtain rfl := List.mem_singleton.1 hj
    exact ⟨⟨0, 0⟩, ⟨1, 0⟩, reads_iff.2 (by decide +kernel), reads_iff.2 (by decide +kernel),
      by decide⟩
  have hfault : invoiceTotals.Fault { left := "ORDERS.TOTAL", right := "INVOICES.TOTAL" }
      (.unknownTable "INVOICES") :=
    .right (l := ⟨1, 1⟩) (reads_iff.2 (by decide +kernel)) (reads_iff.2 (by decide +kernel))
  refine ⟨hsize, ((invoiceTotals.build_verdict {} _ _ hsize).2 _).2 ?_⟩
  exact ⟨customerTotals.joins, _, [], rfl, hsound, hfault⟩

end LiveSelect.QueryDefinition
