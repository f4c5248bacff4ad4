import LiveSelect.Proofs.Layout
import LiveSelect.Proofs.Outerness
import LiveSelect.Proofs.Refusals

/-! # Joining the tables of a document

The joins of a document are made when its tables are there, and nothing that they refer to
changes on the way. A reference therefore finds in the query what it names in the document, and
a join goes through just if it is sound. A new join takes over the flags that its tables have in
earlier joins, which are the flags that the earliest join of the document declares for them. -/

namespace LiveSelect

/-! ## Flags after a new join -/

namespace Query

variable {q : Query}

theorem inheritedOuter_of_first {c : ContainerId} {first : JoinId} {rest : List JoinId}
    (h : q.joinsOf c = first :: rest) {side : Side} (hside : q.sideOf first c = .ok side)
    {join : Join} (hjoin : q.join? first = some join) :
    q.inheritedOuter c = .ok (some (join.outer side)) := by
  rw [inheritedOuter, h]
  exact (QueryDefinition.bind_of_ok hside _).trans (by rw [hjoin]; rfl)

/-- A new join comes after the joins that touched a container before. -/
theorem inheritedOuter_putJoin_of_cons (h : q.WellFormed) (hq : q.count < UInt32.size)
    {l r : ContainerId} (hne : l ≠ r) (join : Join) {c : ContainerId} {first : JoinId}
    {rest : List JoinId} (hlisted : q.joinsOf c = first :: rest) :
    ∃ outer, q.inheritedOuter c = .ok (some outer) ∧
      (q.putJoin l r join).inheritedOuter c = .ok (some outer) := by
  have hmem : first ∈ q.joinsOf c := hlisted ▸ List.mem_cons_self
  obtain ⟨side, hside⟩ := h.indexed.sideOf_ok hmem
  obtain ⟨l', r', hends, -⟩ := h.indexed.mem_joinsOf.1 hmem
  obtain ⟨old, hold, -⟩ := ends?_eq_some.1 hends
  have hfirst : first ≠ q.nextId :=
    h.numbered.ne_nextId hq (e := .join) (IdMap.contains_of_get? hold)
  have hjoin : (q.putJoin l r join).join? first = some old := by
    rw [join?_putJoin, if_neg hfirst, hold]
  have hsides : (q.putJoin l r join).sideOf first c = .ok side := by
    rw [← hside, sideOf, sideOf, ends?_eq, ends?_eq, hjoin, hold]
    rfl
  obtain ⟨more, hmore⟩ : ∃ more, (q.putJoin l r join).joinsOf c = first :: more := by
    rw [joinsOf_putJoin hne, hlisted]
    split
    · exact ⟨_, rfl⟩
    · exact ⟨_, rfl⟩
  exact ⟨_, inheritedOuter_of_first hlisted hside hold, inheritedOuter_of_first hmore hsides hjoin⟩

/-- A new join is the first one of its containers, if no join touched them before. -/
theorem inheritedOuter_putJoin_of_nil {l r : ContainerId} (hne : l ≠ r) {join : Join}
    (hl : q.home? join.left = some l) (hr : q.home? join.right = some r) {c : ContainerId}
    (hlisted : q.joinsOf c = []) :
    (q.putJoin l r join).inheritedOuter c = .ok
      (if l = c then some join.leftOuter else if r = c then some join.rightOuter else none) := by
  have hnew : (q.putJoin l r join).join? q.nextId = some join := by
    rw [join?_putJoin, if_pos rfl]
  have hends : (q.putJoin l r join).ends? q.nextId = some (l, r) :=
    ends?_eq_some.2 ⟨join, hnew, hl, hr⟩
  have hjoins := joinsOf_putJoin hne join c (q := q)
  rw [hlisted, List.nil_append] at hjoins
  by_cases hcl : l = c
  · rw [if_pos (Or.inl hcl)] at hjoins
    rw [if_pos hcl]
    have hside : (q.putJoin l r join).sideOf q.nextId c = .ok .left := by
      rw [sideOf, hends]
      exact if_pos hcl
    exact inheritedOuter_of_first hjoins hside hnew
  · rw [if_neg hcl]
    by_cases hcr : r = c
    · rw [if_pos (Or.inr hcr)] at hjoins
      rw [if_pos hcr]
      have hside : (q.putJoin l r join).sideOf q.nextId c = .ok .right := by
        rw [sideOf, hends]
        exact (if_neg hcl).trans (if_pos hcr)
      exact inheritedOuter_of_first hjoins hside hnew
    · rw [if_neg (fun hor => hor.elim hcl hcr)] at hjoins
      rw [if_neg hcr, inheritedOuter, hjoins]

/-- A new join decides for the containers that no join touched before. -/
theorem inheritedOuter_putJoin (h : q.WellFormed) (hq : q.count < UInt32.size) {l r : ContainerId}
    (hne : l ≠ r) {join : Join} (hl : q.home? join.left = some l)
    (hr : q.home? join.right = some r) {c : ContainerId} {flag : Option Bool}
    (hflag : q.inheritedOuter c = .ok flag) :
    (q.putJoin l r join).inheritedOuter c = .ok (flag.or
      (if l = c then some join.leftOuter else if r = c then some join.rightOuter else none)) := by
  cases hlisted : q.joinsOf c with
  | nil =>
    rw [inheritedOuter, hlisted] at hflag
    cases hflag
    rw [inheritedOuter_putJoin_of_nil hne hl hr hlisted, Option.none_or]
  | cons first rest =>
    obtain ⟨outer, hold, hnew⟩ := inheritedOuter_putJoin_of_cons h hq hne join hlisted
    rw [hflag] at hold
    cases hold
    rw [hnew, Option.some_or]

end Query

theorem comparator_inherit (join : Join) (left right : Option Bool) :
    (Query.inherit (Query.inherit join .left left) .right right).comparator = join.comparator := by
  cases left <;> cases right <;> rfl

/-- The join that a definition asks for between two columns. -/
def JoinDefinition.between (j : JoinDefinition) (left right : ItemId) : Join :=
  { left, right, comparator := j.comparator, leftOuter := j.leftOuter, rightOuter := j.rightOuter }

/-! ## References in the query -/

/-- A search in a list finds what stands in the place of what it finds in another list. -/
theorem find?_mapIdx {α β : Type} {g : Nat → β} {p : β → Bool} {p' : α → Bool} {xs : List α}
    (h : ∀ n x, xs[n]? = some x → p (g n) = p' x) :
    (xs.mapIdx fun n _ => g n).find? p = (xs.findIdx? p').map g := by
  induction xs generalizing g with
  | nil => rfl
  | cons x rest ih =>
    have hrest := ih (g := fun n => g (n + 1)) fun n y hy => h (n + 1) y hy
    rw [List.mapIdx_cons, List.find?_cons, List.findIdx?_cons, h 0 x rfl, hrest]
    cases p' x with
    | true => rfl
    | false => exact (Option.map_map _ _ _).symm

namespace QueryDefinition

open Query

variable {D : QueryDefinition} {q₀ q : Query} {d : Draft}

namespace LaidOut

theorem tables_eq (h : D.LaidOut q₀ d) :
    d.query.tables = D.tables.mapIdx fun n _ => D.tableId n := by
  obtain ⟨_, _, _, hrest⟩ := h.rest
  rw [hrest]

theorem findTable?_eq (h : D.LaidOut q₀ d) (name : String) :
    d.query.findTable? name = (D.tableNamed? name).map D.tableId := by
  have hheld : ∀ n t, D.tables[n]? = some t → ∃ k, d.query.container? (D.tableId n) = some k ∧
      k.name = t.name ∧ k.aliasName = t.aliasName := by
    intro n t hn
    obtain ⟨uuid, hc⟩ := (h.held n t hn).table
    exact ⟨_, hc, rfl, rfl⟩
  have halias : d.query.tables.find? (d.query.containerHas fun c => c.aliasName = some name) =
      (D.tables.findIdx? fun t => t.aliasName = some name).map D.tableId := by
    rw [h.tables_eq]
    refine find?_mapIdx fun n t hn => ?_
    obtain ⟨k, hk, -, hkalias⟩ := hheld n t hn
    rw [containerHas, hk, Option.any_some, hkalias]
  have hname : d.query.tables.find? (d.query.containerHas fun c => c.name = name) =
      (D.tables.findIdx? fun t => t.name = name).map D.tableId := by
    rw [h.tables_eq]
    refine find?_mapIdx fun n t hn => ?_
    obtain ⟨k, hk, hkname, -⟩ := hheld n t hn
    rw [containerHas, hk, Option.any_some, hkname]
  rw [findTable?, halias, hname, tableNamed?]
  cases D.tables.findIdx? fun t => t.aliasName = some name <;> rfl

theorem findItem?_eq (h : D.LaidOut q₀ d) {n : Nat} {t : TableDefinition}
    (ht : D.tables[n]? = some t) (name : String) :
    d.query.findItem? (D.tableId n) name =
      (D.columnNamed? n name).map fun k => D.columnId ⟨n, k⟩ := by
  have hheld := h.held n t ht
  rw [findItem?, hheld.table.itemsOf, columnNamed?, ht, Option.bind_some]
  refine find?_mapIdx fun k column hk => ?_
  obtain ⟨uuid, hitem⟩ := hheld.items k column hk
  rw [hitem, Option.any_some]
  rfl

/-- A reference finds in the query the item of the column that it names in the document, and
where it names none it is refused for the same reason. -/
theorem resolve_eq (h : D.LaidOut q₀ d) (reference : String) :
    resolve d.query reference = (D.read reference).map D.columnId := by
  unfold resolve read
  cases splitReference? reference with
  | none => rfl
  | some parts =>
    obtain ⟨table, column⟩ := parts
    simp only [h.findTable?_eq]
    cases hn : D.tableNamed? table with
    | none => rfl
    | some n =>
      obtain ⟨t, ht⟩ := exists_of_tableNamed? hn
      simp only [Option.map_some, h.findItem?_eq ht]
      cases D.columnNamed? n column <;> rfl

/-- The item of a column that a reference names. -/
theorem item?_of_reads (h : D.LaidOut q₀ d) {reference : String} {p : Place}
    (hp : D.Reads reference (.ok p)) :
    ∃ item, d.query.item? (D.columnId p) = some item ∧ item.container = D.tableId p.table := by
  obtain ⟨t, k, ht, hk⟩ := exists_of_reads hp
  obtain ⟨uuid, hitem⟩ := (h.held p.table t ht).items p.column k hk
  exact ⟨_, hitem, rfl⟩

/-- Two tables at different positions have different containers. -/
theorem tableId_inj (h : D.LaidOut q₀ d) {n n' : Nat} {t t' : TableDefinition}
    (ht : D.tables[n]? = some t) (ht' : D.tables[n']? = some t')
    (heq : D.tableId n = D.tableId n') : n = n' := by
  have hnodup := h.wellFormed.owned.nodup_tables
  have hget : ∀ {n t}, D.tables[n]? = some t → d.query.tables[n]? = some (D.tableId n) := by
    intro n t hn
    rw [h.tables_eq, List.getElem?_mapIdx, hn, Option.map_some]
  have hlt := (List.getElem?_eq_some_iff.1 (hget ht)).1
  refine (List.getElem?_inj hlt hnodup).1 ?_
  rw [hget ht, hget ht', heq]

end LaidOut

/-! ## The loop of joins -/

/-- The join that is made when some joins are done: it takes over the flags that the tables of
its columns have. -/
def joinMade (D : QueryDefinition) (done : List JoinDefinition) (j : JoinDefinition)
    (l r : Place) : Join :=
  inherit (inherit (j.between (D.columnId l) (D.columnId r)) .left
    (D.earliestOuter? done l.table)) .right (D.earliestOuter? done r.table)

/-- A join of a query has the columns that a join of the document names, its comparator, and on
either side the flag that the earliest of `done` declares for the table. -/
def JoinedAs (D : QueryDefinition) (q : Query) (done : List JoinDefinition) (j : JoinDefinition)
    (id : JoinId) : Prop :=
  ∃ join l r, q.join? id = some join ∧ D.Reads j.left (.ok l) ∧ D.Reads j.right (.ok r) ∧
    join.left = D.columnId l ∧ join.right = D.columnId r ∧ join.comparator = j.comparator ∧
    D.earliestOuter? done l.table = some join.leftOuter ∧
    D.earliestOuter? done r.table = some join.rightOuter

/-- What a query has by the time some of the joins are done, when it started from the draft `d`. -/
structure JoinsMade (D : QueryDefinition) (d : Draft) (done : List JoinDefinition) (q : Query) :
    Prop where
  wellFormed : q.WellFormed
  rest : ∃ joins incidence,
    q = { d.query with joins, incidence, count := d.query.count + done.length }
  outer : ∀ n t, D.tables[n]? = some t →
    q.inheritedOuter (D.tableId n) = .ok (D.earliestOuter? done n)
  joins : List.Forall₂ (D.JoinedAs q done) done q.allJoins

theorem earliestOuter?_concat (done : List JoinDefinition) (j : JoinDefinition) (n : Nat) :
    D.earliestOuter? (done ++ [j]) n = (D.earliestOuter? done n).or (D.outerIn? n j) := by
  rw [earliestOuter?, List.findSome?_append, List.findSome?_singleton]
  rfl

theorem outerIn?_of_reads {j : JoinDefinition} {l r : Place} (hl : D.Reads j.left (.ok l))
    (hr : D.Reads j.right (.ok r)) (n : Nat) :
    D.outerIn? n j = if l.table = n then some j.leftOuter
      else if r.table = n then some j.rightOuter else none := by
  rw [outerIn?, reads_iff.1 hl, reads_iff.1 hr]

namespace JoinsMade

variable {done : List JoinDefinition} {j : JoinDefinition}

/-- The joins made so far do not matter to what references name. -/
theorem resolve_eq (h : D.JoinsMade d done q) (hlaid : D.LaidOut q₀ d) (reference : String) :
    resolve q reference = (D.read reference).map D.columnId := by
  rw [← hlaid.resolve_eq]
  obtain ⟨_, _, hrest⟩ := h.rest
  rw [hrest]
  rfl

theorem item?_eq (h : D.JoinsMade d done q) : q.item? = d.query.item? := by
  obtain ⟨_, _, hrest⟩ := h.rest
  rw [hrest]
  rfl

/-- A join with a fault is refused, and told what the fault is. -/
theorem addJoin_error (h : D.JoinsMade d done q) (hlaid : D.LaidOut q₀ d) {err : DefinitionError}
    (hfault : D.Fault j err) : addJoin q j = .error err := by
  unfold addJoin
  rw [h.resolve_eq hlaid, h.resolve_eq hlaid]
  cases hfault with
  | left hleft =>
    rw [reads_iff.1 hleft]
    rfl
  | right hleft hright =>
    rw [reads_iff.1 hleft, reads_iff.1 hright]
    rfl
  | @self l r hleft hright hself =>
    obtain ⟨item, hitem, hcontainer⟩ := hlaid.item?_of_reads hleft
    obtain ⟨item', hitem', hcontainer'⟩ := hlaid.item?_of_reads hright
    have hsame : item.container = item'.container := by rw [hcontainer, hcontainer', hself]
    rw [← h.item?_eq] at hitem hitem'
    have hadd : q.addJoin (j.between (D.columnId l) (D.columnId r)) =
        .error (.selfJoin (D.columnId l) (D.columnId r)) := by
      rw [addJoin_of_items hitem hitem', if_pos hsame]
      rfl
    rw [reads_iff.1 hleft, reads_iff.1 hright]
    change accept ((q.addJoin (j.between (D.columnId l) (D.columnId r))).map Prod.snd) = _
    rw [hadd]
    rfl

section Sound

variable {l r : Place} (hleft : D.Reads j.left (.ok l)) (hright : D.Reads j.right (.ok r))
  (hne : l.table ≠ r.table)

include hleft hright hne

/-- The flags of a new join are those that the joins up to it declare. -/
theorem outer_joinMade (done : List JoinDefinition) :
    D.earliestOuter? (done ++ [j]) l.table = some (D.joinMade done j l r).leftOuter ∧
      D.earliestOuter? (done ++ [j]) r.table = some (D.joinMade done j l r).rightOuter := by
  obtain ⟨hnewleft, hnewright⟩ := outer_inherit (j.between (D.columnId l) (D.columnId r))
    (D.earliestOuter? done l.table) (D.earliestOuter? done r.table)
  have hflag : ∀ (known : Option Bool) (declared : Bool),
      known.or (some declared) = some (known.getD declared) := by
    intro known declared
    cases known <;> rfl
  constructor
  · rw [earliestOuter?_concat, outerIn?_of_reads hleft hright, if_pos rfl, hflag]
    exact congrArg some hnewleft.symm
  · rw [earliestOuter?_concat, outerIn?_of_reads hleft hright, if_neg hne, if_pos rfl, hflag]
    exact congrArg some hnewright.symm

/-- A sound join is made between the columns that its references name. -/
theorem addJoin_eq (h : D.JoinsMade d done q) (hlaid : D.LaidOut q₀ d)
    (hq : q.count < UInt32.size) :
    addJoin q j =
        .ok (q.putJoin (D.tableId l.table) (D.tableId r.table) (D.joinMade done j l r)) ∧
      (q.putJoin (D.tableId l.table) (D.tableId r.table) (D.joinMade done j l r)).WellFormed := by
  obtain ⟨tl, _, htl, -⟩ := exists_of_reads hleft
  obtain ⟨tr, _, htr, -⟩ := exists_of_reads hright
  obtain ⟨item, hitem, hcontainer⟩ := hlaid.item?_of_reads hleft
  obtain ⟨item', hitem', hcontainer'⟩ := hlaid.item?_of_reads hright
  rw [← h.item?_eq] at hitem hitem'
  have hdiffer : item.container ≠ item'.container := by
    rw [hcontainer, hcontainer']
    exact fun heq => hne (hlaid.tableId_inj htl htr heq)
  have hadd : q.addJoin (j.between (D.columnId l) (D.columnId r)) = .ok (q.nextId,
      (Edit.start (q.putJoin (D.tableId l.table) (D.tableId r.table)
        (D.joinMade done j l r))).announce (.joinAdded q.nextId)) := by
    rw [addJoin_of_items hitem hitem', if_neg hdiffer, hcontainer, hcontainer', h.outer _ _ htl,
      h.outer _ _ htr]
    rfl
  refine ⟨?_, h.wellFormed.addJoin hq hadd⟩
  unfold addJoin
  rw [h.resolve_eq hlaid, h.resolve_eq hlaid, reads_iff.1 hleft, reads_iff.1 hright]
  change accept ((q.addJoin (j.between (D.columnId l) (D.columnId r))).map Prod.snd) = _
  rw [hadd]
  rfl

/-- For each table the flag is then the one that the joins up to the new one declare. -/
theorem inheritedOuter_joinMade (h : D.JoinsMade d done q) (hlaid : D.LaidOut q₀ d)
    (hq : q.count < UInt32.size) {n : Nat} {t : TableDefinition} (hn : D.tables[n]? = some t) :
    (q.putJoin (D.tableId l.table) (D.tableId r.table)
        (D.joinMade done j l r)).inheritedOuter (D.tableId n) =
      .ok (D.earliestOuter? (done ++ [j]) n) := by
  obtain ⟨tl, _, htl, -⟩ := exists_of_reads hleft
  obtain ⟨tr, _, htr, -⟩ := exists_of_reads hright
  obtain ⟨item, hitem, hcontainer⟩ := hlaid.item?_of_reads hleft
  obtain ⟨item', hitem', hcontainer'⟩ := hlaid.item?_of_reads hright
  rw [← h.item?_eq] at hitem hitem'
  have hhome : q.home? (D.joinMade done j l r).left = some (D.tableId l.table) := by
    have hcolumn : (D.joinMade done j l r).left = D.columnId l := column_inherit _ _ _ .left
    rw [hcolumn, home?_of_item? hitem, hcontainer]
  have hhome' : q.home? (D.joinMade done j l r).right = some (D.tableId r.table) := by
    have hcolumn : (D.joinMade done j l r).right = D.columnId r := column_inherit _ _ _ .right
    rw [hcolumn, home?_of_item? hitem', hcontainer']
  obtain ⟨hflag, hflag'⟩ := outer_joinMade hleft hright hne done
  rw [inheritedOuter_putJoin h.wellFormed hq
    (fun heq => hne (hlaid.tableId_inj htl htr heq)) hhome hhome' (h.outer n t hn)]
  cases hearlier : D.earliestOuter? done n with
  | some flag => rw [earliestOuter?_concat, hearlier, Option.some_or, Option.some_or]
  | none =>
    rw [Option.none_or]
    by_cases hnl : l.table = n
    · subst hnl
      rw [if_pos rfl, hflag]
    · rw [if_neg fun heq => hnl (hlaid.tableId_inj htl hn heq)]
      by_cases hnr : r.table = n
      · subst hnr
        rw [if_pos rfl, hflag']
      · rw [if_neg fun heq => hnr (hlaid.tableId_inj htr hn heq), earliestOuter?_concat, hearlier,
          outerIn?_of_reads hleft hright, if_neg hnl, if_neg hnr, Option.none_or]

end Sound

/-- A sound join is made. -/
theorem addJoin_ok (h : D.JoinsMade d done q) (hlaid : D.LaidOut q₀ d)
    (hcount : d.query.count + done.length < UInt32.size) (hsound : D.Sound j) :
    ∃ q', addJoin q j = .ok q' ∧ D.JoinsMade d (done ++ [j]) q' := by
  obtain ⟨l, r, hleft, hright, hne⟩ := hsound
  have hq : q.count < UInt32.size := by
    obtain ⟨_, _, hrest⟩ := h.rest
    rw [hrest]
    exact hcount
  obtain ⟨hstep, hw⟩ := addJoin_eq hleft hright hne h hlaid hq
  refine ⟨_, hstep, hw, ?_, fun n t hn => inheritedOuter_joinMade hleft hright hne h hlaid hq hn, ?_⟩
  · obtain ⟨_, _, hrest⟩ := h.rest
    rw [List.length_append, List.length_singleton, hrest]
    exact ⟨_, _, rfl⟩
  · obtain ⟨hflag, hflag'⟩ := outer_joinMade hleft hright hne done
    rw [allJoins_putJoin h.wellFormed.numbered hq]
    refine List.rel_append (h.joins.imp ?_) (.cons ?_ .nil)
    · rintro j' id ⟨join, l', r', hjoin, hl', hr', hcl, hcr, hcomparator, hfl, hfr⟩
      have hold : id ≠ q.nextId :=
        h.wellFormed.numbered.ne_nextId hq (e := .join) (IdMap.contains_of_get? hjoin)
      refine ⟨join, l', r', ?_, hl', hr', hcl, hcr, hcomparator, ?_, ?_⟩
      · rw [join?_putJoin, if_neg hold, hjoin]
      · rw [earliestOuter?_concat, hfl, Option.some_or]
      · rw [earliestOuter?_concat, hfr, Option.some_or]
    · refine ⟨D.joinMade done j l r, l, r, ?_, hleft, hright, column_inherit _ _ _ .left,
        column_inherit _ _ _ .right, comparator_inherit _ _ _, hflag, hflag'⟩
      rw [join?_putJoin, if_pos rfl]

end JoinsMade

/-- The joins of a document are made as long as they are sound. -/
theorem LaidOut.addJoins (h : D.LaidOut q₀ d) (hjoins : q₀.joins = ∅)
    (hincidence : q₀.incidence = ∅) (hsize : D.size < UInt32.size)
    {done rest : List JoinDefinition} (hsplit : D.joins = done ++ rest)
    (hsound : ∀ j ∈ done, D.Sound j) :
    ∃ q, done.foldlM addJoin d.query = .ok q ∧ D.JoinsMade d done q := by
  have hbegin : D.JoinsMade d [] d.query := by
    obtain ⟨_, _, _, hrest⟩ := h.rest
    refine ⟨h.wellFormed, ⟨_, _, rfl⟩, fun n t _ => ?_, ?_⟩
    · rw [inheritedOuter, joinsOf, hrest, hincidence]
      rfl
    · rw [allJoins, hrest, hjoins]
      exact .nil
  refine foldlM_runs hbegin fun done' j rest' q hsplit' hdone => ?_
  have hlength := congrArg List.length hsplit
  have hlength' := congrArg List.length hsplit'
  simp only [List.length_append, List.length_cons] at hlength hlength'
  have hcount := h.count
  refine hdone.addJoin_ok h (by omega) (hsound j ?_)
  rw [hsplit']
  exact List.mem_append_right _ List.mem_cons_self

/-- The loop of joins stops at the first fault. -/
theorem LaidOut.addJoins_error (h : D.LaidOut q₀ d) (hjoins : q₀.joins = ∅)
    (hincidence : q₀.incidence = ∅) (hsize : D.size < UInt32.size)
    {before after : List JoinDefinition} {j : JoinDefinition} {err : DefinitionError}
    (hsplit : D.joins = before ++ j :: after) (hsound : ∀ j' ∈ before, D.Sound j')
    (hfault : D.Fault j err) : D.joins.foldlM addJoin d.query = .error err := by
  obtain ⟨q, hrun, hmade⟩ := h.addJoins hjoins hincidence hsize hsplit hsound
  rw [hsplit, List.foldlM_append, bind_of_ok hrun, List.foldlM_cons, hmade.addJoin_error h hfault]
  rfl

end QueryDefinition

end LiveSelect
