import LiveSelect.Proofs.Inside
import LiveSelect.Proofs.Expressions

/-! # Tables that go by another name

A table is named in many places of a statement, and always by the same name. When a table goes by
another name and nothing else changes, the new name stands in all these places, and in no other.
Every table is named at least once, where the FROM clause introduces it, so the statement stays
the same only if the name does. -/

namespace LiveSelect

variable {x y : String} {k l : Nat} {s s' t t' : String}

/-! ## Texts -/

/-- Two texts where the second has `y` in some of the places in which the first has `x`, and how
many these places are. -/
inductive Renamed (x y : String) : Nat → String → String → Prop where
  | same (s : String) : Renamed x y 0 s s
  | name : Renamed x y 1 x y
  | append {k l : Nat} {s s' t t' : String} (hs : Renamed x y k s s') (ht : Renamed x y l t t') :
    Renamed x y (k + l) (s ++ t) (s' ++ t')

namespace Renamed

/-- Every place adds the difference of the two names. -/
theorem length_add (h : Renamed x y k s s') :
    s'.length + k * x.length = s.length + k * y.length := by
  induction h with
  | same s => rw [Nat.zero_mul, Nat.zero_mul]
  | name => rw [Nat.one_mul, Nat.one_mul, Nat.add_comm]
  | append hs ht ihs iht =>
    rw [String.length_append, String.length_append, Nat.add_mul, Nat.add_mul]
    omega

theorem eq_of_same (h : Renamed x x k s s') : s = s' := by
  induction h with
  | same s => rfl
  | name => rfl
  | append hs ht ihs iht => rw [ihs, iht]

/-- Where there is a place, texts are the same only if the names are. Names of different lengths
make texts of different lengths; with names of one length, the parts of texts are as long on both
sides and can be compared one by one. -/
theorem name_eq (h : Renamed x y k s s') (hk : 0 < k) (heq : s = s') : x = y := by
  have hlength : x.length = y.length := by
    have hadd := h.length_add
    rw [heq] at hadd
    exact Nat.eq_of_mul_eq_mul_left hk (Nat.add_left_cancel hadd)
  induction h with
  | same s => exact absurd hk (Nat.lt_irrefl 0)
  | name => exact heq
  | @append k l s s' t t' hs ht ihs iht =>
    have hsame : s.toList.length = s'.toList.length := by
      have hadd := hs.length_add
      rw [hlength] at hadd
      rw [String.length_toList, String.length_toList]
      omega
    rw [← String.toList_inj, String.toList_append, String.toList_append] at heq
    obtain ⟨hfirst, hsecond⟩ := List.append_inj heq hsame
    rcases Nat.eq_zero_or_pos k with rfl | hpos
    · exact iht (by omega) (String.toList_inj.1 hsecond)
    · exact ihs hpos (String.toList_inj.1 hfirst)

end Renamed

/-- Two texts where the second has `y` in at least `k` places in which the first has `x`. -/
def Renames (x y : String) (k : Nat) (s s' : String) : Prop := ∃ l, k ≤ l ∧ Renamed x y l s s'

namespace Renames

theorem same (x y s : String) : Renames x y 0 s s := ⟨0, Nat.le_refl 0, .same s⟩

theorem name (x y : String) : Renames x y 1 x y := ⟨1, Nat.le_refl 1, .name⟩

theorem append (hs : Renames x y k s s') (ht : Renames x y l t t') :
    Renames x y (k + l) (s ++ t) (s' ++ t') := by
  obtain ⟨k', hk, hs⟩ := hs
  obtain ⟨l', hl, ht⟩ := ht
  exact ⟨k' + l', Nat.add_le_add hk hl, hs.append ht⟩

theorem mono (h : Renames x y l s s') (hk : k ≤ l) : Renames x y k s s' := by
  obtain ⟨m, hm, h⟩ := h
  exact ⟨m, Nat.le_trans hk hm, h⟩

/-- Behind a text that is the same on both sides. -/
theorem prepend (s : String) (h : Renames x y k t t') : Renames x y k (s ++ t) (s ++ t') := by
  have hboth := (same x y s).append h
  rwa [Nat.zero_add] at hboth

theorem eq_of_same (h : Renames x x k s s') : s = s' := by
  obtain ⟨l, -, h⟩ := h
  exact h.eq_of_same

theorem eq_iff (h : Renames x y 1 s s') : s = s' ↔ x = y := by
  constructor
  · intro heq
    obtain ⟨l, hl, h⟩ := h
    exact h.name_eq hl heq
  · rintro rfl
    exact h.eq_of_same

theorem intercalate (separator : String) {entries entries' : List String}
    (h : List.Forall₂ (Renames x y 0) entries entries') :
    Renames x y 0 (separator.intercalate entries) (separator.intercalate entries') := by
  induction h with
  | nil => exact same x y _
  | cons hfirst hrest ih =>
    cases hrest with
    | nil =>
      rw [String.intercalate_singleton, String.intercalate_singleton]
      exact hfirst
    | cons hsecond hrest =>
      rw [String.intercalate_cons_cons, String.intercalate_cons_cons]
      exact (hfirst.append (same x y separator)).append ih

theorem clause (keyword separator : String) {entries entries' : List String}
    (h : List.Forall₂ (Renames x y 0) entries entries') :
    Renames x y 0 (clause keyword separator entries) (clause keyword separator entries') := by
  cases h with
  | nil => exact same x y ""
  | cons hfirst hrest =>
    rw [clause_of_ne_nil _ _ (List.cons_ne_nil _ _), clause_of_ne_nil _ _ (List.cons_ne_nil _ _)]
    exact (intercalate separator (.cons hfirst hrest)).prepend keyword

variable {α : Type} {f f' : α → String} {as : List α}

theorem join (h : ∀ a ∈ as, Renames x y 0 (f a) (f' a)) :
    Renames x y 0 (String.join (as.map f)) (String.join (as.map f')) := by
  induction as with
  | nil => exact same x y ""
  | cons a rest ih =>
    rw [List.map_cons, List.map_cons, String.join_cons, String.join_cons]
    exact (h a List.mem_cons_self).append (ih fun b hb => h b (List.mem_cons_of_mem a hb))

/-- The places in one text of several are places in all of them together. -/
theorem join_of_mem (h : ∀ a ∈ as, Renames x y 0 (f a) (f' a)) {a : α} (ha : a ∈ as)
    (hk : Renames x y k (f a) (f' a)) :
    Renames x y k (String.join (as.map f)) (String.join (as.map f')) := by
  obtain ⟨before, after, rfl⟩ := List.append_of_mem ha
  have hbefore := join fun b hb => h b (List.mem_append_left _ hb)
  have hafter := join fun b hb => h b (List.mem_append_right _ (List.mem_cons_of_mem a hb))
  simp only [List.map_append, List.map_cons, String.join_append, String.join_cons]
  have hall := hbefore.append (hk.append hafter)
  rwa [Nat.zero_add, Nat.add_zero] at hall

end Renames

/-! ## Items -/

namespace Item

/-- An item without its blank texts. -/
def withoutBlanks (item : Item) : Item :=
  { item with
    aliasName := item.activeAlias?
    filter := item.activeFilter?
    having := item.activeHaving? }

/-- Two items that a statement does not tell apart: they are spelled alike, and only blank texts
are not the same. -/
structure ReadsLike (n : Naming) (item item' : Item) : Prop where
  spelled : n.item item' = n.item item
  parts : item'.withoutBlanks = item.withoutBlanks

namespace ReadsLike

variable {n : Naming} {item item' : Item} (h : item.ReadsLike n item')

include h

theorem name : item'.name = item.name := (congrArg (fun i : Item => i.name) h.parts :)

theorem kind : item'.kind = item.kind := (congrArg (fun i : Item => i.kind) h.parts :)

theorem groupRole : item'.groupRole = item.groupRole :=
  (congrArg (fun i : Item => i.groupRole) h.parts :)

theorem sortOrder : item'.sortOrder = item.sortOrder :=
  (congrArg (fun i : Item => i.sortOrder) h.parts :)

theorem container : item'.container = item.container := (congrArg Item.container h.parts :)

theorem activeAlias? : item'.activeAlias? = item.activeAlias? :=
  (congrArg (fun i : Item => i.aliasName) h.parts :)

theorem activeFilter? : item'.activeFilter? = item.activeFilter? :=
  (congrArg (fun i : Item => i.filter) h.parts :)

theorem activeHaving? : item'.activeHaving? = item.activeHaving? :=
  (congrArg (fun i : Item => i.having) h.parts :)

omit h in
theorem refl (n : Naming) (item : Item) : item.ReadsLike n item := ⟨rfl, rfl⟩

omit h in
theorem rel_refl (n : Naming) (item? : Option Item) : Option.Rel (ReadsLike n) item? item? := by
  cases item? with
  | none => exact .none
  | some item => exact .some (refl n item)

end ReadsLike

end Item

namespace Query

/-! ## Queries -/

/-- A table is spelled alike in two queries, and has `y` in at least `k` places of the name that it
goes by in the second where it has `x` in the first. -/
def RenamesTable (n : Naming) (x y : String) (k : Nat) (q q' : Query) (t : ContainerId) : Prop :=
  ∃ c c', q.container? t = some c ∧ q'.container? t = some c' ∧ n.table c' = n.table c ∧
    Renames x y k c.correlationName c'.correlationName

/-- Two queries whose tables go by the same names but for `y` in places of `x`, and whose items are
not told apart by a statement. The condition on the whole query may be any. -/
structure Reworded (n : Naming) (x y : String) (q q' : Query) : Prop where
  outline : { q'.outline with globalFilter := none } = { q.outline with globalFilter := none }
  constants : q'.constants = q.constants
  itemsOf : ∀ c, q'.itemsOf c = q.itemsOf c
  items : ∀ i, Option.Rel (Item.ReadsLike n) (q.item? i) (q'.item? i)
  tables : ∀ t ∈ q.tables, RenamesTable n x y 0 q q' t

theorem Owned.renamesTable_of_eq {n : Naming} {q q' : Query} {t : ContainerId} (h : q.Owned)
    (ht : t ∈ q.tables) (heq : q'.container? t = q.container? t) : RenamesTable n x y 0 q q' t := by
  obtain ⟨c, hc⟩ := h.container?_of_table ht
  exact ⟨c, c, hc, heq.trans hc, rfl, .same x y _⟩

namespace Reworded

variable {n : Naming} {q q' : Query} {i : ItemId} {j : JoinId} {c t : ContainerId}
variable {item item' : Item} {ids : List ItemId} (h : Reworded n x y q q')

include h

theorem tables_eq : q'.tables = q.tables := congrArg Outline.tables h.outline

theorem selected_eq : q'.selected = q.selected := congrArg Outline.selected h.outline

theorem sortList_eq : q'.sortList = q.sortList := congrArg Outline.sortList h.outline

theorem grouping_eq : q'.grouping = q.grouping := congrArg Outline.grouping h.outline

theorem handWritten_eq : q'.handWritten = q.handWritten := congrArg Outline.handWritten h.outline

theorem join?_eq : q'.join? = q.join? := by
  have hjoins : q'.joins = q.joins := congrArg Outline.joins h.outline
  funext j
  rw [join?, hjoins, join?]

theorem joinsOf_eq : q'.joinsOf = q.joinsOf := by
  have hincidence : q'.incidence = q.incidence := congrArg Outline.incidence h.outline
  funext c
  rw [joinsOf, hincidence, joinsOf]

theorem home?_eq (i : ItemId) : q'.home? i = q.home? i :=
  (eq_of_rel (rel_map (fun _ _ hlike => hlike.container.symm) (h.items i))).symm

theorem ends?_eq : q'.ends? = q.ends? := by
  funext j
  exact ends?_congr (congrFun h.join?_eq j) fun join _ => ⟨h.home?_eq _, h.home?_eq _⟩

theorem layout_eq : q'.finishOrder = q.finishOrder ∧ q'.placements = q.placements :=
  layout_congr h.tables_eq h.join?_eq h.joinsOf_eq h.ends?_eq

theorem item_of (hitem : q.item? i = some item) :
    ∃ item', q'.item? i = some item' ∧ item.ReadsLike n item' := by
  have hrel := h.items i
  rw [hitem] at hrel
  rcases rel_cases hrel with ⟨hnone, -⟩ | ⟨_, item', hsome, hitem', hlike⟩
  · cases hnone
  · cases hsome
    exact ⟨item', hitem', hlike⟩

/-- Items of the inside correspond, in the order of their numbers. -/
theorem resolve (hids : ∀ i ∈ ids, q.isInside i) :
    List.Forall₂ (fun item item' => item.ReadsLike n item' ∧ q.isAttached item.container)
      (q.resolve ids) (q'.resolve ids) := by
  refine List.rel_filterMap (R := fun i i' => i = i' ∧ q.isInside i) ?_
    (List.forall₂_same.2 fun i hi => ⟨rfl, hids i hi⟩)
  rintro i _ ⟨rfl, hi⟩
  rcases rel_cases (h.items i) with ⟨hnone, hnone'⟩ | ⟨item, item', hitem, hitem', hlike⟩
  · rw [hnone, hnone']
    exact .none
  · rw [hitem, hitem']
    exact .some ⟨hlike, isInside_of_item? hitem ▸ hi⟩

/-! ## The FROM clause -/

/-- The comparison of a join between tables names both tables. -/
theorem conditionText? (hj : q.connectsTables j) :
    Option.Rel (Renames x y 0) (q.conditionText? n j) (q'.conditionText? n j) := by
  obtain ⟨u, v, hends, hu, hv⟩ := connectsTables_iff.1 hj
  obtain ⟨join, hjoin, hl, hr⟩ := ends?_eq_some.1 hends
  obtain ⟨left, hleft, rfl⟩ := home?_eq_some.1 hl
  obtain ⟨right, hright, rfl⟩ := home?_eq_some.1 hr
  obtain ⟨left', hleft', hlike⟩ := h.item_of hleft
  obtain ⟨right', hright', hlike'⟩ := h.item_of hright
  obtain ⟨k, k', hk, hk', -, hname⟩ := h.tables _ hu
  obtain ⟨m, m', hm, hm', -, hname'⟩ := h.tables _ hv
  have htext : q.conditionText? n j = some (k.correlationName ++ "." ++ n.item left ++ " " ++
      join.comparator ++ " " ++ m.correlationName ++ "." ++ n.item right) := by
    simp [Query.conditionText?, hjoin, hleft, hright, hk, hm]
  have htext' : q'.conditionText? n j = some (k'.correlationName ++ "." ++ n.item left ++ " " ++
      join.comparator ++ " " ++ m'.correlationName ++ "." ++ n.item right) := by
    simp [Query.conditionText?, h.join?_eq, hjoin, hleft', hright', hlike.container,
      hlike'.container, hk', hm', hlike.spelled, hlike'.spelled]
  rw [htext, htext']
  have hfirst := hname.append (.same x y ("." ++ n.item left ++ " " ++ join.comparator ++ " "))
  have hsecond := hname'.append (.same x y ("." ++ n.item right))
  have hboth := hfirst.append hsecond
  simp only [← String.append_assoc] at hboth
  exact .some hboth

theorem onText {js : List JoinId} (hjs : ∀ j ∈ js, q.connectsTables j) :
    Renames x y 0 (q.onText n js) (q'.onText n js) := by
  have hconditions : List.Forall₂ (Renames x y 0) (js.filterMap (q.conditionText? n))
      (js.filterMap (q'.conditionText? n)) := by
    refine List.rel_filterMap (R := fun j j' => j = j' ∧ q.connectsTables j) ?_
      (List.forall₂_same.2 fun j hj => ⟨rfl, hjs j hj⟩)
    rintro j _ ⟨rfl, hj⟩
    exact h.conditionText? hj
  rw [onText_eq, onText_eq]
  simp only [nil_iff_nil hconditions]
  split
  · exact .same x y _
  · exact .intercalate _ hconditions

omit h in
theorem tableText {k : Nat} {c c' : Container} (htable : n.table c' = n.table c)
    (hname : Renames x y k c.correlationName c'.correlationName) :
    Renames x y k (Query.tableText n c) (Query.tableText n c') := by
  rw [Query.tableText, Query.tableText, htable]
  exact hname.prepend _

theorem placementText {p : Placement} {k : Nat} (hp : RenamesTable n x y k q q' p.table)
    (hjs : ∀ j ∈ p.conditions, q.connectsTables j) :
    Renames x y k (q.placementText n p) (q'.placementText n p) := by
  obtain ⟨c, c', hc, hc', htable, hname⟩ := hp
  unfold Query.placementText
  rw [hc, hc']
  exact (((tableText htable hname).prepend _).append (.same x y " \n  ON ")).append
    (h.onText hjs)

theorem firstTableText {k : Nat} (hfirst : q.finishOrder.head? = some t)
    (htable : RenamesTable n x y k q q' t) :
    Renames x y k (q.firstTableText n) (q'.firstTableText n) := by
  obtain ⟨c, c', hc, hc', hspelled, hname⟩ := htable
  unfold Query.firstTableText
  rw [h.layout_eq.1, hfirst, Option.bind_some, Option.bind_some, hc, hc']
  exact (tableText hspelled hname).prepend " "

/-- The name of a table stands at least once in the FROM clause. -/
theorem fromClause_of_table {k : Nat} (hi : q.Indexed) (hnodup : q.tables.Nodup)
    (ht : t ∈ q.tables) (htable : RenamesTable n x y k q q' t) :
    Renames x y k (q.fromClause n) (q'.fromClause n) := by
  have hne : q.tables ≠ [] := List.ne_nil_of_mem ht
  have hmem : ∀ u, u ∈ q.finishOrder ↔ u ∈ q.tables := fun _ =>
    (finishOrder_perm_tables hnodup).mem_iff
  have hplaced : ∀ p ∈ q.placements,
      Renames x y 0 (q.placementText n p) (q'.placementText n p) := by
    intro p hp
    obtain ⟨hp', hjs⟩ := hi.of_placement hnodup hp
    exact h.placementText (h.tables _ hp') hjs
  rw [Query.fromClause, if_neg hne, Query.fromClause, if_neg (h.tables_eq ▸ hne), h.layout_eq.2]
  cases horder : q.finishOrder with
  | nil => exact absurd ((hmem t).2 ht) (horder ▸ List.not_mem_nil)
  | cons first rest =>
    have hhead : q.finishOrder.head? = some first := by rw [horder, List.head?_cons]
    have htail : q.placements.map Placement.table = rest := by
      rw [tables_placements, horder, List.tail_cons]
    rcases List.mem_cons.1 (horder ▸ (hmem t).2 ht) with rfl | hrest
    · exact ((h.firstTableText hhead htable).prepend _).append (.join hplaced)
    · rw [← htail] at hrest
      obtain ⟨p, hp, rfl⟩ := List.mem_map.1 hrest
      have hfirst : first ∈ q.tables := (hmem first).1 (horder ▸ List.mem_cons_self)
      have hplaces := Renames.join_of_mem hplaced hp
        (h.placementText htable (hi.of_placement hnodup hp).2)
      have hstart := (h.firstTableText hhead (h.tables first hfirst)).prepend " \nFROM"
      have hall := hstart.append hplaces
      rwa [Nat.zero_add] at hall

theorem fromClause (hi : q.Indexed) (hnodup : q.tables.Nodup) :
    Renames x y 0 (q.fromClause n) (q'.fromClause n) := by
  cases htables : q.tables with
  | nil =>
    rw [Query.fromClause, if_pos htables, Query.fromClause, if_pos (h.tables_eq.trans htables)]
    exact .same x y ""
  | cons t rest =>
    have ht : t ∈ q.tables := htables ▸ List.mem_cons_self
    exact h.fromClause_of_table hi hnodup ht (h.tables t ht)

variable (ho : q.Owned) (ho' : q'.Owned)

include ho ho'

/-! ## Names -/

theorem qualifier (hc : q.isAttached c) : Renames x y 0 (q.qualifier c) (q'.qualifier c) := by
  rcases (q.isAttached_iff c).1 hc with hconst | htable
  · rw [Query.qualifier, if_pos hconst, Query.qualifier, if_pos (hconst.trans h.constants.symm)]
    exact .same x y ""
  · obtain ⟨k, k', hk, hk', -, hname⟩ := h.tables c htable
    obtain ⟨_, hsome, hqualifier⟩ := ho.qualifier_of_table htable
    obtain ⟨_, hsome', hqualifier'⟩ := ho'.qualifier_of_table (h.tables_eq ▸ htable)
    cases hk.symm.trans hsome
    cases hk'.symm.trans hsome'
    rw [hqualifier, hqualifier']
    exact hname.append (.same x y ".")

theorem columnText (hlike : item.ReadsLike n item') (hc : q.isAttached item.container) :
    Renames x y 0 (q.columnText n item) (q'.columnText n item') := by
  rw [Query.columnText, Query.columnText, hlike.container, hlike.spelled]
  exact (h.qualifier ho ho' hc).append (.same x y _)

theorem expression (wrap : Bool) (hlike : item.ReadsLike n item')
    (hc : q.isAttached item.container) :
    Renames x y 0 (q.expression n wrap item) (q'.expression n wrap item') := by
  have hcolumn := h.columnText ho ho' hlike hc
  unfold Query.expression
  rw [hlike.kind, hlike.name, hlike.groupRole]
  split
  · exact .same x y _
  · split
    · split
      · exact (hcolumn.prepend _).append (.same x y ")")
      · exact hcolumn
    · exact hcolumn

/-! ## The clauses -/

theorem selectClause (hids : ∀ i ∈ q.selected, q.isInside i) :
    Renames x y 0 (q.selectClause n) (q'.selectClause n) := by
  have hentries : List.Forall₂ (Renames x y 0) ((q.resolve q.selected).map (q.selectEntry n))
      ((q'.resolve q.selected).map (q'.selectEntry n)) := by
    refine List.rel_map ?_ (h.resolve hids)
    rintro item item' ⟨hlike, hc⟩
    rw [selectEntry, selectEntry, h.grouping_eq, hlike.activeAlias?]
    exact (h.expression ho ho' _ hlike hc).append (.same x y _)
  rw [Query.selectClause, Query.selectClause, h.selected_eq]
  exact (Renames.clause " " ", " hentries).prepend "SELECT"

theorem groupByClause (hids : ∀ i ∈ q.selected, q.isInside i) :
    Renames x y 0 (q.groupByClause n) (q'.groupByClause n) := by
  have hkeys : List.Forall₂ (fun item item' => item.ReadsLike n item' ∧ q.isAttached item.container)
      ((q.resolve q.selected).filter isGrouped) ((q'.resolve q.selected).filter isGrouped) := by
    refine forall₂_filter ?_ (h.resolve hids)
    rintro item item' ⟨hlike, -⟩
    rw [isGrouped, isGrouped, hlike.kind, hlike.groupRole]
  rw [Query.groupByClause, Query.groupByClause, h.selected_eq]
  refine .clause _ _ (List.rel_map ?_ hkeys)
  rintro item item' ⟨hlike, hc⟩
  exact h.columnText ho ho' hlike hc

theorem havingClause (hids : ∀ i ∈ q.selected, q.isInside i) :
    Renames x y 0 (q.havingClause n) (q'.havingClause n) := by
  rw [Query.havingClause, Query.havingClause, h.selected_eq]
  refine .clause _ _ (List.rel_filterMap ?_ (h.resolve hids))
  rintro item item' ⟨hlike, hc⟩
  rw [havingText?, havingText?, hlike.activeHaving?]
  cases item.activeHaving? with
  | none => exact .none
  | some condition =>
    exact .some (((h.expression ho ho' true hlike hc).append (.same x y " ")).append
      (.same x y condition))

theorem orderByClause (hids : ∀ i ∈ q.sortList, q.isInside i) :
    Renames x y 0 (q.orderByClause n) (q'.orderByClause n) := by
  have hsorted : List.Forall₂ (fun item item' => item.ReadsLike n item' ∧
        q.isAttached item.container)
      ((q.resolve q.sortList).filter isSortable) ((q'.resolve q.sortList).filter isSortable) := by
    refine forall₂_filter ?_ (h.resolve hids)
    rintro item item' ⟨hlike, -⟩
    rw [isSortable, isSortable, hlike.kind]
  rw [Query.orderByClause, Query.orderByClause, h.sortList_eq]
  refine .clause _ _ (List.rel_map ?_ hsorted)
  rintro item item' ⟨hlike, hc⟩
  rw [orderByEntry, orderByEntry, h.grouping_eq, hlike.sortOrder]
  exact ((h.expression ho ho' _ hlike hc).append (.same x y " ")).append (.same x y _)

theorem filterTexts : List.Forall₂ (Renames x y 0) (q.filterTexts n) (q'.filterTexts n) := by
  have hcandidates : q'.filterCandidates = q.filterCandidates := by
    rw [filterCandidates, filterCandidates, h.constants, h.tables_eq]
    exact List.flatMap_congr fun c _ => h.itemsOf c
  have hinside : ∀ i ∈ q.filterCandidates, q.isInside i := fun i hi =>
    isInside_iff.2 (ho.mem_filterCandidates.1 hi)
  rw [Query.filterTexts, Query.filterTexts, hcandidates]
  refine List.rel_filterMap ?_ (h.resolve hinside)
  rintro item item' ⟨hlike, hc⟩
  rw [filterText?, filterText?, hlike.activeFilter?]
  cases item.activeFilter? with
  | none => exact .none
  | some condition =>
    exact .some (((h.columnText ho ho' hlike hc).append (.same x y " ")).append
      (.same x y condition))

theorem whereClause (hglobal : Text.nonEmpty? q'.globalFilter = Text.nonEmpty? q.globalFilter) :
    Renames x y 0 (q.whereClause n) (q'.whereClause n) := by
  have hfilters := h.filterTexts ho ho'
  unfold Query.whereClause
  simp only [hglobal, nil_iff_nil hfilters]
  exact (Renames.clause _ _ hfilters).append (.same x y _)

/-! ## The statement -/

end Reworded

section Statement

variable {n : Naming} {q q' : Query} {t : ContainerId} {k : Nat}
variable (hw : q.WellFormed) (hw' : q'.WellFormed)

include hw hw'

theorem Reworded.statement (h : Reworded n x y q q')
    (hglobal : Text.nonEmpty? q'.globalFilter = Text.nonEmpty? q.globalFilter)
    (hfrom : Renames x y k (q.fromClause n) (q'.fromClause n)) :
    Renames x y k (q.statement n) (q'.statement n) := by
  have hselected : ∀ i ∈ q.selected, q.isInside i := fun _ => hw.listed.selected.isInside
  have hsorted : ∀ i ∈ q.sortList, q.isInside i := fun _ => hw.listed.sortList.isInside
  have hselect := h.selectClause hw.owned hw'.owned hselected
  have hwhere := h.whereClause hw.owned hw'.owned hglobal
  have hgroup := h.groupByClause hw.owned hw'.owned hselected
  have hhaving := h.havingClause hw.owned hw'.owned hselected
  have horder := h.orderByClause hw.owned hw'.owned hsorted
  have hgroups : Renames x y 0
      (if q.grouping then q.groupByClause n ++ " " ++ q.havingClause n ++ " " else "")
      (if q'.grouping then q'.groupByClause n ++ " " ++ q'.havingClause n ++ " " else "") := by
    rw [h.grouping_eq]
    split
    · exact ((hgroup.append (.same x y " ")).append hhaving).append (.same x y " ")
    · exact .same x y ""
  have hall := ((((hselect.append hfrom).append (.same x y " ")).append hwhere).append
    hgroups).append horder
  rwa [Nat.zero_add] at hall

/-- When only the name of a table changes, the statement stays the same just if the name does. -/
theorem Reworded.textWith_eq_iff (h : Reworded n x y q q')
    (hglobal : Text.nonEmpty? q'.globalFilter = Text.nonEmpty? q.globalFilter)
    (ht : t ∈ q.tables) (htable : RenamesTable n x y 1 q q' t) (hhand : q.handWritten = none)
    (hselected : q.selected ≠ []) : q'.textWith n = q.textWith n ↔ x = y := by
  have hfrom := h.fromClause_of_table hw.indexed hw.owned.nodup_tables ht htable
  rw [textWith_eq_statement hhand hselected,
    textWith_eq_statement (h.handWritten_eq.trans hhand) (h.selected_eq ▸ hselected), eq_comm]
  exact (h.statement hw hw' hglobal hfrom).eq_iff

/-- When no table changes its name, all clauses but WHERE stay the same. -/
theorem Reworded.textWith_eq_iff_whereClause (h : Reworded n x x q q')
    (hhand : q.handWritten = none) (hselected : q.selected ≠ []) :
    q'.textWith n = q.textWith n ↔ q'.whereClause n = q.whereClause n := by
  have hinside : ∀ i ∈ q.selected, q.isInside i := fun _ => hw.listed.selected.isInside
  have hsorted : ∀ i ∈ q.sortList, q.isInside i := fun _ => hw.listed.sortList.isInside
  rw [textWith_eq_statement hhand hselected,
    textWith_eq_statement (h.handWritten_eq.trans hhand) (h.selected_eq ▸ hselected),
    Query.statement, Query.statement, h.grouping_eq,
    (h.selectClause hw.owned hw'.owned hinside).eq_of_same,
    (h.fromClause hw.indexed hw.owned.nodup_tables).eq_of_same,
    (h.groupByClause hw.owned hw'.owned hinside).eq_of_same,
    (h.havingClause hw.owned hw'.owned hinside).eq_of_same,
    (h.orderByClause hw.owned hw'.owned hsorted).eq_of_same]
  simp only [String.append_left_inj, String.append_right_inj]

/-- When neither a table changes its name nor the condition on the query, nothing shows. -/
theorem Reworded.textWith_eq (h : Reworded n x x q q')
    (hglobal : Text.nonEmpty? q'.globalFilter = Text.nonEmpty? q.globalFilter)
    (hhand : q.handWritten = none) (hselected : q.selected ≠ []) :
    q'.textWith n = q.textWith n :=
  (h.textWith_eq_iff_whereClause hw hw' hhand hselected).2
    (h.whereClause hw.owned hw'.owned hglobal).eq_of_same.symm

end Statement

end Query

end LiveSelect
