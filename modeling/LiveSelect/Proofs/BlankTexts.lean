import LiveSelect.Proofs.Cancelling
import LiveSelect.Proofs.Lookup
import LiveSelect.Proofs.Renaming

/-! # Blank texts

Five texts of a query may be left out: the alias of an item, its filter and the condition on its
groups, the condition on the whole query, and the alias of a table. A text of white space alone
says nothing, and in an item it counts as left out. The condition on the query and the alias of a
table count as left out only when they are empty. A blank condition is written with its keyword,
and a table with a blank alias goes by a blank name, which stands before all of its columns. -/

namespace LiveSelect

/-! ## Texts that may be left out -/

/-- The texts of an item that may be left out. -/
inductive ItemText where
  | aliasName
  | filter
  | having
deriving DecidableEq

namespace ItemText

def read : ItemText → Item → Option String
  | .aliasName, item => item.aliasName
  | .filter, item => item.filter
  | .having, item => item.having

def drop : ItemText → Item → Item
  | .aliasName, item => { item with aliasName := none }
  | .filter, item => { item with filter := none }
  | .having, item => { item with having := none }

/-- The property that is announced when the text changes. -/
def property : ItemText → ItemProperty
  | .aliasName => .aliasName
  | .filter => .filter
  | .having => .having

variable {part : ItemText} {item : Item} {text : String}

theorem property_read_ne_drop (h : part.read item = some text) :
    part.property.read item ≠ part.property.read (part.drop item) := by
  cases part <;> simp_all [read, drop, property, ItemProperty.aliasName, ItemProperty.filter,
    ItemProperty.having]

theorem property_follow (part : ItemText) (q : Query) (i : ItemId) :
    part.property.follow q i = q := by
  cases part <;> rfl

end ItemText

/-- The texts of a query that may be left out. -/
inductive OptionalText where
  | ofItem (part : ItemText) (item : ItemId)
  | globalFilter
  | tableAlias (table : ContainerId)
deriving DecidableEq

/-- The operation that leaves a text out. -/
def OptionalText.unset : OptionalText → Operation
  | .ofItem .aliasName i => .setItemAlias i none
  | .ofItem .filter i => .setFilter i none
  | .ofItem .having i => .setHaving i none
  | .globalFilter => .setGlobalFilter none
  | .tableAlias c => .setContainerAlias c none

namespace Query

/-- The text at one of the places where it may be left out. -/
def optionalText? (q : Query) : OptionalText → Option String
  | .ofItem part i => (q.item? i).bind part.read
  | .globalFilter => q.globalFilter
  | .tableAlias c => (q.container? c).bind (·.aliasName)

/-- The query with one of the texts left out. -/
def without (q : Query) : OptionalText → Query
  | .ofItem part i => q.updateItem i part.drop
  | .globalFilter => { q with globalFilter := none }
  | .tableAlias c => q.updateContainer c ({ · with aliasName := none })

/-- Whether a blank text is written in a statement: as the condition on the query, or as the name
of a table that has another name of its own. -/
def showsBlank (q : Query) (text : String) : OptionalText → Bool
  | .ofItem _ _ => false
  | .globalFilter => text ≠ ""
  | .tableAlias c => text ≠ "" && q.tables.contains c && q.containerHas (·.name ≠ text) c

end Query

/-- A container without a blank alias. -/
def Container.withoutBlanks (k : Container) : Container :=
  { k with aliasName := Text.nonBlank? k.aliasName }

/-- A naming that spells an item or a table alike whether a blank text is left out or not. -/
structure Naming.OverlooksBlanks (n : Naming) : Prop where
  item : ∀ item : Item, n.item item.withoutBlanks = n.item item
  table : ∀ k : Container, n.table k.withoutBlanks = n.table k

theorem Naming.OverlooksBlanks.readsLike {n : Naming} {item item' : Item} (hn : n.OverlooksBlanks)
    (hparts : item'.withoutBlanks = item.withoutBlanks) : item.ReadsLike n item' where
  spelled := by rw [← hn.item, hparts, hn.item]
  parts := hparts

theorem Naming.plain_overlooksBlanks : Naming.plain.OverlooksBlanks where
  item _ := rfl
  table _ := rfl

theorem Dialect.naming_overlooksBlanks (d : Dialect) : d.naming.OverlooksBlanks where
  item _ := rfl
  table _ := rfl

/-- A blank text counts as none. -/
theorem Text.nonBlank?_of_isBlank {text : String} (h : isBlank text) :
    nonBlank? (some text) = nonBlank? none :=
  Option.filter_eq_none_iff.2 fun _ hsome => by simp [← Option.some_inj.1 hsome, h]

/-- An item without blank texts is the same when one of them was left out before. -/
theorem ItemText.withoutBlanks_drop {part : ItemText} {item : Item} {text : String}
    (h : part.read item = some text) (hblank : Text.isBlank text) :
    (part.drop item).withoutBlanks = item.withoutBlanks := by
  have hnone : Text.nonBlank? (part.read item) = Text.nonBlank? none := by
    rw [h, Text.nonBlank?_of_isBlank hblank]
  cases part <;> simp only [read] at hnone <;>
    simp only [Item.withoutBlanks, Item.activeAlias?, Item.activeFilter?, Item.activeHaving?, drop,
      hnone]

namespace Container

variable {k : Container} {text : String}

/-- A container keeps its name when its alias is left out just if the alias is empty or is that
name. -/
theorem correlationName_eq_name_iff (h : k.aliasName = some text) :
    k.correlationName = k.name ↔ text = "" ∨ k.name = text := by
  by_cases hempty : text = ""
  · have hnone : k.activeAlias? = none := by
      rw [activeAlias?, h, hempty]
      rfl
    simp [hempty, correlationName_of_no_alias hnone]
  · rw [correlationName_of_alias (activeAlias?_eq_some.2 ⟨h, hempty⟩), or_iff_right hempty, eq_comm]

end Container

namespace Query

variable {q : Query} {n : Naming} {i : ItemId} {c : ContainerId} {k : Container}
variable {text x y : String}

/-! ## Leaving a text out -/

/-- A text that is given can be left out, and nothing else is changed. -/
theorem perform_unset {s : OptionalText} (hs : q.optionalText? s = some text) :
    ∃ e, q.perform s.unset = .ok (.done, e) ∧ e.query = q.without s := by
  cases s with
  | ofItem part i =>
    obtain ⟨item, hitem, htext⟩ := Option.bind_eq_some_iff.1 hs
    obtain ⟨e, he, hquery⟩ := changeItem_of_ne hitem (part.property_read_ne_drop htext)
    rw [part.property_follow, ite_self] at hquery
    refine ⟨e, ?_, hquery⟩
    cases part <;> exact congrArg Outcome.ofEdit he
  | globalFilter => exact ⟨_, rfl, setGlobalFilter_query q none⟩
  | tableAlias c =>
    obtain ⟨k, hk, -⟩ := Option.bind_eq_some_iff.1 hs
    refine ⟨.start (q.without (.tableAlias c)), ?_, rfl⟩
    have hknown : q.containers.contains c := (q.containers.contains_iff c).2 ⟨k, hk⟩
    simp [perform, OptionalText.unset, setContainerAlias, hknown, Outcome.ofEdit, Except.map,
      without]

/-! ## Texts of items -/

/-- An item that loses blank texts only reads as before. -/
theorem Owned.reworded_updateItem (h : q.Owned) (hn : n.OverlooksBlanks) {f : Item → Item}
    (hf : ∀ item, q.item? i = some item → (f item).withoutBlanks = item.withoutBlanks) :
    Reworded n x x q (q.updateItem i f) where
  outline := rfl
  constants := rfl
  itemsOf _ := rfl
  items k := by
    rw [WellFormed.item?_updateItem]
    cases hitem : q.item? k with
    | none => simp
    | some item =>
      split
      · rename_i hk
        exact .some (hn.readsLike (hf item (hk ▸ hitem)))
      · exact .some (.refl n item)
  tables _ ht := h.renamesTable_of_eq ht rfl

/-! ## The alias of a table -/

theorem container?_updateContainer_self (hk : q.container? c = some k) (f : Container → Container) :
    (q.updateContainer c f).container? c = some (f k) := by
  simp only [container?, updateContainer, IdMap.get?_modify, if_pos]
  exact congrArg (Option.map f) hk

/-- A container that loses a blank alias has another name at most. -/
theorem Owned.reworded_updateContainer (h : q.Owned) (hn : n.OverlooksBlanks)
    (hk : q.container? c = some k) {f : Container → Container}
    (hf : (f k).withoutBlanks = k.withoutBlanks)
    (hname : c ∈ q.tables → Renames x y 0 k.correlationName (f k).correlationName) :
    Reworded n x y q (q.updateContainer c f) where
  outline := rfl
  constants := rfl
  itemsOf d := by
    rw [itemsOf_updateContainer]
    split
    · rename_i hd
      have hitems : (f k).items = k.items := (congrArg Container.items hf :)
      rw [hd, hk, itemsOf, hk, Option.map_some, Option.map_some, hitems]
    · rfl
  items i := Item.ReadsLike.rel_refl n (q.item? i)
  tables t ht := by
    by_cases htc : t = c
    · subst htc
      refine ⟨k, f k, hk, container?_updateContainer_self hk f, ?_, hname ht⟩
      rw [← hn.table, hf, hn.table]
    · exact h.renamesTable_of_eq ht ((IdMap.get?_modify _ _ _ _).trans (if_neg htc))

/-! ## The condition on the query -/

theorem Owned.reworded_globalFilter (h : q.Owned) (n : Naming) (x : String)
    (condition : Option String) : Reworded n x x q { q with globalFilter := condition } where
  outline := rfl
  constants := rfl
  itemsOf _ := rfl
  items i := Item.ReadsLike.rel_refl n (q.item? i)
  tables _ ht := h.renamesTable_of_eq ht rfl

/-- A condition on the query adds to the clause unless it is empty. -/
theorem whereText_none_eq_iff (filters : List String) (text : String) :
    whereText filters none = whereText filters (some text) ↔ text = "" := by
  constructor
  · intro heq
    by_contra hempty
    have hgiven : Text.nonEmpty? (some text) = some text := by simp [Text.nonEmpty?, hempty]
    rw [whereText, whereText, hgiven, String.append_right_inj] at heq
    exact hempty (String.append_eq_empty_iff.1 heq.symm).2
  · rintro rfl
    rfl

/-! ## What shows -/

section Shows

variable (hw : q.WellFormed) (hn : n.OverlooksBlanks) (hhand : q.handWritten = none)
  (hselected : q.selected ≠ [])

include hw hn hhand hselected

/-- A blank text of an item never shows. -/
theorem textWith_without_ofItem {part : ItemText} (hw' : (q.without (.ofItem part i)).WellFormed)
    (hs : q.optionalText? (.ofItem part i) = some text) (hblank : Text.isBlank text) :
    (q.without (.ofItem part i)).textWith n = q.textWith n := by
  have hreworded : Reworded n "" "" q (q.without (.ofItem part i)) := by
    refine hw.owned.reworded_updateItem hn fun item hitem => ?_
    obtain ⟨item', hitem', htext⟩ := Option.bind_eq_some_iff.1 hs
    cases hitem.symm.trans hitem'
    exact ItemText.withoutBlanks_drop htext hblank
  exact hreworded.textWith_eq hw hw' rfl hhand hselected

/-- A blank alias shows if its table is in the statement and goes by another name without it. -/
theorem textWith_without_tableAlias_iff (hw' : (q.without (.tableAlias c)).WellFormed)
    (hk : q.container? c = some k) (halias : k.aliasName = some text) (hblank : Text.isBlank text) :
    (q.without (.tableAlias c)).textWith n = q.textWith n ↔
      ¬ (text ≠ "" ∧ c ∈ q.tables ∧ k.name ≠ text) := by
  let k' : Container := { k with aliasName := none }
  have hparts : k'.withoutBlanks = k.withoutBlanks := by
    rw [Container.withoutBlanks, Container.withoutBlanks, halias, Text.nonBlank?_of_isBlank hblank]
  by_cases htable : c ∈ q.tables
  -- The FROM clause names the table, so the text stays the same only if the name does.
  · have hrenames : Renames k.correlationName k.name 1 k.correlationName k'.correlationName :=
      .name _ _
    have hreworded : Reworded n _ _ q (q.without (.tableAlias c)) :=
      hw.owned.reworded_updateContainer hn hk hparts fun _ => hrenames.mono (Nat.zero_le 1)
    have hspelled : n.table k' = n.table k := by rw [← hn.table, hparts, hn.table]
    have hrenamed : RenamesTable n _ _ 1 q (q.without (.tableAlias c)) c :=
      ⟨k, k', hk, container?_updateContainer_self hk _, hspelled, hrenames⟩
    rw [hreworded.textWith_eq_iff hw hw' rfl htable hrenamed hhand hselected,
      Container.correlationName_eq_name_iff halias]
    tauto
  -- No clause names a table outside of the FROM clause.
  · refine iff_of_true ?_ fun hshown => htable hshown.2.1
    exact (hw.owned.reworded_updateContainer (x := "") hn hk hparts
      fun ht => absurd ht htable).textWith_eq hw hw' rfl hhand hselected

omit hn in
theorem textWith_without_globalFilter_iff (n : Naming) (hw' : (q.without .globalFilter).WellFormed)
    (hgiven : q.globalFilter = some text) :
    (q.without .globalFilter).textWith n = q.textWith n ↔ text = "" := by
  have hreworded : Reworded n "" "" q (q.without .globalFilter) :=
    hw.owned.reworded_globalFilter n "" none
  rw [hreworded.textWith_eq_iff_whereClause hw hw' hhand hselected, whereClause_eq, whereClause_eq,
    hgiven]
  exact whereText_none_eq_iff _ _

end Shows

/-- In a reachable query without a text written by hand, a blank text can be left out wherever it
stands, with any naming that overlooks blank texts, and the text of the query stays the same unless
the blank text shows: where something is selected, a condition on the query shows unless it is
empty, and so does the alias of a table of the query unless it is empty or the name of the table. -/
theorem Reachable.blank_unset_iff (h : q.Reachable) (hhand : q.handWritten = none)
    (hn : n.OverlooksBlanks) {s : OptionalText} (hs : q.optionalText? s = some text)
    (hblank : Text.isBlank text) :
    ∃ e, q.perform s.unset = .ok (.done, e) ∧ e.query = q.without s ∧
      (e.query.textWith n = q.textWith n ↔ ¬ (q.selected ≠ [] ∧ q.showsBlank text s)) := by
  obtain ⟨e, he, hquery⟩ := perform_unset hs
  refine ⟨e, he, hquery, ?_⟩
  have hw := h.wellFormed
  have hw' : (q.without s).WellFormed := hquery ▸ hw.perform h.count_lt he
  rw [hquery]
  by_cases hselected : q.selected = []
  -- Where nothing is selected, there is no statement in which anything could show.
  · have hempty : ∀ q' : Query, q'.handWritten = none → q'.selected = [] → q'.textWith n = "" := by
      intro q' hhand' hselected'
      rw [textWith, hhand', Option.getD_none, derivedText, if_pos hselected']
    refine iff_of_true ?_ fun hshown => hshown.1 hselected
    rw [hempty q hhand hselected]
    cases s <;> exact hempty _ hhand hselected
  · rw [and_iff_right hselected]
    cases s with
    | ofItem part i =>
      exact iff_of_true (textWith_without_ofItem hw hn hhand hselected hw' hs hblank)
        (by simp [showsBlank])
    | globalFilter =>
      rw [textWith_without_globalFilter_iff hw hhand hselected n hw' hs]
      simp [showsBlank]
    | tableAlias c =>
      obtain ⟨k, hk, halias⟩ := Option.bind_eq_some_iff.1 hs
      rw [textWith_without_tableAlias_iff hw hn hhand hselected hw' hk halias hblank]
      simp [showsBlank, containerHas, hk, and_assoc]

/-- Two joined tables with a blank text at each kind of place where one can be. -/
def blankTexts : Query :=
  [ .setItemAlias (.ofCount 6) (some " "), .setFilter (.ofCount 7) (some "\t"),
    .setHaving (.ofCount 6) (some "  "), .setGlobalFilter (some "   "),
    .setContainerAlias (.ofCount 4) (some " ") ].foldl after joinedTables

theorem blankTexts_reachable : blankTexts.Reachable :=
  joinedTables_reachable.foldl_after _ (by decide +kernel)

/-- The blank texts of the items can be left out, and the condition and the alias cannot. -/
theorem blankTexts_unset :
    blankTexts.Reachable ∧ blankTexts.handWritten = none ∧ Naming.plain.OverlooksBlanks ∧
      (∀ s ∈ [.ofItem .aliasName (.ofCount 6), .ofItem .filter (.ofCount 7),
          .ofItem .having (.ofCount 6)],
        (blankTexts.without s).textWith .plain = blankTexts.textWith .plain) ∧
      ∀ s ∈ [.globalFilter, .tableAlias (.ofCount 4)],
        (blankTexts.without s).textWith .plain ≠ blankTexts.textWith .plain := by
  have hhand : blankTexts.handWritten = none := by decide +kernel
  have hunset : ∀ {s} text, blankTexts.optionalText? s = some text → Text.isBlank text →
      ((blankTexts.without s).textWith .plain = blankTexts.textWith .plain ↔
        ¬ (blankTexts.selected ≠ [] ∧ blankTexts.showsBlank text s)) := by
    intro s text hs hblank
    obtain ⟨e, -, hquery, hiff⟩ :=
      blankTexts_reachable.blank_unset_iff hhand Naming.plain_overlooksBlanks hs hblank
    rwa [hquery] at hiff
  refine ⟨blankTexts_reachable, hhand, Naming.plain_overlooksBlanks, ?_, ?_⟩
  · intro s hs
    simp only [List.mem_cons, List.not_mem_nil, or_false] at hs
    obtain rfl | rfl | rfl := hs
    · exact (hunset " " (by decide +kernel) (by decide)).2 (by decide +kernel)
    · exact (hunset "\t" (by decide +kernel) (by decide)).2 (by decide +kernel)
    · exact (hunset "  " (by decide +kernel) (by decide)).2 (by decide +kernel)
  · intro s hs heq
    simp only [List.mem_cons, List.not_mem_nil, or_false] at hs
    obtain rfl | rfl := hs
    · exact (hunset "   " (by decide +kernel) (by decide)).1 heq (by decide +kernel)
    · exact (hunset " " (by decide +kernel) (by decide)).1 heq (by decide +kernel)

/-- A blank condition leaves its keyword behind, and a blank alias the dot behind it. -/
theorem blank_shows :
    (blankTexts.textWith .plain = "SELECT  .x \nFROM a   \nINNER JOIN b b \n  ON  .x = b.y " ++
        " \nWHERE     \nORDER BY b.y ASC ") ∧
    (¬ ∀ (q : Query) (n : Naming) (text : String), q.Reachable → q.handWritten = none →
      n.OverlooksBlanks → q.optionalText? .globalFilter = some text → Text.isBlank text →
        (q.without .globalFilter).textWith n = q.textWith n) ∧
    ¬ ∀ (q : Query) (n : Naming) (c : ContainerId) (text : String), q.Reachable →
      q.handWritten = none → n.OverlooksBlanks → q.optionalText? (.tableAlias c) = some text →
        Text.isBlank text → (q.without (.tableAlias c)).textWith n = q.textWith n := by
  refine ⟨by decide +kernel, ?_, ?_⟩
  · intro hall
    have hsame := hall blankTexts .plain "   " blankTexts_reachable (by decide +kernel)
      Naming.plain_overlooksBlanks (by decide +kernel) (by decide)
    exact absurd hsame (by decide +kernel)
  · intro hall
    have hsame := hall blankTexts .plain (.ofCount 4) " " blankTexts_reachable (by decide +kernel)
      Naming.plain_overlooksBlanks (by decide +kernel) (by decide)
    exact absurd hsame (by decide +kernel)

end Query

end LiveSelect
