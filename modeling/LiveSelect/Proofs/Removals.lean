import LiveSelect.Proofs.Consistency
import LiveSelect.Proofs.Unseen

/-! # What removals take along

An item, a table, a join and the container of constants can be taken from a query. What
depends on them goes as well, and is found through the index of joins and the lists of
containers. What goes is stated here without these, from the records alone; the query that is
left is the old one with just that filtered out, wherever it stood. -/

namespace LiveSelect

/-- What goes from a query, described by the query before. -/
structure Removal where
  /-- The items that are forgotten. -/
  item : ItemId → Bool := fun _ => false
  /-- The joins that are forgotten. -/
  join : JoinId → Bool := fun _ => false
  /-- The items that leave the selection and the sort list. -/
  listed : ItemId → Bool := fun _ => false
  /-- The containers that are no longer tables of the statement. -/
  table : ContainerId → Bool := fun _ => false
  /-- The container that takes the place of the constants, if these are removed. -/
  renewal? : Option Container := none

namespace Removal

variable (r : Removal)

/-- A container without the items that are forgotten. -/
def strip (k : Container) : Container := { k with items := k.items.filter (!r.item ·) }

/-- What becomes of the container with a given number. -/
def container? (q : Query) (c : ContainerId) : Option Container :=
  match r.renewal? with
  | none => (q.container? c).map r.strip
  | some new =>
    if c = q.nextId then some new
    else if c = q.constants then none
    else (q.container? c).map r.strip

end Removal

namespace Query

variable {q q' : Query} {r : Removal} {c : ContainerId} {i : ItemId}

/-- What an operation takes from a query if it goes through; only removals take anything. -/
def removal? (q : Query) : Operation → Option Removal
  | .removeItem i => some
    { item := (· = i)
      join := fun j => (q.join? j).any (·.uses i)
      listed := (· = i) }
  | .removeTable c => some
    { join := q.touches c
      listed := fun i => q.home? i = some c
      table := (· = c) }
  | .removeJoin j => some { join := (· = j) }
  | .newConstants uuid => some
    { item := fun i => q.home? i = some q.constants
      join := q.touches q.constants
      listed := fun i => q.home? i = some q.constants
      renewal? := some (.ofConstants uuid) }
  | _ => none

/-- The name, the texts and the settings of a query. -/
def properties (q : Query) :=
  (q.uuid, q.name, q.globalFilter, q.grouping, q.handWritten, q.canExecute, q.rowLimit,
    q.streamingRowLimit, q.streaming, q.zoomLevel, q.dialect)

/-- What is left of a query after a removal: every part of it is given by the query before. -/
structure Loses (q : Query) (r : Removal) (q' : Query) : Prop where
  items : ∀ i, q'.item? i = if r.item i then none else q.item? i
  joins : ∀ j, q'.join? j = if r.join j then none else q.join? j
  containers : ∀ c, q'.container? c = r.container? q c
  selected : q'.selected = q.selected.filter (!r.listed ·)
  sortList : q'.sortList = q.sortList.filter (!r.listed ·)
  tables : q'.tables = q.tables.filter (!r.table ·)
  joinsOf : ∀ c, q'.joinsOf c = (q.joinsOf c).filter (!r.join ·)
  no_empty : ∀ c, q'.incidence.get? c ≠ some []
  constants : q'.constants = if r.renewal?.isSome then q.nextId else q.constants
  count : q'.count = if r.renewal?.isSome then q.count + 1 else q.count
  properties : q'.properties = q.properties

/-! ## Containers -/

theorem items_of_container? {k : Container} (hk : q.container? c = some k) :
    k.items = q.itemsOf c := by
  rw [itemsOf, hk]
  rfl

/-- A container that loses no item stays as it is. -/
theorem strip_eq_self (h : ∀ i ∈ q.itemsOf c, r.item i = false) :
    (q.container? c).map r.strip = q.container? c := by
  cases hk : q.container? c with
  | none => rfl
  | some k =>
    have hitems : k.items.filter (!r.item ·) = k.items := by
      rw [List.filter_eq_self, items_of_container? hk]
      intro i hi
      rw [h i hi]
      rfl
    rw [Option.map_some, Removal.strip, hitems]

/-! ## Joins -/

namespace Indexed

/-- Dropping the joins with a property forgets these and takes them from every list. -/
theorem dropped_of_mem_iff (h : q.Indexed) (q' : Query) (js : List JoinId) {p : JoinId → Bool}
    (hp : ∀ j, j ∈ js ↔ p j) (hjoins : q'.joins = (q.dropJoins js).joins)
    (hincidence : q'.incidence = (q.dropJoins js).incidence) :
    (∀ j, q'.join? j = if p j then none else q.join? j) ∧
      (∀ c, q'.joinsOf c = (q.joinsOf c).filter (!p ·)) ∧
      ∀ c, q'.incidence.get? c ≠ some [] := by
  refine ⟨?_, ?_, ?_⟩
  · intro j
    have hjoin := (h.dropJoins js).2 j
    rw [join?, hjoins, ← join?, hjoin]
    simp only [hp]
  · intro c
    rw [joinsOf, hincidence, ← joinsOf, h.joinsOf_dropJoins]
    apply List.filter_congr
    intro j _
    simp only [hp, Bool.decide_eq_true, decide_not]
  · rw [hincidence]
    exact (h.dropJoins js).1.no_empty

end Indexed

/-! ## The four removals -/

/-- Releasing an item changes joins and index as dropping its joins does. -/
theorem joins_released (q : Query) (c : ContainerId) (i : ItemId) :
    (q.released c i).joins = (q.dropJoins (q.usersOf c i)).joins ∧
      (q.released c i).incidence = (q.dropJoins (q.usersOf c i)).incidence := by
  unfold released
  split
  · exact ⟨rfl, rfl⟩
  · exact ⟨rfl, rfl⟩

/-- Items of other containers do not go with the items of one. -/
theorem Owned.not_home_of_mem (h : q.Owned) {k : ContainerId} (hk : k ≠ c)
    (hi : i ∈ q.itemsOf k) : q.home? i ≠ some c := by
  intro hhome
  rw [(h.mem_itemsOf k i).1 hi, Option.some.injEq] at hhome
  exact hk hhome

/-- An item that is taken out of its container is in no container. -/
theorem Owned.container?_takeItem (h : q.Owned) (hi : q.home? i = some c) (k : ContainerId) :
    (q.takeItem c i).container? k = (q.container? k).map (Removal.strip { item := (· = i) }) := by
  have htake : (q.takeItem c i).container? k =
      if k = c then (q.container? k).map fun x => { x with items := x.items.filter (· ≠ i) }
      else q.container? k := IdMap.get?_modify _ _ _ _
  rw [htake]
  split
  · simp only [ne_eq, decide_not]
    rfl
  · rename_i hk
    refine (strip_eq_self fun y hy => ?_).symm
    rw [decide_eq_false_iff_not]
    rintro rfl
    exact h.not_home_of_mem hk hy hi

/-- Whether or not its container is attached, an item that is released is on neither list. -/
theorem Lists.filter_released {p : Item → Bool} {l : List ItemId} (h : q.Lists p l) {item : Item}
    (hitem : q.item? i = some item) :
    (if q.isAttached item.container then l.filter (· ≠ i) else l) =
      l.filter fun k => !decide (k = i) := by
  simp only [ne_eq, decide_not]
  split
  · rfl
  · rename_i hdetached
    refine (List.filter_eq_self.2 fun k hk => ?_).symm
    rw [h.mem] at hk
    rw [Bool.not_eq_true', decide_eq_false_iff_not]
    rintro rfl
    exact hdetached ((shows_iff hitem).1 hk).2

theorem withoutConstants_eq (q : Query) :
    q.withoutConstants =
      { q.dropJoins (q.joinsOf q.constants) with
        items := (q.itemsOf q.constants).foldl IdMap.erase q.items
        containers := q.containers.erase q.constants
        selected := q.selected.filter (· ∉ q.itemsOf q.constants)
        sortList := q.sortList.filter (· ∉ q.itemsOf q.constants) } := by
  rw [withoutConstants, foldl_discardItem, dropJoins_eq]

namespace WellFormed

theorem filter_not_mem_itemsOf (h : q.WellFormed) (c : ContainerId) (l : List ItemId) :
    l.filter (· ∉ q.itemsOf c) = l.filter fun i => !decide (q.home? i = some c) := by
  simp only [h.owned.mem_itemsOf, decide_not]

theorem loses_removeItem (h : q.WellFormed) {x : Item × Edit} (hx : q.removeItem i = .ok x) :
    q.Loses
      { item := (· = i), join := fun j => (q.join? j).any (·.uses i), listed := (· = i) }
      x.2.query := by
  rcases removeItem_ok hx with ⟨hitem, hquery⟩
  have hhome := home?_of_item? hitem
  have hquery : x.2.query = (q.released x.1.container i).takeItem x.1.container i := hquery
  rcases q.released_frame x.1.container i with ⟨selected, sortList, joins, incidence, hframe⟩
  rcases q.joins_released x.1.container i with ⟨hjoins, hincidence⟩
  rcases h.indexed.dropped_of_mem_iff x.2.query _ (fun j => h.indexed.mem_usersOf hhome)
    (hquery ▸ hjoins) (hquery ▸ hincidence) with ⟨hjoin, hjoinsOf, hempty⟩
  constructor
  case joins => exact hjoin
  case joinsOf => exact hjoinsOf
  case no_empty => exact hempty
  all_goals rw [hquery]
  case items =>
    intro k
    rw [item?_takeItem, hframe]
    simp only [decide_eq_true_eq]
    rfl
  case containers =>
    have hhome' : (q.released x.1.container i).home? i = some x.1.container := by
      rw [hframe]
      exact hhome
    have howned : (q.released x.1.container i).Owned := by
      rw [hframe]
      exact h.owned.of_arenas rfl rfl rfl rfl
    intro k
    rw [howned.container?_takeItem hhome', hframe]
    rfl
  case selected => exact (q.selected_released _ i).trans (h.listed.selected.filter_released hitem)
  case sortList => exact (q.sortList_released _ i).trans (h.listed.sortList.filter_released hitem)
  case tables =>
    rw [hframe]
    exact (List.filter_true q.tables).symm
  all_goals
    rw [hframe]
    rfl

theorem loses_removeTable (h : q.WellFormed) {e : Edit} (he : q.removeTable c = .ok e) :
    q.Loses
      { join := q.touches c, listed := fun i => q.home? i = some c, table := (· = c) }
      e.query := by
  rcases removeTable_ok he with ⟨-, -, hquery⟩
  let t : Query := { q with tables := q.tables.erase c }
  have ht : t.Indexed := h.indexed.of_home rfl rfl fun _ _ _ => ⟨rfl, rfl⟩
  have hframe := dropJoins_eq t (q.joinsOf c)
  rw [foldl_unlistItem] at hquery
  rcases ht.dropped_of_mem_iff e.query (q.joinsOf c)
    (fun j => h.indexed.mem_joinsOf_iff_touches) (by rw [hquery]) (by rw [hquery]) with
    ⟨hjoin, hjoinsOf, hempty⟩
  constructor
  case joins => exact hjoin
  case joinsOf => exact hjoinsOf
  case no_empty => exact hempty
  all_goals rw [hquery]
  case items =>
    rw [hframe]
    intro i
    rfl
  case containers =>
    rw [hframe]
    intro k
    exact (strip_eq_self fun _ _ => rfl).symm
  case selected =>
    rw [hframe]
    exact h.filter_not_mem_itemsOf c q.selected
  case sortList =>
    rw [hframe]
    exact h.filter_not_mem_itemsOf c q.sortList
  case tables =>
    rw [hframe]
    simp only [t, h.owned.nodup_tables.erase_eq_filter]
    rfl
  all_goals
    rw [hframe]
    rfl

theorem loses_removeJoin (h : q.WellFormed) {j : JoinId} {x : Join × Edit}
    (hx : q.removeJoin j = .ok x) : q.Loses { join := (· = j) } x.2.query := by
  have hquery : x.2.query = q.dropJoins [j] := (removeJoin_ok hx).2
  have hmem : ∀ k, k ∈ [j] ↔ decide (k = j) := by simp
  rcases h.indexed.dropped_of_mem_iff x.2.query [j] hmem (congrArg joins hquery)
    (congrArg incidence hquery) with ⟨hjoin, hjoinsOf, hempty⟩
  constructor
  case joins => exact hjoin
  case joinsOf => exact hjoinsOf
  case no_empty => exact hempty
  all_goals rw [hquery, dropJoins_eq]
  case items =>
    intro i
    rfl
  case containers =>
    intro c
    exact (strip_eq_self fun _ _ => rfl).symm
  case selected => exact (List.filter_true q.selected).symm
  case sortList => exact (List.filter_true q.sortList).symm
  case tables => exact (List.filter_true q.tables).symm
  all_goals rfl

theorem loses_newConstants (h : q.WellFormed) (uuid : Uuid) :
    q.Loses
      { item := fun i => q.home? i = some q.constants
        join := q.touches q.constants
        listed := fun i => q.home? i = some q.constants
        renewal? := some (.ofConstants uuid) }
      (q.newConstants uuid).2.query := by
  have hquery := q.newConstants_query uuid
  have hnext : (q.withoutConstants.nextId : ContainerId) = q.nextId := by
    rw [nextId, count_withoutConstants, nextId]
  rw [hnext] at hquery
  have hwithout := q.withoutConstants_eq
  have hframe := dropJoins_eq q (q.joinsOf q.constants)
  rcases h.indexed.dropped_of_mem_iff q.withoutConstants (q.joinsOf q.constants)
    (fun j => h.indexed.mem_joinsOf_iff_touches) (hwithout ▸ rfl) (hwithout ▸ rfl) with
    ⟨hjoin, hjoinsOf, hempty⟩
  constructor
  all_goals rw [hquery]
  case joins => exact hjoin
  case joinsOf => exact hjoinsOf
  case no_empty => exact hempty
  case items =>
    intro i
    refine (q.item?_withoutConstants i).trans ?_
    simp only [h.owned.mem_itemsOf, decide_eq_true_eq]
  case containers =>
    intro k
    refine (IdMap.get?_insert _ _ _ _).trans ?_
    simp only [Removal.container?]
    split
    · rfl
    · refine (q.container?_withoutConstants k).trans ?_
      split
      · rfl
      · rename_i hk
        refine (strip_eq_self fun i hi => ?_).symm
        rw [decide_eq_false_iff_not]
        exact h.owned.not_home_of_mem hk hi
  case selected =>
    refine (congrArg Query.selected hwithout).trans ?_
    exact h.filter_not_mem_itemsOf q.constants q.selected
  case sortList =>
    refine (congrArg Query.sortList hwithout).trans ?_
    exact h.filter_not_mem_itemsOf q.constants q.sortList
  case tables =>
    refine q.tables_withoutConstants.trans ?_
    exact (List.filter_true q.tables).symm
  case constants => rfl
  case count => exact congrArg Nat.succ q.count_withoutConstants
  case properties =>
    refine (congrArg Query.properties hwithout).trans ?_
    rw [hframe]
    rfl

end WellFormed

/-- A removal takes from a reachable query exactly the dependents of what is removed. All that
is left keeps its fields and its place: a removal changes nothing but to filter out. -/
theorem Reachable.removal_exact (h : q.Reachable) {op : Operation} {reply : Reply} {e : Edit}
    (hr : q.removal? op = some r) (hp : q.perform op = .ok (reply, e)) : q.Loses r e.query := by
  cases op with
  | removeItem i =>
    cases hr
    rcases Outcome.map_ok hp with ⟨x, hx, -, rfl⟩
    exact h.wellFormed.loses_removeItem hx
  | removeTable c =>
    cases hr
    exact h.wellFormed.loses_removeTable (Outcome.ofEdit_ok hp).2
  | removeJoin j =>
    cases hr
    rcases Outcome.map_ok hp with ⟨x, hx, -, rfl⟩
    exact h.wellFormed.loses_removeJoin hx
  | newConstants uuid =>
    cases hr
    cases hp
    exact h.wellFormed.loses_newConstants uuid
  | _ => cases hr

theorem exists_of_isOk {ε α : Type} {x : Except ε α} (h : x.isOk) : ∃ a, x = .ok a := by
  cases x with
  | ok a => exact ⟨a, rfl⟩
  | error err => cases h

/-- Two tables with a join between each column of the first and the column of the second. -/
def parallelJoins : Query :=
  [ .addItem (.ofCount 4) { name := "z" } (.ofNat 0),
    .addJoin { left := .ofCount 9, right := .ofCount 7 } ].foldl after joinedTables

theorem parallelJoins_reachable : parallelJoins.Reachable :=
  joinedTables_reachable.foldl_after _ (by decide +kernel)

/-- With a column goes its own join; the join beside it stays where it was. -/
theorem parallelJoins_loses_one :
    ∃ reply e, parallelJoins.perform (.removeItem (.ofCount 6)) = .ok (reply, e) ∧
      parallelJoins.Reachable ∧
      parallelJoins.joinsOf (.ofCount 5) = [.ofCount 8, .ofCount 10] ∧
      e.query.joinsOf (.ofCount 5) = [.ofCount 10] ∧
      e.query.join? (.ofCount 10) = parallelJoins.join? (.ofCount 10) := by
  rcases exists_of_isOk (x := parallelJoins.perform (.removeItem (.ofCount 6)))
    (by decide +kernel) with ⟨⟨reply, e⟩, hp⟩
  have hloses := parallelJoins_reachable.removal_exact rfl hp
  refine ⟨reply, e, hp, parallelJoins_reachable, by decide +kernel, ?_, ?_⟩
  · rw [hloses.joinsOf]
    decide +kernel
  · rw [hloses.joins]
    decide +kernel

end Query

end LiveSelect
