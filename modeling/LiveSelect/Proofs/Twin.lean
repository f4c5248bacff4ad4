import LiveSelect.Proofs.Pairing
import LiveSelect.Proofs.WellFormed

/-! # Twins

Two queries are twins along a renumbering when they have the same texts and settings, and
numbers that stand for each other have matching entities and stand at the same places of
every list. The index of joins is not mentioned: in well-formed queries it follows from the
order of the joins and from their columns. Every small edit, made on both sides with numbers
that stand for each other, leaves twins behind. -/

namespace LiveSelect.Query

/-- The texts and settings of a query, with nothing in it. -/
def emptied (q : Query) : Query :=
  { q with
    uuid := .ofNat 0
    items := ∅
    containers := ∅
    joins := ∅
    count := 0
    selected := []
    sortList := []
    tables := []
    incidence := ∅
    constants := .ofCount 0 }

/-- Queries that are the same but for their numbers and identifiers. -/
structure Twin (r : Renumbering) (q q' : Query) : Prop where
  oneToOne : r.OneToOne
  below : ∀ {e : Entity} {a b : Id e}, r.Pairs a b → a.toNat < q.count ∧ b.toNat < q'.count
  items : q.items.Matches r (Item.Matches r) q'.items
  containers : q.containers.Matches r (Container.Matches r) q'.containers
  joins : q.joins.Matches r (Join.Matches r) q'.joins
  allJoins : List.Forall₂ r.Pairs q.allJoins q'.allJoins
  selected : List.Forall₂ r.Pairs q.selected q'.selected
  sortList : List.Forall₂ r.Pairs q.sortList q'.sortList
  tables : List.Forall₂ r.Pairs q.tables q'.tables
  constants : r.Pairs q.constants q'.constants
  emptied : q.emptied = q'.emptied

namespace Twin

variable {r : Renumbering} {q q' : Query} {i i' : ItemId} {c c' : ContainerId} {j j' : JoinId}

/-! ## Look-ups -/

theorem item? (h : Twin r q q') (hi : r.Pairs i i') :
    Option.Rel (Item.Matches r) (q.item? i) (q'.item? i') :=
  h.items i i' hi

theorem container? (h : Twin r q q') (hc : r.Pairs c c') :
    Option.Rel (Container.Matches r) (q.container? c) (q'.container? c') :=
  h.containers c c' hc

theorem join? (h : Twin r q q') (hj : r.Pairs j j') :
    Option.Rel (Join.Matches r) (q.join? j) (q'.join? j') :=
  h.joins j j' hj

theorem home? (h : Twin r q q') (hi : r.Pairs i i') :
    Option.Rel r.Pairs (q.home? i) (q'.home? i') :=
  rel_map (fun _ _ hxy => hxy.container) (h.item? hi)

theorem itemsOf (h : Twin r q q') (hc : r.Pairs c c') :
    List.Forall₂ r.Pairs (q.itemsOf c) (q'.itemsOf c') := by
  unfold Query.itemsOf
  rcases rel_cases (h.container? hc) with ⟨hq, hq'⟩ | ⟨k, k', hq, hq', hk⟩
  · rw [hq, hq']
    exact .nil
  · rw [hq, hq']
    exact hk.items

theorem ends? (h : Twin r q q') (hj : r.Pairs j j') :
    Option.Rel (fun x y => r.Pairs x.1 y.1 ∧ r.Pairs x.2 y.2) (q.ends? j) (q'.ends? j') := by
  rw [ends?_eq, ends?_eq]
  refine rel_bind ?_ (h.join? hj)
  intro x y hxy
  refine rel_bind ?_ (h.home? hxy.left)
  intro u v huv
  exact rel_map (fun _ _ hst => ⟨huv, hst⟩) (h.home? hxy.right)

theorem touches (h : Twin r q q') (hc : r.Pairs c c') (hj : r.Pairs j j') :
    q.touches c j = q'.touches c' j' := by
  refine rel_any ?_ (h.ends? hj)
  intro x y hxy
  have hl := eq_iff_eq (h.oneToOne _) hxy.1 hc
  have hr := eq_iff_eq (h.oneToOne _) hxy.2 hc
  simp only [hl, hr]

/-- In well-formed twins the index of joins matches as well. -/
theorem joinsOf (h : Twin r q q') (hi : q.Indexed) (hi' : q'.Indexed) (hc : r.Pairs c c') :
    List.Forall₂ r.Pairs (q.joinsOf c) (q'.joinsOf c') := by
  rw [hi.joinsOf_eq, hi'.joinsOf_eq]
  exact forall₂_filter (fun _ _ hxy => h.touches hc hxy) h.allJoins

theorem isAttached (h : Twin r q q') (hc : r.Pairs c c') : q.isAttached c = q'.isAttached c' := by
  have hconst := eq_iff_eq (h.oneToOne _) hc h.constants
  have htables := contains_eq (h.oneToOne _) hc h.tables
  simp only [Query.isAttached, hconst, htables]

theorem itemHas (h : Twin r q q') (hi : r.Pairs i i') {p : Item → Bool}
    (hp : ∀ x y, x.Matches r y → p x = p y) : q.itemHas p i = q'.itemHas p i' :=
  rel_any hp (h.item? hi)

/-! ## Inherited invariants -/

section Inherited

variable (h : Twin r q q')
  (hpaired : ∀ {e : Entity} (a' : Id e), q'.Knows a' → ∃ a, r.Pairs a a')

include h hpaired

/-- A twin whose numbers are all paired inherits who owns whom. -/
theorem owned (ho : q.Owned) : q'.Owned where
  nodup_itemsOf c' := by
    by_cases hknown : q'.containers.contains c'
    · rcases hpaired (e := .container) c' hknown with ⟨c, hc⟩
      exact (List.rel_nodup (h.oneToOne _) (h.itemsOf hc)).1 (ho.nodup_itemsOf c)
    · rw [itemsOf_of_absent hknown]
      exact List.nodup_nil
  mem_itemsOf c' i' := by
    -- Both sides make the container and the item known, and so paired.
    have hboth : ∀ {c i}, r.Pairs c c' → r.Pairs i i' →
        (i' ∈ q'.itemsOf c' ↔ q'.home? i' = some c') := by
      intro c i hc hi
      rw [← mem_iff_mem (h.oneToOne _) hi (h.itemsOf hc), ho.mem_itemsOf]
      rcases rel_cases (h.home? hi) with ⟨hq, hq'⟩ | ⟨k, k', hq, hq', hk⟩
      · rw [hq, hq']
        simp
      · rw [hq, hq', Option.some.injEq, Option.some.injEq]
        exact eq_iff_eq (h.oneToOne _) hk hc
    constructor
    · intro hi'
      rcases hpaired (e := .container) c' (knows_of_mem_itemsOf hi') with ⟨c, hc⟩
      rcases exists_of_mem (h.itemsOf hc) hi' with ⟨i, -, hi⟩
      exact (hboth hc hi).1 hi'
    · intro hhome
      rcases home?_eq_some.1 hhome with ⟨item', hitem', rfl⟩
      rcases hpaired (e := .item) i' (IdMap.contains_of_get? hitem') with ⟨i, hi⟩
      rcases rel_cases (h.item? hi) with ⟨-, hq'⟩ | ⟨item, y, hq, hq', hxy⟩
      · -- The item is known, so its partner is.
        rw [hitem'] at hq'
        cases hq'
      · rw [hitem', Option.some.injEq] at hq'
        subst hq'
        exact (hboth hxy.container hi).2 hhome
  nodup_tables := (List.rel_nodup (h.oneToOne _) h.tables).1 ho.nodup_tables
  knows_tables c' hc' := by
    rcases exists_of_mem h.tables hc' with ⟨c, hmem, hc⟩
    rw [← h.containers.contains hc]
    exact ho.knows_tables c hmem
  knows_constants := by
    rw [← h.containers.contains h.constants]
    exact ho.knows_constants
  constants_not_table := by
    rw [← mem_iff_mem (h.oneToOne _) h.constants h.tables]
    exact ho.constants_not_table
  isConstants_iff c' k' hk' := by
    rcases hpaired (e := .container) c' (IdMap.contains_of_get? hk') with ⟨c, hc⟩
    rcases rel_cases (h.container? hc) with ⟨-, hq'⟩ | ⟨k, y, hq, hq', hxy⟩
    · rw [hk'] at hq'
      cases hq'
    · rw [hk', Option.some.injEq] at hq'
      subst hq'
      have hkind : k.isConstants = k'.isConstants := by
        simp only [Container.isConstants, Container.identity?, hxy.kind]
      rw [← hkind, ho.isConstants_iff c k hq]
      exact eq_iff_eq (h.oneToOne _) hc h.constants

theorem lists {p : Item → Bool} (hp : ∀ x y, x.Matches r y → p x = p y) {l l' : List ItemId}
    (hl : List.Forall₂ r.Pairs l l') (hlists : q.Lists p l) : q'.Lists p l' where
  nodup := (List.rel_nodup (h.oneToOne _) hl).1 hlists.nodup
  mem i' := by
    -- For a paired item both sides are what they are for its partner.
    have hboth : ∀ i, r.Pairs i i' → (i' ∈ l' ↔ q'.Shows p i') := by
      intro i hi
      rw [← mem_iff_mem (h.oneToOne _) hi hl, hlists.mem]
      rcases rel_cases (h.item? hi) with ⟨hq, hq'⟩ | ⟨x, y, hq, hq', hxy⟩
      · simp [Shows, hq, hq']
      · rw [shows_iff hq, shows_iff hq', hp x y hxy, h.isAttached hxy.container]
    constructor
    · intro hi'
      rcases exists_of_mem hl hi' with ⟨i, -, hi⟩
      exact (hboth i hi).1 hi'
    · intro hshows
      have hknown := hshows
      rcases hknown with ⟨item', hitem', -⟩
      rcases hpaired (e := .item) i' (IdMap.contains_of_get? hitem') with ⟨i, hi⟩
      exact (hboth i hi).2 hshows

/-- A twin whose numbers are all paired lists what it should. -/
theorem listed (hlisted : q.Listed) : q'.Listed where
  selected := h.lists hpaired (fun _ _ hxy => hxy.selected) h.selected hlisted.selected
  sortList := h.lists hpaired (fun _ _ hxy => hxy.isSorted) h.sortList hlisted.sortList

end Inherited

/-! ## Texts and settings -/

/-- The same change of texts and settings on both sides leaves twins behind. -/
theorem withSettings (h : Twin r q q') (f : Query → Query)
    (hf : ∀ q, (f q).parts = q.parts ∧ (f q).emptied = f q.emptied) : Twin r (f q) (f q') := by
  have hq := (hf q).1
  have hq' := (hf q').1
  simp only [parts, Prod.mk.injEq] at hq hq'
  rcases hq with ⟨hi, hc, hj, hcount, hsel, hsort, ht, -, hconst⟩
  rcases hq' with ⟨hi', hc', hj', hcount', hsel', hsort', ht', -, hconst'⟩
  constructor
  · exact h.oneToOne
  · intro e a b hab
    rw [hcount, hcount']
    exact h.below hab
  · rw [hi, hi']
    exact h.items
  · rw [hc, hc']
    exact h.containers
  · rw [hj, hj']
    exact h.joins
  · rw [Query.allJoins, Query.allJoins, hj, hj']
    exact h.allJoins
  · rw [hsel, hsel']
    exact h.selected
  · rw [hsort, hsort']
    exact h.sortList
  · rw [ht, ht']
    exact h.tables
  · rw [hconst, hconst']
    exact h.constants
  · rw [(hf q).2, (hf q').2, h.emptied]

/-! ## Lists -/

theorem syncSelection (h : Twin r q q') (hi : r.Pairs i i') :
    Twin r (q.syncSelection i) (q'.syncSelection i') := by
  have hflag := h.itemHas hi fun _ _ hxy => hxy.selected
  have hlisted := contains_eq (h.oneToOne _) hi h.selected
  unfold Query.itemHas at hflag
  unfold Query.syncSelection
  rw [hflag, hlisted]
  split
  · split
    · exact h
    · exact { h with selected := List.rel_append h.selected (.cons hi .nil) }
  · exact { h with selected := forall₂_without (h.oneToOne _) hi h.selected }

theorem enterSortList (h : Twin r q q') (hi : r.Pairs i i') :
    Twin r (q.enterSortList i) (q'.enterSortList i') := by
  have hflag := h.itemHas hi fun _ _ hxy => hxy.isSorted
  have hlisted := contains_eq (h.oneToOne _) hi h.sortList
  unfold Query.itemHas at hflag
  unfold Query.enterSortList
  rw [hflag, hlisted]
  split
  · exact { h with sortList := List.rel_append h.sortList (.cons hi .nil) }
  · exact h

theorem syncSortList (h : Twin r q q') (hi : r.Pairs i i') :
    Twin r (q.syncSortList i) (q'.syncSortList i') := by
  have hflag := h.itemHas hi fun _ _ hxy => hxy.isSorted
  have hrest := forall₂_without (h.oneToOne _) hi h.sortList
  unfold Query.itemHas at hflag
  refine { h with sortList := ?_ }
  simp only [Query.syncSortList]
  rw [hflag]
  split
  · exact List.rel_append hrest (.cons hi .nil)
  · exact hrest

theorem attachItem (h : Twin r q q') (hi : r.Pairs i i') :
    Twin r (q.attachItem i) (q'.attachItem i') :=
  (h.syncSelection hi).enterSortList hi

theorem unlistItem (h : Twin r q q') (hi : r.Pairs i i') :
    Twin r (q.unlistItem i) (q'.unlistItem i') :=
  { h with
    selected := forall₂_without (h.oneToOne _) hi h.selected
    sortList := forall₂_without (h.oneToOne _) hi h.sortList }

/-! ## Entities -/

theorem updateItem (h : Twin r q q') (hi : r.Pairs i i') {f f' : Item → Item}
    (hf : ∀ x y, x.Matches r y → (f x).Matches r (f' y)) :
    Twin r (q.updateItem i f) (q'.updateItem i' f') :=
  { h with items := h.items.modify h.oneToOne hi hf }

theorem updateContainer (h : Twin r q q') (hc : r.Pairs c c') {f f' : Container → Container}
    (hf : ∀ x y, x.Matches r y → (f x).Matches r (f' y)) :
    Twin r (q.updateContainer c f) (q'.updateContainer c' f') :=
  { h with containers := h.containers.modify h.oneToOne hc hf }

theorem updateJoin (h : Twin r q q') (hj : r.Pairs j j') {f f' : Join → Join}
    (hf : ∀ x y, x.Matches r y → (f x).Matches r (f' y)) :
    Twin r (q.updateJoin j f) (q'.updateJoin j' f') :=
  { h with
    joins := h.joins.modify h.oneToOne hj hf
    allJoins := by
      unfold Query.allJoins Query.updateJoin
      rw [IdMap.keys_modify, IdMap.keys_modify]
      exact h.allJoins }

theorem eraseItem (h : Twin r q q') (hi : r.Pairs i i') :
    Twin r { q with items := q.items.erase i } { q' with items := q'.items.erase i' } :=
  { h with items := h.items.erase h.oneToOne hi }

theorem eraseContainer (h : Twin r q q') (hc : r.Pairs c c') :
    Twin r { q with containers := q.containers.erase c }
      { q' with containers := q'.containers.erase c' } :=
  { h with containers := h.containers.erase h.oneToOne hc }

theorem discardItem (h : Twin r q q') (hi : r.Pairs i i') :
    Twin r (q.discardItem i) (q'.discardItem i') :=
  (h.unlistItem hi).eraseItem hi

theorem takeItem (h : Twin r q q') (hc : r.Pairs c c') (hi : r.Pairs i i') :
    Twin r (q.takeItem c i) (q'.takeItem c' i') := by
  refine (h.updateContainer hc ?_).eraseItem hi
  intro x y hxy
  exact { hxy with items := forall₂_without (h.oneToOne _) hi hxy.items }

theorem dropJoin (h : Twin r q q') (hj : r.Pairs j j') :
    Twin r (q.dropJoin j) (q'.dropJoin j') := by
  unfold Query.dropJoin
  rcases rel_cases (h.ends? hj) with ⟨hq, hq'⟩ | ⟨x, y, hq, hq', -⟩
  · rw [hq, hq']
    exact h
  · rw [hq, hq']
    -- The index is no part of twins, so only the join itself has to go.
    refine { h with joins := h.joins.erase h.oneToOne hj, allJoins := ?_ }
    change List.Forall₂ _ (q.joins.erase j).keys (q'.joins.erase j').keys
    rw [IdMap.keys_erase, IdMap.keys_erase]
    exact forall₂_without (h.oneToOne _) hj h.allJoins

theorem dropJoins (h : Twin r q q') {js js' : List JoinId} (hj : List.Forall₂ r.Pairs js js') :
    Twin r (q.dropJoins js) (q'.dropJoins js') :=
  foldl_matches h hj fun _ _ _ _ h hj => h.dropJoin hj

/-! ## Numbers -/

section Numbers

variable (h : Twin r q q') (hn : q.Numbered) (hn' : q'.Numbered) (hq : q.count < UInt32.size)
  (hq' : q'.count < UInt32.size)

include h hn hn' hq hq'

/-- The numbers that twins hand out next stand for each other from then on. -/
theorem handOut (e : Entity) :
    Twin (r.add (q.nextId : Id e) q'.nextId) q.handOut q'.handOut := by
  have hwithin := r.within_add (q.nextId : Id e) q'.nextId
  have hlt : (q.nextId : Id e).toNat = q.count := toNat_nextId hq
  have hlt' : (q'.nextId : Id e).toNat = q'.count := toNat_nextId hq'
  -- The number that is handed out is in use for no sort of entity.
  have hnew : ∀ {e' : Entity} (k : Id e'), k.toNat = (q.nextId : Id e).toNat →
      ¬ q.Knows k := by
    intro e' k hk hknown
    have hbelow : k.toNat < q.count := hn.below k hknown
    omega
  have hnew' : ∀ {e' : Entity} (k : Id e'), k.toNat = (q'.nextId : Id e).toNat →
      ¬ q'.Knows k := by
    intro e' k hk hknown
    have hbelow : k.toNat < q'.count := hn'.below k hknown
    omega
  constructor
  · apply h.oneToOne.add
    · -- Nor was it ever paired, since pairs lie below the counters.
      intro y hy
      have hbelow := (h.below hy).1
      omega
    · intro x hx
      have hbelow := (h.below hx).2
      omega
  · intro e' a b hab
    change a.toNat < q.count + 1 ∧ b.toNat < q'.count + 1
    rcases Renumbering.pairs_add hab with hab | ⟨-, ha, hb⟩
    · have hbelow := h.below hab
      omega
    · omega
  · exact h.items.add (fun _ _ hab => hab.mono hwithin)
      (fun k _ hk => IdMap.get?_eq_none (hnew k hk)) fun k _ hk => IdMap.get?_eq_none (hnew' k hk)
  · exact h.containers.add (fun _ _ hab => hab.mono hwithin)
      (fun k _ hk => IdMap.get?_eq_none (hnew k hk)) fun k _ hk => IdMap.get?_eq_none (hnew' k hk)
  · exact h.joins.add (fun _ _ hab => hab.mono hwithin)
      (fun k _ hk => IdMap.get?_eq_none (hnew k hk)) fun k _ hk => IdMap.get?_eq_none (hnew' k hk)
  · exact h.allJoins.imp fun _ _ hab => hwithin hab
  · exact h.selected.imp fun _ _ hab => hwithin hab
  · exact h.sortList.imp fun _ _ hab => hwithin hab
  · exact h.tables.imp fun _ _ hab => hwithin hab
  · exact hwithin h.constants
  · exact h.emptied

end Numbers

end Twin

end LiveSelect.Query
