import LiveSelect.Proofs.Reachable
import LiveSelect.Proofs.TwinText

/-! # Copies

A copy and its original are twins along the renumbering that the copy comes with. The
renumbering pairs every number in use, and no other, with a number of the copy; the copy
hands out its numbers without gaps, so it has no more of them than the original. Being a
twin, the copy inherits every invariant, and with that all reachable queries are
well-formed. -/

namespace LiveSelect

variable {e : Entity}

/-! ## Numbering a list -/

theorem length_numberFrom (first : Nat) (olds : List (Id e)) :
    (numberFrom first olds).length = olds.length := by
  simp [numberFrom]

theorem fst_numberFrom (first : Nat) (olds : List (Id e)) :
    (numberFrom first olds).map Prod.fst = olds := by
  apply List.ext_getElem?
  intro i
  simp [numberFrom, Function.comp_def]

theorem mem_numberFrom {first : Nat} {olds : List (Id e)} {a b : Id e} :
    (a, b) ∈ numberFrom first olds ↔
      ∃ i, ∃ h : i < olds.length, olds[i] = a ∧ .ofCount (first + i) = b := by
  simp [numberFrom]

/-- The numbers stand in increasing order and fill a range. -/
theorem snd_numberFrom {first : Nat} {olds : List (Id e)} (h : first + olds.length ≤ UInt32.size) :
    ((numberFrom first olds).map Prod.snd).Pairwise (fun a b => a.toNat < b.toNat) ∧
      ∀ b ∈ (numberFrom first olds).map Prod.snd,
        first ≤ b.toNat ∧ b.toNat < first + olds.length := by
  -- No number of the range overflows.
  have hnumber : ∀ i, i < olds.length → (Id.ofCount (first + i) : Id e).toNat = first + i :=
    fun i hi => Id.toNat_ofCount (by omega)
  constructor
  · rw [List.pairwise_iff_getElem]
    intro i j hi hj hij
    simp only [List.length_map, length_numberFrom] at hi hj
    simp only [numberFrom, List.getElem_map, List.getElem_mapIdx]
    rw [hnumber i hi, hnumber j hj]
    omega
  · intro b hb
    rcases List.mem_map.1 hb with ⟨⟨a, b⟩, hab, rfl⟩
    rcases mem_numberFrom.1 hab with ⟨i, hi, -, rfl⟩
    have hi' := hnumber i hi
    simp only
    omega

/-! ## Replacing numbers -/

/-- Members that are all paired are replaced one by one. -/
theorem forall₂_renumber {pairs : List (Id e × Id e)} (h : (pairs.map Prod.fst).Nodup)
    {ids : List (Id e)} (hids : ∀ a ∈ ids, a ∈ pairs.map Prod.fst) :
    List.Forall₂ (fun a b => (a, b) ∈ pairs) ids (renumber pairs ids) := by
  induction ids with
  | nil => exact .nil
  | cons a rest ih =>
    rcases List.mem_map.1 (hids a List.mem_cons_self) with ⟨⟨k, k'⟩, hk, rfl⟩
    have hlookup := (lookup_eq_some h).2 hk
    rw [renumber, List.filterMap_cons, hlookup]
    exact .cons hk (ih fun b hb => hids b (List.mem_cons_of_mem _ hb))

namespace Query

section Carry

variable {α β : Type} (m : IdMap e α) (f : Id e → α → Option β)

/-- What is carried over for one pair. -/
def carried (x : Id e × Id e) : Option (Id e × β) :=
  (m.get? x.1).bind fun a => (f x.2 a).map fun b => (x.2, b)

theorem carry_eq (pairs : List (Id e × Id e)) :
    carry m pairs f = .ofList (pairs.filterMap (carried m f)) := by
  have hcarried : (fun x : Id e × Id e => do
      let a ← m.get? x.1
      let b ← f x.2 a
      return (x.2, b)) = carried m f := by
    funext x
    unfold carried
    cases m.get? x.1 with
    | none => rfl
    | some a =>
      simp only [bind, Option.bind_some]
      cases f x.2 a <;> rfl
  rw [carry, hcarried]

theorem carried_eq_some {x : Id e × Id e} {k' : Id e} {b : β} :
    carried m f x = some (k', b) ↔ x.2 = k' ∧ ∃ a, m.get? x.1 = some a ∧ f x.2 a = some b := by
  simp only [carried, Option.bind_eq_some_iff, Option.map_eq_some_iff, Prod.mk.injEq]
  constructor
  · rintro ⟨a, ha, b', hb, rfl, rfl⟩
    exact ⟨rfl, a, ha, hb⟩
  · rintro ⟨rfl, a, ha, hb⟩
    exact ⟨a, ha, b, hb, rfl, rfl⟩

/-- Carrying over takes every new number at most once. -/
theorem fst_carried_sublist (pairs : List (Id e × Id e)) :
    List.Sublist ((pairs.filterMap (carried m f)).map Prod.fst) (pairs.map Prod.snd) := by
  induction pairs with
  | nil => exact .slnil
  | cons x rest ih =>
    rw [List.filterMap_cons, List.map_cons]
    cases hx : carried m f x with
    | none => exact ih.cons _
    | some y =>
      rw [((carried_eq_some m f).1 hx).1]
      exact ih.cons_cons _

variable {m f} {pairs : List (Id e × Id e)}

/-- What is carried over to a new number is what stands under an old one. -/
theorem get?_carry_eq_some (h : (pairs.map Prod.snd).Nodup) {k' : Id e} {b : β} :
    (carry m pairs f).get? k' = some b ↔
      ∃ k a, (k, k') ∈ pairs ∧ m.get? k = some a ∧ f k' a = some b := by
  have hnodup := h.sublist (fst_carried_sublist m f pairs)
  rw [carry_eq, IdMap.get?_ofList hnodup, List.mem_filterMap]
  constructor
  · rintro ⟨⟨k, k''⟩, hmem, hx⟩
    rcases (carried_eq_some m f).1 hx with ⟨rfl, a, ha, hb⟩
    exact ⟨k, a, hmem, ha, hb⟩
  · rintro ⟨k, a, hmem, ha, hb⟩
    exact ⟨(k, k'), hmem, (carried_eq_some m f).2 ⟨rfl, a, ha, hb⟩⟩

/-- Under the new number of a pair stands what comes of the old one. -/
theorem get?_carry (h : (pairs.map Prod.snd).Nodup) {k k' : Id e} (hk : (k, k') ∈ pairs) :
    (carry m pairs f).get? k' = (m.get? k).bind (f k') := by
  apply Option.ext
  intro b
  rw [get?_carry_eq_some h, Option.bind_eq_some_iff]
  constructor
  · rintro ⟨k₂, a, hk₂, ha, hb⟩
    -- The new number stands for one old number only.
    have heq : k₂ = k := congrArg Prod.fst (List.inj_on_of_nodup_map h hk₂ hk rfl)
    subst heq
    exact ⟨a, ha, hb⟩
  · rintro ⟨a, ha, hb⟩
    exact ⟨k, a, hk, ha, hb⟩

/-- Numbers that are in no pair are not used. -/
theorem paired_of_contains_carry (h : (pairs.map Prod.snd).Nodup) {k' : Id e}
    (hk : (carry m pairs f).contains k') : ∃ k, (k, k') ∈ pairs := by
  rcases (IdMap.contains_iff _ k').1 hk with ⟨b, hb⟩
  rcases (get?_carry_eq_some h).1 hb with ⟨k, -, hmem, -⟩
  exact ⟨k, hmem⟩

end Carry

/-! ## What is copied -/

variable {q : Query}

/-- All items, container by container, in the order in which they are copied. -/
def copiedItems (q : Query) : List ItemId := q.copyOrder.flatMap q.itemsOf

theorem mem_copyOrder (ho : q.Owned) {c : ContainerId} :
    c ∈ q.copyOrder ↔ q.containers.contains c := by
  have hattached : q.isAttached c → q.containers.contains c := by
    intro hc
    rcases (q.isAttached_iff c).1 hc with rfl | hc
    · exact ho.knows_constants
    · exact ho.knows_tables c hc
  simp only [copyOrder, detached, List.mem_cons, List.mem_append, List.mem_filter,
    IdMap.mem_keys_iff, Bool.not_eq_true', ← or_assoc, ← isAttached_iff]
  constructor
  · rintro (hc | ⟨hc, -⟩)
    · exact hattached hc
    · exact hc
  · intro hc
    cases hb : q.isAttached c with
    | true => exact Or.inl rfl
    | false => exact Or.inr ⟨hc, rfl⟩

theorem nodup_copyOrder (ho : q.Owned) : q.copyOrder.Nodup := by
  have hdetached : ∀ c ∈ q.detached, ¬ q.isAttached c := by
    intro c hc
    simpa using (List.mem_filter.1 hc).2
  have hrest : (q.tables ++ q.detached).Nodup := by
    apply ho.nodup_tables.append (q.containers.nodup_keys.filter _)
    intro c hc hc'
    exact hdetached c hc' ((q.isAttached_iff c).2 (Or.inr hc))
  refine List.nodup_cons.2 ⟨?_, hrest⟩
  intro hmem
  rcases List.mem_append.1 hmem with hmem | hmem
  · exact ho.constants_not_table hmem
  · exact hdetached _ hmem ((q.isAttached_iff _).2 (Or.inl rfl))

theorem mem_copiedItems (ho : q.Owned) {i : ItemId} :
    i ∈ q.copiedItems ↔ q.items.contains i := by
  rw [copiedItems, List.mem_flatMap]
  constructor
  · rintro ⟨c, -, hi⟩
    rcases ho.item?_of_mem hi with ⟨item, hitem, -⟩
    exact IdMap.contains_of_get? hitem
  · intro hi
    rcases (IdMap.contains_iff _ i).1 hi with ⟨item, hitem⟩
    have hcontainer := (mem_copyOrder ho).2 (ho.knows_of_item? hitem)
    exact ⟨item.container, hcontainer, ho.mem_itemsOf_home hitem⟩

theorem nodup_copiedItems (ho : q.Owned) : q.copiedItems.Nodup :=
  ho.nodup_flatMap_itemsOf (nodup_copyOrder ho)

/-- Everything of one sort that is copied, in the order in which it gets its numbers. -/
def copied (q : Query) : {e : Entity} → List (Id e)
  | .item => q.copiedItems
  | .container => q.copyOrder
  | .join => q.allJoins

/-- The first number in a copy of the entities of a sort. -/
def firstNumber (q : Query) : Entity → Nat
  | .container => 0
  | .item => q.copyOrder.length
  | .join => q.copyOrder.length + q.copiedItems.length

theorem mem_copied (h : q.WellFormed) {a : Id e} : a ∈ q.copied ↔ q.Knows a := by
  cases e with
  | item => exact mem_copiedItems h.owned
  | container => exact mem_copyOrder h.owned
  | join => exact IdMap.mem_keys_iff _ _

theorem nodup_copied (h : q.WellFormed) : (q.copied : List (Id e)).Nodup := by
  cases e with
  | item => exact nodup_copiedItems h.owned
  | container => exact nodup_copyOrder h.owned
  | join => exact q.allJoins_nodup

/-- In a well-formed query every join has its columns and is copied. -/
theorem pairs_renumbering (h : q.WellFormed) :
    (q.renumbering.pairs : List (Id e × Id e)) = numberFrom (q.firstNumber e) q.copied := by
  have hitem : ∀ i, q.items.contains i →
      ((numberFrom q.copyOrder.length q.copiedItems).lookup i).isSome := by
    intro i hi
    have hmem : i ∈ (numberFrom q.copyOrder.length q.copiedItems).map Prod.fst := by
      rw [fst_numberFrom]
      exact (mem_copiedItems h.owned).2 hi
    rcases List.mem_map.1 hmem with ⟨⟨k, k'⟩, hk, rfl⟩
    rw [(lookup_eq_some ?_).2 hk]
    · rfl
    · rw [fst_numberFrom]
      exact nodup_copiedItems h.owned
  -- The filter on joins keeps them all.
  have hkept : ∀ j ∈ q.allJoins, (q.join? j).any fun join =>
      ((numberFrom q.copyOrder.length q.copiedItems).lookup join.left).isSome &&
        ((numberFrom q.copyOrder.length q.copiedItems).lookup join.right).isSome := by
    intro j hj
    rcases mem_allJoins.1 hj with ⟨join, hjoin⟩
    rcases h.indexed.home_of_join hjoin with ⟨l, r, hl, hr, -⟩
    rcases home?_eq_some.1 hl with ⟨x, hx, -⟩
    rcases home?_eq_some.1 hr with ⟨y, hy, -⟩
    rw [hjoin]
    simp only [Option.any_some, hitem _ (IdMap.contains_of_get? hx),
      hitem _ (IdMap.contains_of_get? hy), Bool.and_self]
  cases e with
  | container => rfl
  | item =>
    change numberFrom (numberFrom 0 q.copyOrder).length q.copiedItems = _
    rw [length_numberFrom]
    rfl
  | join =>
    have hlength : (numberFrom 0 q.copyOrder).length = q.copyOrder.length := length_numberFrom _ _
    change numberFrom ((numberFrom 0 q.copyOrder).length +
      (numberFrom (numberFrom 0 q.copyOrder).length q.copiedItems).length)
        (q.allJoins.filter fun j => (q.join? j).any fun join =>
          let items := numberFrom (numberFrom 0 q.copyOrder).length q.copiedItems
          (items.lookup join.left).isSome && (items.lookup join.right).isSome) = _
    rw [hlength, length_numberFrom, List.filter_eq_self.2 hkept]
    rfl

/-- The numbers in use are no more than those handed out. -/
theorem length_copied_le (h : q.WellFormed) :
    q.copyOrder.length + q.copiedItems.length + q.allJoins.length ≤ q.count := by
  have hinj : ∀ e : Entity, Function.Injective (Id.toNat : Id e → Nat) :=
    fun _ _ _ heq => Id.toNat_inj.1 heq
  have hbelow : ∀ (e : Entity) (n : Nat), n ∈ (q.copied : List (Id e)).map Id.toNat →
      n < q.count := by
    intro e n hn
    rcases List.mem_map.1 hn with ⟨a, ha, rfl⟩
    exact h.numbered.below a ((mem_copied h).1 ha)
  -- No number is in use for two sorts.
  have hdisjoint : ∀ e e' : Entity, e ≠ e' →
      List.Disjoint ((q.copied : List (Id e)).map Id.toNat)
        ((q.copied : List (Id e')).map Id.toNat) := by
    intro e e' hne n hn hn'
    rcases List.mem_map.1 hn with ⟨a, ha, rfl⟩
    rcases List.mem_map.1 hn' with ⟨b, hb, hab⟩
    exact hne (h.numbered.apart a b ((mem_copied h).1 ha) ((mem_copied h).1 hb) hab.symm)
  have hnodup : ∀ e : Entity, ((q.copied : List (Id e)).map Id.toNat).Nodup :=
    fun e => (nodup_copied h).map (hinj e)
  have hall : ((q.copied : List ContainerId).map Id.toNat ++
      ((q.copied : List ItemId).map Id.toNat ++ (q.copied : List JoinId).map Id.toNat)).Nodup := by
    refine (hnodup _).append ((hnodup _).append (hnodup _) (hdisjoint _ _ nofun)) ?_
    intro n hn hn'
    rcases List.mem_append.1 hn' with hn' | hn'
    · exact hdisjoint .container .item nofun hn hn'
    · exact hdisjoint .container .join nofun hn hn'
  have hrange : ∀ n ∈ (q.copied : List ContainerId).map Id.toNat ++
      ((q.copied : List ItemId).map Id.toNat ++ (q.copied : List JoinId).map Id.toNat),
      n ∈ List.range q.count := by
    intro n hn
    rw [List.mem_range]
    rcases List.mem_append.1 hn with hn | hn
    · exact hbelow _ n hn
    · rcases List.mem_append.1 hn with hn | hn
      · exact hbelow _ n hn
      · exact hbelow _ n hn
  -- Distinct numbers below the counter are at most as many as the counter says.
  have hlength := (List.subperm_of_subset hall hrange).length_le
  simp only [List.length_append, List.length_map, List.length_range] at hlength
  change q.copyOrder.length + (q.copiedItems.length + q.allJoins.length) ≤ q.count at hlength
  omega

/-! ## The numbers of a copy -/

section Numbers

variable (h : q.WellFormed) (hq : q.count < UInt32.size)

include h

theorem fst_pairs_renumbering :
    (q.renumbering.pairs : List (Id e × Id e)).map Prod.fst = q.copied := by
  rw [pairs_renumbering h, fst_numberFrom]

theorem nodup_fst_renumbering :
    ((q.renumbering.pairs : List (Id e × Id e)).map Prod.fst).Nodup := by
  rw [fst_pairs_renumbering h]
  exact nodup_copied h

theorem knows_of_pairs {a b : Id e} (hab : q.renumbering.Pairs a b) : q.Knows a := by
  rw [← mem_copied h, ← fst_pairs_renumbering h]
  exact List.mem_map.2 ⟨(a, b), hab, rfl⟩

theorem exists_pair {a : Id e} (ha : q.Knows a) : ∃ b, q.renumbering.Pairs a b := by
  rw [← mem_copied h, ← fst_pairs_renumbering h] at ha
  rcases List.mem_map.1 ha with ⟨⟨k, k'⟩, hk, rfl⟩
  exact ⟨k', hk⟩

theorem count_copy (uuid : Uuid) (mint : Minting) :
    (q.copy uuid mint).count =
      q.copyOrder.length + q.copiedItems.length + q.allJoins.length := by
  change (q.renumbering.pairs : List (ContainerId × ContainerId)).length +
    (q.renumbering.pairs : List (ItemId × ItemId)).length +
    (q.renumbering.pairs : List (JoinId × JoinId)).length = _
  simp only [pairs_renumbering h, length_numberFrom]
  rfl

/-- A copy has handed out no more numbers than its original. -/
theorem count_copy_le (uuid : Uuid) (mint : Minting) : (q.copy uuid mint).count ≤ q.count := by
  rw [count_copy h]
  exact length_copied_le h

/-- Known numbers are replaced one by one. -/
theorem renumber_matches {ids : List (Id e)} (hids : ∀ a ∈ ids, q.Knows a) :
    List.Forall₂ q.renumbering.Pairs ids (renumber q.renumbering.pairs ids) := by
  apply forall₂_renumber (nodup_fst_renumbering h)
  intro a ha
  rw [fst_pairs_renumbering h, mem_copied h]
  exact hids a ha

theorem lookup_renumbering {a b : Id e} (hab : q.renumbering.Pairs a b) :
    (q.renumbering.pairs : List (Id e × Id e)).lookup a = some b :=
  (lookup_eq_some (nodup_fst_renumbering h)).2 hab

include hq

/-- The numbers of a copy stand in increasing order, and each sort fills a range of its own. -/
theorem snd_renumbering :
    ((q.renumbering.pairs : List (Id e × Id e)).map Prod.snd).Pairwise
        (fun a b => a.toNat < b.toNat) ∧
      ∀ b ∈ (q.renumbering.pairs : List (Id e × Id e)).map Prod.snd,
        q.firstNumber e ≤ b.toNat ∧
          b.toNat < q.firstNumber e + (q.copied : List (Id e)).length := by
  have hle := length_copied_le h
  rw [pairs_renumbering h]
  refine snd_numberFrom ?_
  cases e <;> simp only [firstNumber, copied] <;> omega

theorem nodup_snd_renumbering :
    ((q.renumbering.pairs : List (Id e × Id e)).map Prod.snd).Nodup := by
  refine (snd_renumbering h hq).1.imp fun {a b} hlt heq => ?_
  rw [heq] at hlt
  exact Nat.lt_irrefl _ hlt

theorem oneToOne_renumbering : q.renumbering.OneToOne := by
  intro e
  constructor
  · intro a b c hac hbc
    exact congrArg Prod.fst (List.inj_on_of_nodup_map (nodup_snd_renumbering h hq) hac hbc rfl)
  · intro a b c hab hac
    exact congrArg Prod.snd (List.inj_on_of_nodup_map (nodup_fst_renumbering h) hab hac rfl)

end Numbers

/-! ## A copy is a twin -/

section Twins

variable (h : q.WellFormed) (hq : q.count < UInt32.size) (uuid : Uuid) (mint : Minting)

include h hq

theorem container?_copy {c c' : ContainerId} (hc : q.renumbering.Pairs c c') :
    (q.copy uuid mint).container? c' = (q.container? c).map fun k =>
      { k with items := renumber q.renumbering.items k.items, uuid := mint c'.toNat } := by
  refine (get?_carry (nodup_snd_renumbering h hq) hc).trans ?_
  change (q.container? c).bind _ = _
  cases q.container? c <;> rfl

theorem item?_copy {i i' : ItemId} (hi : q.renumbering.Pairs i i') {item : Item}
    (hitem : q.item? i = some item) :
    ∃ c, q.renumbering.Pairs item.container c ∧
      (q.copy uuid mint).item? i' = some { item with container := c, uuid := mint i'.toNat } := by
  rcases exists_pair h (e := .container) (h.owned.knows_of_item? hitem) with ⟨c, hc⟩
  have hlookup : q.renumbering.containers.lookup item.container = some c :=
    lookup_renumbering h hc
  refine ⟨c, hc, (get?_carry (nodup_snd_renumbering h hq) hi).trans ?_⟩
  rw [show q.items.get? i = some item from hitem, Option.bind_some, hlookup]
  rfl

theorem join?_copy {j j' : JoinId} (hj : q.renumbering.Pairs j j') {join : Join}
    (hjoin : q.join? j = some join) :
    ∃ left right, q.renumbering.Pairs join.left left ∧ q.renumbering.Pairs join.right right ∧
      (q.copy uuid mint).join? j' = some { join with left, right } := by
  rcases h.indexed.home_of_join hjoin with ⟨l, r, hl, hr, -⟩
  rcases home?_eq_some.1 hl with ⟨x, hx, -⟩
  rcases home?_eq_some.1 hr with ⟨y, hy, -⟩
  rcases exists_pair h (e := .item) (IdMap.contains_of_get? hx) with ⟨left, hleft⟩
  rcases exists_pair h (e := .item) (IdMap.contains_of_get? hy) with ⟨right, hright⟩
  have hlookup : q.renumbering.items.lookup join.left = some left := lookup_renumbering h hleft
  have hlookup' : q.renumbering.items.lookup join.right = some right := lookup_renumbering h hright
  refine ⟨left, right, hleft, hright, (get?_carry (nodup_snd_renumbering h hq) hj).trans ?_⟩
  rw [show q.joins.get? j = some join from hjoin, Option.bind_some, hlookup, hlookup']
  rfl

theorem incidence_copy {c c' : ContainerId} (hc : q.renumbering.Pairs c c') :
    (q.copy uuid mint).incidence.get? c' = (q.incidence.get? c).bind fun js =>
      if renumber q.renumbering.joins js = [] then none
      else some (renumber q.renumbering.joins js) :=
  get?_carry (nodup_snd_renumbering h hq) hc

/-- A number that is known in a copy stands for one that is known in the original. -/
theorem paired_of_knows_copy {a' : Id e} (ha : (q.copy uuid mint).Knows a') :
    ∃ a, q.renumbering.Pairs a a' := by
  cases e with
  | item => exact paired_of_contains_carry (nodup_snd_renumbering h hq) ha
  | container => exact paired_of_contains_carry (nodup_snd_renumbering h hq) ha
  | join => exact paired_of_contains_carry (nodup_snd_renumbering h hq) ha

/-- The joins of a copy are numbered in the order of the originals. -/
theorem allJoins_copy :
    (q.copy uuid mint).allJoins = (q.renumbering.pairs : List (JoinId × JoinId)).map Prod.snd := by
  have hsnd := (snd_renumbering h hq (e := .join)).1
  have hkeys := (q.copy uuid mint).joins.keys_ascending
  -- Both lists are increasing, so it is enough that they have the same members.
  refine List.Perm.eq_of_pairwise ?_ hkeys hsnd ?_
  · intro a b _ _ hab hba
    exact absurd (Nat.lt_trans hab hba) (Nat.lt_irrefl _)
  · refine (List.perm_ext_iff_of_nodup (allJoins_nodup _) (nodup_snd_renumbering h hq)).2 ?_
    intro j'
    rw [mem_allJoins]
    constructor
    · rintro ⟨join', hj'⟩
      have hknows := IdMap.contains_of_get? hj'
      rcases paired_of_knows_copy h hq uuid mint (e := .join) hknows with ⟨j, hj⟩
      exact List.mem_map.2 ⟨(j, j'), hj, rfl⟩
    · intro hj'
      rcases List.mem_map.1 hj' with ⟨⟨j, j'⟩, hj, rfl⟩
      rcases (IdMap.contains_iff _ j).1 (knows_of_pairs h hj) with ⟨join, hjoin⟩
      rcases join?_copy h hq uuid mint hj hjoin with ⟨left, right, -, -, hcopy⟩
      exact ⟨_, hcopy⟩

/-- A copy is a twin of its original along the renumbering that it comes with. -/
theorem twin_copy : Twin q.renumbering q (q.copy uuid mint) where
  oneToOne := oneToOne_renumbering h hq
  below {e a b} hab := by
    have hrange := (snd_renumbering h hq).2 b (List.mem_map.2 ⟨(a, b), hab, rfl⟩)
    refine ⟨h.numbered.below a (knows_of_pairs h hab), ?_⟩
    rw [count_copy h]
    cases e <;> simp only [firstNumber, copied] at hrange <;> omega
  items i i' hi := by
    change Option.Rel _ (q.item? i) ((q.copy uuid mint).item? i')
    rcases (IdMap.contains_iff _ i).1 (knows_of_pairs h hi) with ⟨item, hitem⟩
    rcases item?_copy h hq uuid mint hi hitem with ⟨c, hc, hcopy⟩
    rw [hcopy, show q.item? i = some item from hitem]
    exact .some ⟨rfl, hc⟩
  containers c c' hc := by
    change Option.Rel _ (q.container? c) ((q.copy uuid mint).container? c')
    rcases (IdMap.contains_iff _ c).1 (knows_of_pairs h hc) with ⟨k, hk⟩
    have hk' : q.container? c = some k := hk
    rw [container?_copy h hq uuid mint hc, hk']
    refine .some ⟨rfl, rfl, rfl, renumber_matches h ?_⟩
    intro i hi
    have hmem : i ∈ q.itemsOf c := by simpa [itemsOf, hk'] using hi
    rcases h.owned.item?_of_mem hmem with ⟨item, hitem, -⟩
    exact IdMap.contains_of_get? hitem
  joins j j' hj := by
    change Option.Rel _ (q.join? j) ((q.copy uuid mint).join? j')
    rcases (IdMap.contains_iff _ j).1 (knows_of_pairs h hj) with ⟨join, hjoin⟩
    rcases join?_copy h hq uuid mint hj hjoin with ⟨left, right, hleft, hright, hcopy⟩
    rw [hcopy, show q.join? j = some join from hjoin]
    exact .some ⟨hleft, hright, rfl, rfl, rfl, rfl⟩
  allJoins := by
    have hfst := fst_pairs_renumbering h (e := .join)
    change List.Forall₂ _ (q.copied : List JoinId) _
    rw [allJoins_copy h hq, ← hfst, List.forall₂_map_left_iff, List.forall₂_map_right_iff,
      List.forall₂_same]
    exact fun _ hx => hx
  selected := by
    apply renumber_matches h
    intro i hi
    rcases (h.listed.selected.mem i).1 hi with ⟨item, hitem, -⟩
    exact IdMap.contains_of_get? hitem
  sortList := by
    apply renumber_matches h
    intro i hi
    rcases (h.listed.sortList.mem i).1 hi with ⟨item, hitem, -⟩
    exact IdMap.contains_of_get? hitem
  tables := renumber_matches h fun c hc => h.owned.knows_tables c hc
  constants := by
    change (q.constants, _) ∈ (q.renumbering.pairs : List (ContainerId × ContainerId))
    rw [pairs_renumbering h]
    exact mem_numberFrom.2 ⟨0, Nat.succ_pos _, rfl, rfl⟩
  emptied := rfl

/-! ## A copy is well-formed -/

theorem numbered_copy : (q.copy uuid mint).Numbered where
  below {e} a' ha' := by
    rcases paired_of_knows_copy h hq uuid mint ha' with ⟨a, ha⟩
    exact ((twin_copy h hq uuid mint).below ha).2
  apart {e e'} a' b' ha' hb' heq := by
    rcases paired_of_knows_copy h hq uuid mint ha' with ⟨a, ha⟩
    rcases paired_of_knows_copy h hq uuid mint hb' with ⟨b, hb⟩
    have hrange := (snd_renumbering h hq).2 a' (List.mem_map.2 ⟨(a, a'), ha, rfl⟩)
    have hrange' := (snd_renumbering h hq).2 b' (List.mem_map.2 ⟨(b, b'), hb, rfl⟩)
    -- The three sorts have ranges of their own.
    cases e <;> cases e' <;> simp only [firstNumber, copied] at hrange hrange' <;>
      first | rfl | omega

theorem joinsOf_copy {c c' : ContainerId} (hc : q.renumbering.Pairs c c') :
    List.Forall₂ q.renumbering.Pairs (q.joinsOf c) ((q.copy uuid mint).joinsOf c') := by
  have hinc := incidence_copy h hq uuid mint hc
  unfold joinsOf
  cases hjs : q.incidence.get? c with
  | none =>
    rw [hinc, hjs]
    exact .nil
  | some js =>
    have hknown : ∀ j ∈ js, q.Knows j := by
      intro j hj
      have hmem : j ∈ q.joinsOf c := by simpa [joinsOf, hjs] using hj
      rcases h.indexed.mem_joinsOf.1 hmem with ⟨l, r, hends, -⟩
      rcases ends?_eq_some.1 hends with ⟨join, hjoin, -⟩
      exact IdMap.contains_of_get? hjoin
    have hmatch := renumber_matches h hknown
    -- The original lists at least one join, and every one of them has its number in the copy.
    have hne : renumber q.renumbering.joins js ≠ [] := by
      intro hnil
      have hnil' : js = [] := (nil_iff_nil hmatch).2 hnil
      exact h.indexed.no_empty c (hnil' ▸ hjs)
    rw [hinc, hjs, Option.bind_some, if_neg hne]
    exact hmatch

theorem indexed_copy : (q.copy uuid mint).Indexed where
  ends_of_mem j' hj' := by
    have htwin := twin_copy h hq uuid mint
    rcases exists_of_mem htwin.allJoins hj' with ⟨j, hj, hpair⟩
    rcases h.indexed.ends_of_mem j hj with ⟨l, r, hends, hne⟩
    rcases rel_cases (htwin.ends? hpair) with ⟨hnone, -⟩ | ⟨x, ⟨l', r'⟩, hx, hends', hl, hr⟩
    · rw [hends] at hnone
      cases hnone
    · rw [hends, Option.some.injEq] at hx
      subst hx
      refine ⟨l', r', hends', fun heq => hne ?_⟩
      exact (htwin.oneToOne _).1 hl (heq ▸ hr)
  joinsOf_eq c' := by
    have htwin := twin_copy h hq uuid mint
    by_cases hpaired : ∃ c, q.renumbering.Pairs c c'
    · rcases hpaired with ⟨c, hc⟩
      have hleft := joinsOf_copy h hq uuid mint hc
      -- Either way the list stands for the one of the original, so the two are the same.
      have hright := forall₂_filter (fun _ _ hj => htwin.touches hc hj) htwin.allJoins
      rw [← h.indexed.joinsOf_eq] at hright
      exact List.right_unique_forall₂' (htwin.oneToOne _).2 hleft hright
    · -- A container without an original has no entry, and no join touches it.
      have hinc : (q.copy uuid mint).incidence.get? c' = none := by
        refine IdMap.get?_eq_none fun hknown => hpaired ?_
        exact paired_of_contains_carry (nodup_snd_renumbering h hq (e := .container)) hknown
      have hnone : ∀ j' ∈ (q.copy uuid mint).allJoins, ¬ (q.copy uuid mint).touches c' j' := by
        intro j' hj' htouch
        rcases exists_of_mem htwin.allJoins hj' with ⟨j, -, hpair⟩
        rcases touches_iff.1 htouch with ⟨l', r', hends', hor⟩
        rcases rel_cases (htwin.ends? hpair) with ⟨-, hnone⟩ | ⟨x, y, -, hy, hl, hr⟩
        · rw [hends'] at hnone
          cases hnone
        · rw [hends', Option.some.injEq] at hy
          subst hy
          rcases hor with rfl | rfl
          · exact hpaired ⟨_, hl⟩
          · exact hpaired ⟨_, hr⟩
      rw [List.filter_eq_nil_iff.2 hnone, joinsOf, hinc]
      rfl
  no_empty c' hnil := by
    rcases (get?_carry_eq_some (nodup_snd_renumbering h hq (e := .container))).1 hnil with
      ⟨c, js, -, -, hjs⟩
    change (if _ then none else some _) = some [] at hjs
    split at hjs
    · cases hjs
    · rename_i hne
      exact hne (Option.some.inj hjs)

/-- A copy inherits every invariant of its original. -/
theorem WellFormed.copy : (q.copy uuid mint).WellFormed where
  numbered := numbered_copy h hq uuid mint
  owned := (twin_copy h hq uuid mint).owned
    (fun _ ha => paired_of_knows_copy h hq uuid mint ha) h.owned
  indexed := indexed_copy h hq uuid mint
  listed := (twin_copy h hq uuid mint).listed
    (fun _ ha => paired_of_knows_copy h hq uuid mint ha) h.listed

end Twins

/-! ## Reachable queries are well-formed -/

/-- A query that holds nothing but empty constants is well-formed. -/
theorem WellFormed.bare (uuid : Uuid) (mint : Minting) : (bare uuid mint).WellFormed := by
  let b := Query.bare uuid mint
  have hcontainer : ∀ c, b.container? c =
      if c = .ofCount 0 then some (.ofConstants (mint 0)) else none :=
    fun c => IdMap.get?_insert _ _ _ _
  have hknows : ∀ {e : Entity} (a : Id e), b.Knows a → e = .container ∧ a.toNat = 0 := by
    intro e a ha
    cases e with
    | item => exact absurd ha Bool.false_ne_true
    | join => exact absurd ha Bool.false_ne_true
    | container =>
      rcases (IdMap.contains_insert _ _ _ _).1 ha with rfl | ha
      · exact ⟨rfl, rfl⟩
      · exact absurd ha Bool.false_ne_true
  have hitems : ∀ c, b.itemsOf c = [] := by
    intro c
    rw [itemsOf, hcontainer]
    split <;> rfl
  have hlists : ∀ p, b.Lists p [] := by
    intro p
    refine ⟨List.nodup_nil, fun i => iff_of_false List.not_mem_nil ?_⟩
    rintro ⟨item, hitem, -⟩
    cases hitem
  constructor
  · constructor
    · intro e a ha
      rw [(hknows a ha).2]
      exact Nat.one_pos
    · intro e e' a a' ha ha' _
      rw [(hknows a ha).1, (hknows a' ha').1]
  · constructor
    · intro c
      rw [hitems]
      exact List.nodup_nil
    · intro c i
      rw [hitems]
      refine iff_of_false List.not_mem_nil ?_
      intro hi
      cases hi
    · exact List.nodup_nil
    · exact fun c hc => absurd hc List.not_mem_nil
    · exact bare_knows_constants uuid mint
    · exact List.not_mem_nil
    · intro c k hk
      rw [hcontainer] at hk
      split at hk
      · rename_i hc
        cases hk
        exact iff_of_true rfl hc
      · cases hk
  · refine ⟨fun j hj => absurd hj List.not_mem_nil, fun c => rfl, ?_⟩
    intro c hc
    cases hc
  · exact ⟨hlists _, hlists _⟩

namespace Reachable

/-- Every reachable query is well-formed, and its counter is within 32 bits. -/
theorem wellFormed_and_count_lt (h : q.Reachable) : q.WellFormed ∧ q.count < UInt32.size := by
  refine h.induction (P := fun q => q.WellFormed ∧ q.count < UInt32.size) ?_ ?_ ?_
  · intro uuid mint
    exact ⟨.bare uuid mint, show 1 < UInt32.size by decide⟩
  · rintro q op ⟨hw, hq⟩ hcount
    exact ⟨hw.after hq op, hcount⟩
  · rintro q uuid mint ⟨hw, hq⟩
    exact ⟨hw.copy hq uuid mint, Nat.lt_of_le_of_lt (count_copy_le hw uuid mint) hq⟩

theorem wellFormed (h : q.Reachable) : q.WellFormed := h.wellFormed_and_count_lt.1

theorem count_lt (h : q.Reachable) : q.count < UInt32.size := h.wellFormed_and_count_lt.2

end Reachable

end Query

end LiveSelect
