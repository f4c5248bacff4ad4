import Mathlib.Data.List.Forall2
import LiveSelect.Query.Copy
import LiveSelect.Proofs.Maps

/-! # Pairs of numbers

A renumbering says which number of one query stands for which number of another. Options,
lists and maps match along it when they have the same shape and hold, place by place, what
stands for each other; so do items, containers and joins, whose identifiers are ignored.
Matching is kept by the operations on lists and maps as long as no number stands for two. -/

namespace LiveSelect

/-! ## Options and lists -/

section Shapes

variable {α β γ δ : Type} {R : α → β → Prop} {S : γ → δ → Prop} {a : Option α} {b : Option β}

theorem rel_isSome (h : Option.Rel R a b) : a.isSome = b.isSome := by
  cases h <;> rfl

theorem rel_any {p : α → Bool} {p' : β → Bool} (hp : ∀ x y, R x y → p x = p' y)
    (h : Option.Rel R a b) : a.any p = b.any p' := by
  cases h with
  | none => rfl
  | some hxy => exact hp _ _ hxy

theorem rel_map {f : α → γ} {f' : β → δ} (hf : ∀ x y, R x y → S (f x) (f' y))
    (h : Option.Rel R a b) : Option.Rel S (a.map f) (b.map f') := by
  cases h with
  | none => exact .none
  | some hxy => exact .some (hf _ _ hxy)

theorem rel_bind {f : α → Option γ} {f' : β → Option δ}
    (hf : ∀ x y, R x y → Option.Rel S (f x) (f' y)) (h : Option.Rel R a b) :
    Option.Rel S (a.bind f) (b.bind f') := by
  cases h with
  | none => exact .none
  | some hxy => exact hf _ _ hxy

theorem rel_imp {R' : α → β → Prop} (hR : ∀ x y, R x y → R' x y) (h : Option.Rel R a b) :
    Option.Rel R' a b := by
  cases h with
  | none => exact .none
  | some hxy => exact .some (hR _ _ hxy)

/-- Options that match are both empty or both full. -/
theorem rel_cases (h : Option.Rel R a b) :
    (a = none ∧ b = none) ∨ ∃ x y, a = some x ∧ b = some y ∧ R x y := by
  cases h with
  | none => exact Or.inl ⟨rfl, rfl⟩
  | some hxy => exact Or.inr ⟨_, _, rfl, rfl, hxy⟩

theorem eq_of_rel {a b : Option α} (h : Option.Rel Eq a b) : a = b := by
  cases h with
  | none => rfl
  | some hxy => rw [hxy]

variable {l : List α} {l' : List β} {x : α} {y : β}

theorem eq_iff_eq (hR : Relator.BiUnique R) {x' : α} {y' : β} (hx : R x y) (hx' : R x' y') :
    x = x' ↔ y = y' :=
  Relator.rel_eq hR hx hx'

theorem mem_iff_mem (hR : Relator.BiUnique R) (hx : R x y) (hl : List.Forall₂ R l l') :
    x ∈ l ↔ y ∈ l' :=
  List.rel_mem hR hx hl

theorem contains_eq [BEq α] [LawfulBEq α] [BEq β] [LawfulBEq β] (hR : Relator.BiUnique R)
    (hx : R x y) (hl : List.Forall₂ R l l') : l.contains x = l'.contains y := by
  rw [Bool.eq_iff_iff, List.contains_iff_mem, List.contains_iff_mem]
  exact mem_iff_mem hR hx hl

/-- Loops in which corresponding steps keep a relation keep it as a whole. -/
theorem foldl_matches {P : γ → δ → Prop} {f : γ → α → γ} {f' : δ → β → δ} {s : γ} {t : δ}
    (h : P s t) (hl : List.Forall₂ R l l')
    (hf : ∀ s t x y, P s t → R x y → P (f s x) (f' t y)) : P (l.foldl f s) (l'.foldl f' t) := by
  induction hl generalizing s t with
  | nil => exact h
  | cons hxy _ ih => exact ih (hf _ _ _ _ h hxy)

theorem map_eq_map {f : α → γ} {f' : β → γ} (hl : List.Forall₂ R l l')
    (hf : ∀ x y, R x y → f x = f' y) : l.map f = l'.map f' := by
  have h := List.rel_map (P := Eq) (fun x y hxy => hf x y hxy) hl
  rwa [List.forall₂_eq_eq_eq] at h

theorem filterMap_eq_filterMap {f : α → Option γ} {f' : β → Option γ} (hl : List.Forall₂ R l l')
    (hf : ∀ x y, R x y → f x = f' y) : l.filterMap f = l'.filterMap f' := by
  induction hl with
  | nil => rfl
  | cons hxy _ ih => rw [List.filterMap_cons, List.filterMap_cons, hf _ _ hxy, ih]

theorem findSome?_eq_findSome? {f : α → Option γ} {f' : β → Option γ} (hl : List.Forall₂ R l l')
    (hf : ∀ x y, R x y → f x = f' y) : l.findSome? f = l'.findSome? f' := by
  induction hl with
  | nil => rfl
  | cons hxy _ ih => rw [List.findSome?_cons, List.findSome?_cons, hf _ _ hxy, ih]

/-- A member of one list stands for a member of the other. -/
theorem exists_of_mem (hl : List.Forall₂ R l l') (hy : y ∈ l') : ∃ x ∈ l, R x y := by
  induction hl with
  | nil => exact absurd hy List.not_mem_nil
  | @cons u v us vs huv _ ih =>
    rcases List.mem_cons.1 hy with rfl | hy
    · exact ⟨u, List.mem_cons_self, huv⟩
    · rcases ih hy with ⟨x, hx, hxy⟩
      exact ⟨x, List.mem_cons_of_mem _ hx, hxy⟩

theorem rel_head? (hl : List.Forall₂ R l l') : Option.Rel R l.head? l'.head? := by
  cases hl with
  | nil => exact .none
  | cons hxy _ => exact .some hxy

theorem nil_iff_nil (hl : List.Forall₂ R l l') : l = [] ↔ l' = [] := by
  rw [← List.length_eq_zero_iff, ← List.length_eq_zero_iff, hl.length_eq]

theorem forall₂_filter {p : α → Bool} {p' : β → Bool} (hp : ∀ x y, R x y → p x = p' y)
    (hl : List.Forall₂ R l l') : List.Forall₂ R (l.filter p) (l'.filter p') := by
  refine List.rel_filter ?_ hl
  intro x y hxy
  exact iff_of_eq (congrArg (· = true) (hp x y hxy))

theorem forall₂_without [DecidableEq α] [DecidableEq β] (hR : Relator.BiUnique R) (hx : R x y)
    (hl : List.Forall₂ R l l') : List.Forall₂ R (l.filter (· ≠ x)) (l'.filter (· ≠ y)) := by
  refine forall₂_filter ?_ hl
  intro u v huv
  rw [decide_eq_decide]
  exact not_congr (eq_iff_eq hR huv hx)

theorem forall₂_erase [DecidableEq α] [DecidableEq β] (hR : Relator.BiUnique R) (hx : R x y)
    (hl : List.Forall₂ R l l') : List.Forall₂ R (l.erase x) (l'.erase y) := by
  induction hl with
  | nil => exact .nil
  | @cons u v us vs huv hrest ih =>
    rw [List.erase_cons, List.erase_cons]
    by_cases hu : u = x
    · -- The heads are the ones to erase, on both sides at once.
      have hv : v = y := (eq_iff_eq hR huv hx).1 hu
      simpa [hu, hv] using hrest
    · have hv : v ≠ y := fun hv => hu ((eq_iff_eq hR huv hx).2 hv)
      simpa [hu, hv] using ⟨huv, ih⟩

theorem forall₂_insertIdx (n : Nat) (hx : R x y) (hl : List.Forall₂ R l l') :
    List.Forall₂ R (l.insertIdx n x) (l'.insertIdx n y) := by
  induction hl generalizing n with
  | nil =>
    cases n with
    | zero => exact .cons hx .nil
    | succ n => exact .nil
  | cons huv hrest ih =>
    cases n with
    | zero => exact .cons hx (.cons huv hrest)
    | succ n => exact .cons huv (ih n)

end Shapes

/-! ## Renumberings -/

namespace Renumbering

/-- The pairs of numbers of one sort. -/
def pairs (r : Renumbering) : {e : Entity} → List (Id e × Id e)
  | .item => r.items
  | .container => r.containers
  | .join => r.joins

/-- Whether a new number stands for an old one. -/
def Pairs (r : Renumbering) {e : Entity} (old new : Id e) : Prop := (old, new) ∈ r.pairs

/-- The renumbering with one more pair. -/
def add (r : Renumbering) : {e : Entity} → Id e → Id e → Renumbering
  | .item, i, i' => { r with items := r.items ++ [(i, i')] }
  | .container, c, c' => { r with containers := r.containers ++ [(c, c')] }
  | .join, j, j' => { r with joins := r.joins ++ [(j, j')] }

/-- No number stands for two others, and no two stand for one. -/
def OneToOne (r : Renumbering) : Prop :=
  ∀ e : Entity, Relator.BiUnique (r.Pairs : Id e → Id e → Prop)

/-- Every pair of the first renumbering is one of the second. -/
def Within (r r' : Renumbering) : Prop :=
  ∀ ⦃e : Entity⦄ ⦃a b : Id e⦄, r.Pairs a b → r'.Pairs a b

variable {r r' : Renumbering} {e e' : Entity}

theorem pairs_add_self (r : Renumbering) (a b : Id e) : (r.add a b).Pairs a b := by
  cases e <;> simp [Pairs, add, pairs]

theorem within_add (r : Renumbering) (a b : Id e) : r.Within (r.add a b) := by
  intro e' x y h
  cases e <;> cases e' <;> simp_all [Pairs, add, pairs]

/-- A pair is an old one or the new one. -/
theorem pairs_add {a b : Id e} {x y : Id e'} (h : (r.add a b).Pairs x y) :
    r.Pairs x y ∨ (e' = e ∧ x.toNat = a.toNat ∧ y.toNat = b.toNat) := by
  cases e <;> cases e' <;> simp_all [Pairs, add, pairs] <;> grind

/-- A renumbering stays one to one when a pair of numbers is added that it does not have. -/
theorem OneToOne.add (h : r.OneToOne) {a b : Id e} (ha : ∀ y, ¬ r.Pairs a y)
    (hb : ∀ x, ¬ r.Pairs x b) : (r.add a b).OneToOne := by
  intro e'
  constructor
  · intro x y z hxz hyz
    rcases pairs_add hxz with hx | ⟨rfl, hx, hz⟩
    · rcases pairs_add hyz with hy | ⟨rfl, _, hz⟩
      · -- both pairs are old
        exact (h e').1 hx hy
      · -- an old pair would hold the new number
        exact absurd (Id.toNat_inj.1 hz ▸ hx) (hb x)
    · rcases pairs_add hyz with hy | ⟨_, hy, _⟩
      · exact absurd (Id.toNat_inj.1 hz ▸ hy) (hb y)
      · exact Id.toNat_inj.1 (hx.trans hy.symm)
  · intro x y z hxy hxz
    rcases pairs_add hxy with hy | ⟨rfl, hx, hy⟩
    · rcases pairs_add hxz with hz | ⟨rfl, hx, _⟩
      · exact (h e').2 hy hz
      · exact absurd (Id.toNat_inj.1 hx ▸ hy) (ha y)
    · rcases pairs_add hxz with hz | ⟨_, _, hz⟩
      · exact absurd (Id.toNat_inj.1 hx ▸ hz) (ha z)
      · exact Id.toNat_inj.1 (hy.trans hz.symm)

end Renumbering

/-! ## Entities -/

/-- Items that are the same but for their identifiers and the numbers of their containers. -/
structure Item.Matches (r : Renumbering) (x y : Item) : Prop where
  spec : x.toItemSpec = y.toItemSpec
  container : r.Pairs x.container y.container

/-- Containers that are the same but for their identifiers and the numbers of their items. -/
structure Container.Matches (r : Renumbering) (x y : Container) : Prop where
  name : x.name = y.name
  aliasName : x.aliasName = y.aliasName
  kind : x.kind = y.kind
  items : List.Forall₂ r.Pairs x.items y.items

/-- Joins that are the same but for the numbers of their columns. -/
structure Join.Matches (r : Renumbering) (x y : Join) : Prop where
  left : r.Pairs x.left y.left
  right : r.Pairs x.right y.right
  comparator : x.comparator = y.comparator
  leftOuter : x.leftOuter = y.leftOuter
  rightOuter : x.rightOuter = y.rightOuter
  name : x.name = y.name

section Entities

variable {r r' : Renumbering}

theorem Item.Matches.mono (hr : r.Within r') {x y : Item} (h : x.Matches r y) : x.Matches r' y :=
  ⟨h.spec, hr h.container⟩

theorem Item.Matches.selected {x y : Item} (h : x.Matches r y) : x.selected = y.selected :=
  congrArg ItemSpec.selected h.spec

theorem Item.Matches.isSorted {x y : Item} (h : x.Matches r y) : x.isSorted = y.isSorted :=
  congrArg (fun s : ItemSpec => decide (s.sortOrder ≠ .unsorted)) h.spec

theorem Container.Matches.mono (hr : r.Within r') {x y : Container} (h : x.Matches r y) :
    x.Matches r' y :=
  { h with items := h.items.imp fun _ _ hab => hr hab }

theorem Join.Matches.mono (hr : r.Within r') {x y : Join} (h : x.Matches r y) : x.Matches r' y :=
  { h with left := hr h.left, right := hr h.right }

theorem Join.Matches.column {x y : Join} (h : x.Matches r y) (side : Side) :
    r.Pairs (x.column side) (y.column side) := by
  cases side with
  | left => exact h.left
  | right => exact h.right

theorem Join.Matches.outer {x y : Join} (h : x.Matches r y) (side : Side) :
    x.outer side = y.outer side := by
  cases side with
  | left => exact h.leftOuter
  | right => exact h.rightOuter

theorem Join.Matches.withOuter {x y : Join} (h : x.Matches r y) (side : Side) (outer : Bool) :
    (x.withOuter side outer).Matches r (y.withOuter side outer) := by
  cases side with
  | left => exact { h with leftOuter := rfl }
  | right => exact { h with rightOuter := rfl }

end Entities

/-! ## Maps -/

/-- Maps hold matching values under numbers that stand for each other. -/
def IdMap.Matches {e : Entity} {α β : Type} (r : Renumbering) (R : α → β → Prop) (m : IdMap e α)
    (m' : IdMap e β) : Prop :=
  ∀ k k', r.Pairs k k' → Option.Rel R (m.get? k) (m'.get? k')

namespace IdMap.Matches

variable {e : Entity} {α β : Type} {r : Renumbering} {R : α → β → Prop} {m : IdMap e α}
  {m' : IdMap e β} {i i' : Id e}

theorem contains (h : m.Matches r R m') (hi : r.Pairs i i') : m.contains i = m'.contains i' :=
  rel_isSome (h i i' hi)

theorem insert (hr : r.OneToOne) (h : m.Matches r R m') (hi : r.Pairs i i') {a : α} {b : β}
    (hab : R a b) : (m.insert i a).Matches r R (m'.insert i' b) := by
  intro k k' hk
  rw [get?_insert, get?_insert]
  by_cases heq : k = i
  · rw [if_pos heq, if_pos ((eq_iff_eq (hr e) hk hi).1 heq)]
    exact .some hab
  · rw [if_neg heq, if_neg fun heq' => heq ((eq_iff_eq (hr e) hk hi).2 heq')]
    exact h k k' hk

theorem erase (hr : r.OneToOne) (h : m.Matches r R m') (hi : r.Pairs i i') :
    (m.erase i).Matches r R (m'.erase i') := by
  intro k k' hk
  rw [get?_erase, get?_erase]
  by_cases heq : k = i
  · rw [if_pos heq, if_pos ((eq_iff_eq (hr e) hk hi).1 heq)]
    exact .none
  · rw [if_neg heq, if_neg fun heq' => heq ((eq_iff_eq (hr e) hk hi).2 heq')]
    exact h k k' hk

theorem modify (hr : r.OneToOne) (h : m.Matches r R m') (hi : r.Pairs i i') {f : α → α}
    {g : β → β} (hfg : ∀ a b, R a b → R (f a) (g b)) :
    (m.modify i f).Matches r R (m'.modify i' g) := by
  intro k k' hk
  rw [get?_modify, get?_modify]
  by_cases heq : k = i
  · rw [if_pos heq, if_pos ((eq_iff_eq (hr e) hk hi).1 heq)]
    exact rel_map hfg (h k k' hk)
  · rw [if_neg heq, if_neg fun heq' => heq ((eq_iff_eq (hr e) hk hi).2 heq')]
    exact h k k' hk

/-- Under a new pair there is nothing yet. -/
theorem add {e' : Entity} {R' : α → β → Prop} (h : m.Matches r R m') (hR : ∀ a b, R a b → R' a b)
    {n n' : Id e'} (hn : ∀ k : Id e, e = e' → k.toNat = n.toNat → m.get? k = none)
    (hn' : ∀ k : Id e, e = e' → k.toNat = n'.toNat → m'.get? k = none) :
    m.Matches (r.add n n') R' m' := by
  intro k k' hk
  rcases Renumbering.pairs_add hk with hk | ⟨he, hk, hk'⟩
  · exact rel_imp hR (h k k' hk)
  · -- Both numbers of the new pair are free.
    rw [hn k he hk, hn' k' he hk']
    exact .none

end IdMap.Matches

end LiveSelect
