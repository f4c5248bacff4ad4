import Mathlib.Data.List.Basic
import LiveSelect.IdMap

/-! # Facts about maps

What the keys and the entries of a map are after each of its operations. A new key that is
greater than all others goes to the end of the keys, which is why keys stand in the order
in which they were handed out. -/

namespace LiveSelect

/-- Look-ups in a list of pairs with distinct first members find exactly the pairs. -/
theorem lookup_eq_some {κ ν : Type} [DecidableEq κ] {pairs : List (κ × ν)}
    (h : (pairs.map Prod.fst).Nodup) {a : κ} {b : ν} :
    pairs.lookup a = some b ↔ (a, b) ∈ pairs := by
  induction pairs with
  | nil => simp
  | cons x rest ih =>
    rcases x with ⟨k, k'⟩
    have hnodup := List.nodup_cons.1 h
    rw [List.lookup_cons, List.mem_cons]
    by_cases hk : a = k
    · -- A first member that is found at the head is not found again.
      subst hk
      have hrest : (a, b) ∉ rest :=
        fun hmem => hnodup.1 (List.mem_map.2 ⟨(a, b), hmem, rfl⟩)
      simp [hrest, eq_comm]
    · simp [hk, beq_false_of_ne hk, ih hnodup.2]

namespace IdMap

variable {e : Entity} {α β : Type} (m : IdMap e α)

theorem contains_iff (k : Id e) : m.contains k ↔ ∃ a, m.get? k = some a :=
  Option.isSome_iff_exists

theorem contains_of_get? {m : IdMap e α} {k : Id e} {a : α} (h : m.get? k = some a) :
    m.contains k :=
  (m.contains_iff k).2 ⟨a, h⟩

theorem get?_eq_none {m : IdMap e α} {k : Id e} (h : ¬ m.contains k) : m.get? k = none := by
  simpa [contains] using h

theorem contains_insert (id k : Id e) (a : α) :
    (m.insert id a).contains k ↔ k = id ∨ m.contains k := by
  by_cases hk : k = id <;> simp [contains, get?_insert, hk]

theorem contains_erase (id k : Id e) :
    (m.erase id).contains k ↔ k ≠ id ∧ m.contains k := by
  by_cases hk : k = id <;> simp [contains, get?_erase, hk]

theorem contains_modify (id k : Id e) (f : α → α) :
    (m.modify id f).contains k ↔ m.contains k := by
  by_cases hk : k = id <;> simp [contains, get?_modify, hk]

/-- Erasing a key that is absent changes nothing. -/
theorem erase_of_absent {m : IdMap e α} {id : Id e} (h : ¬ m.contains id) : m.erase id = m := by
  apply ext_get?
  intro k
  rw [get?_erase]
  split
  · rename_i hk
    rw [hk, get?_eq_none h]
  · rfl

/-- Erasing an entry that is new gives the map back. -/
theorem erase_insert {m : IdMap e α} {id : Id e} (h : ¬ m.contains id) (a : α) :
    (m.insert id a).erase id = m := by
  apply ext_get?
  intro k
  rw [get?_erase, get?_insert]
  split
  · rename_i hk
    rw [hk, get?_eq_none h]
  · rfl

theorem modify_eq_self {m : IdMap e α} {id : Id e} {f : α → α}
    (h : ∀ a, m.get? id = some a → f a = a) : m.modify id f = m := by
  apply ext_get?
  intro k
  rw [get?_modify]
  split
  · rename_i hk
    subst hk
    cases hget : m.get? k with
    | none => rfl
    | some a => rw [Option.map_some, h a hget]
  · rfl

theorem modify_modify (id : Id e) (f g : α → α) :
    (m.modify id f).modify id g = m.modify id (g ∘ f) := by
  apply ext_get?
  intro k
  simp only [get?_modify]
  split
  · exact Option.map_map _ _ _
  · rfl

/-! ## Keys -/

theorem keys_modify (id : Id e) (f : α → α) : (m.modify id f).keys = m.keys := by
  simp only [keys, modify, List.map_map]
  apply List.map_congr_left
  intro x _
  simp only [Function.comp_apply]
  split <;> rfl

theorem keys_erase (id : Id e) : (m.erase id).keys = m.keys.filter (· ≠ id) := by
  simp only [keys, erase, List.filter_map]
  rfl

/-- Placing an id above all others appends it. -/
theorem place_above {id : Id e} {a : α} {l : List (Id e × α)}
    (h : ∀ x ∈ l, x.1.toNat < id.toNat) : place id a l = l ++ [(id, a)] := by
  induction l with
  | nil => rfl
  | cons y rest ih =>
    have hy : y.1.toNat < id.toNat := h y List.mem_cons_self
    have hne : id ≠ y.1 := by
      rintro rfl
      exact absurd hy (Nat.lt_irrefl _)
    rw [place, if_neg (by omega), if_neg hne, ih fun x hx => h x (List.mem_cons_of_mem _ hx)]
    rfl

/-- A key above all others goes to the end. -/
theorem keys_insert_above {m : IdMap e α} {id : Id e} (a : α)
    (h : ∀ k, m.contains k → k.toNat < id.toNat) : (m.insert id a).keys = m.keys ++ [id] := by
  have hplace : place id a m.entries = m.entries ++ [(id, a)] := by
    apply place_above
    intro x hx
    apply h
    rw [← mem_keys_iff]
    exact List.mem_map_of_mem hx
  simp [keys, insert, hplace]

/-! ## Maps from lists of entries -/

/-- Inserting entries with distinct ids, none of them known, adds exactly these entries. -/
theorem get?_foldl_insert (l : List (Id e × α)) (hl : (l.map Prod.fst).Nodup)
    (hm : ∀ x ∈ l, ¬ m.contains x.1) (k : Id e) (a : α) :
    (l.foldl (fun m x => m.insert x.1 x.2) m).get? k = some a ↔
      (k, a) ∈ l ∨ m.get? k = some a := by
  induction l generalizing m with
  | nil => simp
  | cons y rest ih =>
    -- The first entry is a known id for the rest, but no id of the rest is equal to it.
    have hnd := List.nodup_cons.1 (by simpa using hl : (y.1 :: rest.map Prod.fst).Nodup)
    have hfresh : ∀ x ∈ rest, ¬ (m.insert y.1 y.2).contains x.1 := by
      intro x hx hc
      rcases (m.contains_insert _ _ _).1 hc with heq | hc
      · exact hnd.1 (heq ▸ List.mem_map_of_mem hx)
      · exact hm x (List.mem_cons_of_mem _ hx) hc
    rw [List.foldl_cons, ih _ hnd.2 hfresh, get?_insert, List.mem_cons]
    by_cases hk : k = y.1
    · have hno : m.get? k = none := get?_eq_none (hk ▸ hm y List.mem_cons_self)
      subst hk
      simp only [if_true, Option.some.injEq, hno, reduceCtorEq, or_false, Prod.ext_iff, true_and]
      constructor
      · rintro (h | rfl)
        · exact Or.inr h
        · exact Or.inl rfl
      · rintro (rfl | h)
        · exact Or.inr rfl
        · exact Or.inl h
    · simp [hk, Prod.ext_iff]

/-- With distinct ids, look-ups in a map from entries find exactly these entries. -/
theorem get?_ofList {l : List (Id e × α)} (hl : (l.map Prod.fst).Nodup) (k : Id e) (a : α) :
    (ofList l).get? k = some a ↔ (k, a) ∈ l := by
  have h := get?_foldl_insert (∅ : IdMap e α) l hl (by simp [contains]) k a
  simpa [ofList] using h

/-- Erasing several keys forgets these keys and no others. -/
theorem get?_foldl_erase (gone : List (Id e)) (k : Id e) :
    (gone.foldl erase m).get? k = if k ∈ gone then none else m.get? k := by
  induction gone generalizing m with
  | nil => simp
  | cons i rest ih =>
    rw [List.foldl_cons, ih, get?_erase]
    by_cases hk : k = i <;> simp [hk]

end IdMap

end LiveSelect
