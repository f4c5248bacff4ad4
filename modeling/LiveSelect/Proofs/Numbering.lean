import LiveSelect.Proofs.Maps
import LiveSelect.Query.Basic

/-! # Numbers of entities

Items, containers and joins are numbered from one counter. The invariant is that every
number in use is below the counter and belongs to entities of one sort only; so the number
that is handed out next is new for each of the three sorts. -/

namespace LiveSelect.Query

variable {q q' : Query}

/-- Whether an entity is known under a number. -/
def Knows (q : Query) : {e : Entity} → Id e → Prop
  | .item, i => q.items.contains i
  | .container, c => q.containers.contains c
  | .join, j => q.joins.contains j

instance (q : Query) {e : Entity} (i : Id e) : Decidable (q.Knows i) :=
  match e with
  | .item => inferInstanceAs (Decidable (q.items.contains i = true))
  | .container => inferInstanceAs (Decidable (q.containers.contains i = true))
  | .join => inferInstanceAs (Decidable (q.joins.contains i = true))

/-- Numbers in use are below the counter, and each is in use for one sort of entity. -/
structure Numbered (q : Query) : Prop where
  below : ∀ {e : Entity} (i : Id e), q.Knows i → i.toNat < q.count
  apart : ∀ {e e' : Entity} (i : Id e) (i' : Id e'),
    q.Knows i → q.Knows i' → i.toNat = i'.toNat → e = e'

/-- Within 32 bits the next number is the counter. -/
theorem toNat_nextId {e : Entity} (hq : q.count < UInt32.size) :
    (q.nextId : Id e).toNat = q.count :=
  Id.toNat_ofCount hq

namespace Numbered

theorem ne_nextId (h : q.Numbered) (hq : q.count < UInt32.size) {e : Entity} {i : Id e}
    (hi : q.Knows i) : i ≠ q.nextId := by
  intro heq
  have hlt : i.toNat < q.count := h.below i hi
  rw [heq, toNat_nextId hq] at hlt
  exact Nat.lt_irrefl _ hlt

theorem fresh (h : q.Numbered) (hq : q.count < UInt32.size) {e : Entity} :
    ¬ q.Knows (q.nextId : Id e) :=
  fun hk => h.ne_nextId hq hk rfl

theorem item?_nextId (h : q.Numbered) (hq : q.count < UInt32.size) : q.item? q.nextId = none :=
  IdMap.get?_eq_none (h.fresh hq (e := .item))

/-- Forgetting entities and skipping numbers keeps the numbering. -/
theorem mono (h : q.Numbered) (hcount : q.count ≤ q'.count)
    (hk : ∀ {e : Entity} (i : Id e), q'.Knows i → q.Knows i) : q'.Numbered where
  below i hi := Nat.lt_of_lt_of_le (h.below i (hk i hi)) hcount
  apart i i' hi hi' := h.apart i i' (hk i hi) (hk i' hi')

/-- The numbering sees the three arenas and the counter only. -/
theorem congr (h : q.Numbered) (hitems : q'.items = q.items)
    (hcontainers : q'.containers = q.containers) (hjoins : q'.joins = q.joins)
    (hcount : q'.count = q.count) : q'.Numbered := by
  apply h.mono (Nat.le_of_eq hcount.symm)
  intro e i hi
  cases e <;> simpa only [Knows, hitems, hcontainers, hjoins] using hi

/-- Handing out the next number to one new entity keeps the numbering. -/
theorem grow (h : q.Numbered) (hq : q.count < UInt32.size) (hcount : q'.count = q.count + 1)
    (new : Entity)
    (hk : ∀ {e : Entity} (i : Id e), q'.Knows i → q.Knows i ∨ (e = new ∧ i = q.nextId)) :
    q'.Numbered where
  below i hi := by
    rcases hk i hi with hi | ⟨_, rfl⟩
    · have := h.below i hi
      omega
    · rw [toNat_nextId hq]
      omega
  apart i i' hi hi' heq := by
    -- A new number is the counter itself, and an old one lies below it.
    rcases hk i hi with hi | ⟨rfl, rfl⟩ <;> rcases hk i' hi' with hi' | ⟨rfl, rfl⟩
    · exact h.apart i i' hi hi' heq
    · have := h.below i hi
      rw [heq, toNat_nextId hq] at this
      omega
    · have := h.below i' hi'
      rw [← heq, toNat_nextId hq] at this
      omega
    · rfl

end Numbered

end LiveSelect.Query
