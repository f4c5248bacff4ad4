import LiveSelect.Id

/-! # Finite maps keyed by ids

An `IdMap e α` gives values to finitely many ids. Its entries are kept in strictly
increasing order of ids, so two maps that answer every look-up alike are equal
(`IdMap.ext_get?`), and listing the keys gives them in the order they were handed out. -/

namespace LiveSelect

variable {e : Entity} {α β : Type}

/-- Entries stand in strictly increasing order of their ids. -/
abbrev Ascending (entries : List (Id e × α)) : Prop :=
  entries.Pairwise fun a b => a.1.toNat < b.1.toNat

/-- A finite map from ids to values, kept in the order of ids. -/
structure IdMap (e : Entity) (α : Type) where
  entries : List (Id e × α)
  ascending : Ascending entries

namespace IdMap

/-- The map without entries. -/
def empty : IdMap e α := ⟨[], List.Pairwise.nil⟩

instance : EmptyCollection (IdMap e α) := ⟨empty⟩

instance : Inhabited (IdMap e α) := ⟨empty⟩

/-- The value at `id`, if it has one. -/
def get? (m : IdMap e α) (id : Id e) : Option α := m.entries.lookup id

/-- Whether `id` has a value. -/
def contains (m : IdMap e α) (id : Id e) : Bool := (m.get? id).isSome

/-- The ids that have a value, in increasing order. -/
def keys (m : IdMap e α) : List (Id e) := m.entries.map Prod.fst

/-- Puts an entry in its place, instead of an entry with the same id. -/
def place (id : Id e) (a : α) : List (Id e × α) → List (Id e × α)
  | [] => [(id, a)]
  | (k, b) :: rest =>
    if id.toNat < k.toNat then (id, a) :: (k, b) :: rest
    else if id = k then (id, a) :: rest
    else (k, b) :: place id a rest

theorem mem_place {id : Id e} {a : α} {x : Id e × α} {l : List (Id e × α)} :
    x ∈ place id a l → x = (id, a) ∨ x ∈ l := by
  induction l with
  | nil => simp [place]
  | cons y rest ih => grind [place]

theorem ascending_place (id : Id e) (a : α) {l : List (Id e × α)} (h : Ascending l) :
    Ascending (place id a l) := by
  induction l with
  | nil => simp [place]
  | cons y rest ih =>
    obtain ⟨hy, hr⟩ := List.pairwise_cons.1 h
    rw [place]
    split
    · rename_i hlt
      refine List.pairwise_cons.2 ⟨fun x hx => ?_, h⟩
      rcases List.mem_cons.1 hx with rfl | hx
      · exact hlt
      · exact Nat.lt_trans hlt (hy x hx)
    · split
      · rename_i heq
        subst heq
        exact List.pairwise_cons.2 ⟨hy, hr⟩
      · rename_i hlt hne
        refine List.pairwise_cons.2 ⟨fun x hx => ?_, ih hr⟩
        rcases mem_place hx with rfl | hx
        · have : id.toNat ≠ y.1.toNat := fun h => hne (Id.toNat_inj.1 h)
          simp only
          omega
        · exact hy x hx

/-- The map with the value at `id` set. -/
def insert (m : IdMap e α) (id : Id e) (a : α) : IdMap e α :=
  ⟨place id a m.entries, ascending_place id a m.ascending⟩

/-- The map without a value at `id`. -/
def erase (m : IdMap e α) (id : Id e) : IdMap e α :=
  ⟨m.entries.filter (·.1 ≠ id), m.ascending.filter _⟩

/-- The map with `f` applied to the value at `id`, if there is one. -/
def modify (m : IdMap e α) (id : Id e) (f : α → α) : IdMap e α :=
  ⟨m.entries.map fun x => if x.1 = id then (x.1, f x.2) else x, by
    refine List.pairwise_map.2 (m.ascending.imp ?_)
    intro a b h
    split <;> split <;> exact h⟩

/-- The map with the given entries; of several at one id the last counts. -/
def ofList (entries : List (Id e × α)) : IdMap e α :=
  entries.foldl (fun m x => m.insert x.1 x.2) ∅

/-! ## Look-ups -/

@[simp] theorem get?_empty (id : Id e) : (∅ : IdMap e α).get? id = none := rfl

theorem lookup_place (id k : Id e) (a : α) (l : List (Id e × α)) :
    (place id a l).lookup k = if k = id then some a else l.lookup k := by
  induction l with
  | nil => simp only [place, List.lookup_cons, List.lookup_nil]; grind
  | cons y rest ih =>
    obtain ⟨i, b⟩ := y
    rw [place]
    split
    · simp only [List.lookup_cons]; grind
    · split
      · rename_i heq; subst heq; simp only [List.lookup_cons]; grind
      · simp only [List.lookup_cons, ih]; grind

theorem get?_insert (m : IdMap e α) (id k : Id e) (a : α) :
    (m.insert id a).get? k = if k = id then some a else m.get? k :=
  lookup_place id k a m.entries

theorem get?_erase (m : IdMap e α) (id k : Id e) :
    (m.erase id).get? k = if k = id then none else m.get? k := by
  simp only [get?, erase]
  induction m.entries with
  | nil => simp
  | cons y rest ih =>
    obtain ⟨i, b⟩ := y
    by_cases hi : i = id <;> simp_all [List.lookup_cons] <;> grind

theorem get?_modify (m : IdMap e α) (id k : Id e) (f : α → α) :
    (m.modify id f).get? k = if k = id then (m.get? k).map f else m.get? k := by
  simp only [get?, modify]
  induction m.entries with
  | nil => simp
  | cons y rest ih =>
    obtain ⟨i, b⟩ := y
    by_cases hi : i = id <;> simp_all [List.lookup_cons] <;> grind

theorem lookup_eq_some_iff {l : List (Id e × α)} (h : Ascending l) (id : Id e) (a : α) :
    l.lookup id = some a ↔ (id, a) ∈ l := by
  induction l with
  | nil => simp
  | cons y rest ih =>
    obtain ⟨i, b⟩ := y
    obtain ⟨hy, hr⟩ := List.pairwise_cons.1 h
    have hi : ∀ c, (i, c) ∉ rest := fun c hc => absurd (hy _ hc) (Nat.lt_irrefl _)
    by_cases hid : id = i
    · subst hid
      simp [hi, eq_comm]
    · simp [List.lookup_cons, beq_false_of_ne hid, ih hr, hid]

/-- The entries are the pairs that look-ups find. -/
theorem mem_entries_iff (m : IdMap e α) (id : Id e) (a : α) :
    (id, a) ∈ m.entries ↔ m.get? id = some a :=
  (lookup_eq_some_iff m.ascending id a).symm

theorem mem_keys_iff (m : IdMap e α) (id : Id e) : id ∈ m.keys ↔ m.contains id := by
  simp only [keys, List.mem_map, contains, Option.isSome_iff_exists, ← mem_entries_iff]
  constructor
  · rintro ⟨⟨i, a⟩, h, rfl⟩; exact ⟨a, h⟩
  · rintro ⟨a, h⟩; exact ⟨(id, a), h, rfl⟩

/-- Keys are listed in strictly increasing order. -/
theorem keys_ascending (m : IdMap e α) : m.keys.Pairwise fun a b => a.toNat < b.toNat :=
  List.pairwise_map.2 m.ascending

theorem nodup_keys (m : IdMap e α) : m.keys.Nodup :=
  m.keys_ascending.imp fun h heq => by subst heq; exact absurd h (Nat.lt_irrefl _)

/-- Two ascending lists with the same members are equal. -/
theorem ascending_ext {l₁ l₂ : List (Id e × α)} (h₁ : Ascending l₁) (h₂ : Ascending l₂)
    (h : ∀ x, x ∈ l₁ ↔ x ∈ l₂) : l₁ = l₂ := by
  induction l₁ generalizing l₂ with
  | nil =>
    cases l₂ with
    | nil => rfl
    | cons y _ => exact absurd ((h y).2 List.mem_cons_self) List.not_mem_nil
  | cons x r₁ ih =>
    cases l₂ with
    | nil => exact absurd ((h x).1 List.mem_cons_self) List.not_mem_nil
    | cons y r₂ =>
      obtain ⟨hx, hr₁⟩ := List.pairwise_cons.1 h₁
      obtain ⟨hy, hr₂⟩ := List.pairwise_cons.1 h₂
      have hxy : x = y := by
        rcases List.mem_cons.1 ((h x).1 List.mem_cons_self) with rfl | hx₂
        · rfl
        · rcases List.mem_cons.1 ((h y).2 List.mem_cons_self) with rfl | hy₁
          · rfl
          · exact absurd (Nat.lt_trans (hx _ hy₁) (hy _ hx₂)) (Nat.lt_irrefl _)
      subst hxy
      have hne₁ : ∀ z ∈ r₁, z ≠ x := fun z hz heq =>
        absurd (hx z hz) (heq ▸ Nat.lt_irrefl _)
      have hne₂ : ∀ z ∈ r₂, z ≠ x := fun z hz heq =>
        absurd (hy z hz) (heq ▸ Nat.lt_irrefl _)
      rw [ih hr₁ hr₂ fun z => ⟨fun hz => ?_, fun hz => ?_⟩]
      · exact (List.mem_cons.1 ((h z).1 (List.mem_cons_of_mem _ hz))).resolve_left (hne₁ z hz)
      · exact (List.mem_cons.1 ((h z).2 (List.mem_cons_of_mem _ hz))).resolve_left (hne₂ z hz)

/-- Maps that answer every look-up alike are equal. -/
theorem ext_get? {m₁ m₂ : IdMap e α} (h : ∀ id, m₁.get? id = m₂.get? id) : m₁ = m₂ := by
  have : m₁.entries = m₂.entries := by
    refine ascending_ext m₁.ascending m₂.ascending fun ⟨id, a⟩ => ?_
    rw [mem_entries_iff, mem_entries_iff, h]
  cases m₁; cases m₂; simp_all

end IdMap

end LiveSelect
