import LiveSelect.Proofs.FromClause
import LiveSelect.Proofs.References

/-! # Tables found by name

In the statement every table goes by one name: by its alias, or else by its own name. A table
is looked up by a name in two passes, over the aliases and then over the names of all tables,
also of those that go by an alias. So a table that is looked up by the name it goes by is found,
even if no other table goes by that name, only when no table before it hides behind an alias
while having that name as its own. -/

namespace LiveSelect

theorem find?_eq_some_iff_idxOf {α : Type} [DecidableEq α] {l : List α} (hl : l.Nodup)
    {p : α → Bool} {x : α} :
    l.find? p = some x ↔
      x ∈ l ∧ p x ∧ ∀ y ∈ l, l.idxOf y < l.idxOf x → p y = false := by
  rw [List.find?_eq_some_iff_append]
  constructor
  · rintro ⟨hx, before, after, rfl, hbefore⟩
    refine ⟨List.mem_append_right _ List.mem_cons_self, hx, ?_⟩
    intro y _ hlt
    simpa using hbefore y ((idxOf_lt_iff_mem hl).1 hlt)
  · rintro ⟨hmem, hx, hearlier⟩
    rcases List.append_of_mem hmem with ⟨before, after, rfl⟩
    refine ⟨hx, before, after, rfl, ?_⟩
    intro y hy
    rw [hearlier y (List.mem_append_left _ hy) ((idxOf_lt_iff_mem hl).2 hy)]
    rfl

namespace Container

variable {k : Container} {name : String}

theorem activeAlias?_eq_some :
    k.activeAlias? = some name ↔ k.aliasName = some name ∧ name ≠ "" := by
  simp [activeAlias?, Text.nonEmpty?, Option.filter_eq_some_iff]

theorem correlationName_of_alias (h : k.activeAlias? = some name) : k.correlationName = name := by
  rw [correlationName, h, Option.getD_some]

theorem activeAlias?_eq_none_of_ne (h : k.aliasName ≠ some k.correlationName) :
    k.activeAlias? = none := by
  rw [Option.eq_none_iff_forall_ne_some]
  intro name hactive
  rw [correlationName_of_alias hactive] at h
  exact h (activeAlias?_eq_some.1 hactive).1

theorem correlationName_of_no_alias (h : k.activeAlias? = none) : k.correlationName = k.name := by
  rw [correlationName, h, Option.getD_none]

end Container

namespace Query

variable {q : Query} {t : ContainerId} {k : Container} {name : String}

theorem containerHas_of_container? (hk : q.container? t = some k) (p : Container → Bool) :
    q.containerHas p t = p k := by
  rw [containerHas, hk, Option.any_some]

/-- No other table of the statement goes by the name that a table goes by. -/
def AloneInName (q : Query) (t : ContainerId) (k : Container) : Prop :=
  ∀ u ∈ q.tables, q.containerHas (fun x => x.correlationName = k.correlationName) u → u = t

/-- A table before another one has a property. -/
def Precedes (q : Query) (p : Container → Bool) (t : ContainerId) : Prop :=
  ∃ u ∈ q.tables, q.tables.idxOf u < q.tables.idxOf t ∧ q.containerHas p u

/-- Another table is met first in the search for the name that a table goes by. -/
def Hidden (q : Query) (t : ContainerId) (k : Container) : Prop :=
  if k.aliasName = some k.correlationName then
    q.Precedes (·.aliasName = some k.correlationName) t
  else
    (∃ u ∈ q.tables, q.containerHas (·.aliasName = some k.correlationName) u) ∨
      q.Precedes (·.name = k.correlationName) t

instance : Decidable (q.AloneInName t k) :=
  inferInstanceAs (Decidable (∀ u ∈ q.tables,
    q.containerHas (fun x => x.correlationName = k.correlationName) u → u = t))

instance (p : Container → Bool) : Decidable (q.Precedes p t) :=
  inferInstanceAs (Decidable (∃ u ∈ q.tables, q.tables.idxOf u < q.tables.idxOf t ∧
    q.containerHas p u))

namespace Owned

/-- A pass over the tables stops at one with the property if none with it precedes. -/
theorem find?_containerHas_iff (h : q.Owned) (ht : t ∈ q.tables) (hk : q.container? t = some k)
    {p : Container → Bool} (hp : p k) :
    q.tables.find? (q.containerHas p) = some t ↔ ¬ q.Precedes p t := by
  rw [find?_eq_some_iff_idxOf h.nodup_tables]
  constructor
  · rintro ⟨-, -, hearlier⟩ ⟨u, hu, hlt, hnamed⟩
    rw [hearlier u hu hlt] at hnamed
    exact Bool.false_ne_true hnamed
  · intro hnot
    refine ⟨ht, ?_, ?_⟩
    · rw [containerHas_of_container? hk]
      exact hp
    · intro u hu hlt
      rw [← Bool.not_eq_true]
      exact fun hnamed => hnot ⟨u, hu, hlt, hnamed⟩

/-- A table is found by the name it goes by unless another one is met first. -/
theorem findTable?_eq_some_iff (h : q.Owned) (ht : t ∈ q.tables) (hk : q.container? t = some k) :
    q.findTable? k.correlationName = some t ↔ ¬ q.Hidden t k := by
  unfold findTable? Hidden
  split
  case isTrue halias =>
    -- The pass over the aliases finds this table or one before it.
    rw [← h.find?_containerHas_iff ht hk (decide_eq_true halias)]
    have hsome : (q.tables.find?
        (q.containerHas fun c => c.aliasName = some k.correlationName)).isSome := by
      rw [List.find?_isSome]
      refine ⟨t, ht, ?_⟩
      rw [containerHas_of_container? hk, decide_eq_true_eq]
      exact halias
    rw [Option.or_of_isSome hsome]
  case isFalse halias =>
    have hnone := Container.activeAlias?_eq_none_of_ne halias
    have hname : k.name = k.correlationName := (Container.correlationName_of_no_alias hnone).symm
    rw [not_or, ← h.find?_containerHas_iff ht hk (decide_eq_true hname)]
    cases hfirst : q.tables.find?
        (q.containerHas fun c => c.aliasName = some k.correlationName) with
    | none =>
      rw [Option.none_or]
      refine (and_iff_right ?_).symm
      rintro ⟨u, hu, hu'⟩
      exact List.find?_eq_none.1 hfirst u hu hu'
    | some u =>
      rw [Option.some_or]
      have hu' := List.find?_some hfirst
      refine iff_of_false ?_ fun hnot => hnot.1 ⟨u, List.mem_of_find?_eq_some hfirst, hu'⟩
      intro heq
      rw [Option.some.inj heq, containerHas_of_container? hk, decide_eq_true_eq] at hu'
      exact halias hu'

/-- Only the table that goes by a name can have it for an alias. -/
theorem eq_of_alias (h : q.Owned) (halone : q.AloneInName t k) (hname : k.correlationName ≠ "")
    {u : ContainerId} (hu : u ∈ q.tables)
    (halias : q.containerHas (fun c => c.aliasName = some k.correlationName) u) : u = t := by
  rcases h.container?_of_table hu with ⟨k', hk'⟩
  rw [containerHas_of_container? hk', decide_eq_true_eq] at halias
  have hactive := Container.activeAlias?_eq_some.2 ⟨halias, hname⟩
  apply halone u hu
  rw [containerHas_of_container? hk', decide_eq_true_eq]
  exact Container.correlationName_of_alias hactive

/-- A name of its own is hidden only if it is no alias, and a table before it has that name. -/
theorem hidden_iff_of_alone (h : q.Owned) (hk : q.container? t = some k)
    (halone : q.AloneInName t k) (hname : k.correlationName ≠ "") :
    q.Hidden t k ↔ k.activeAlias? = none ∧ q.Precedes (·.name = k.correlationName) t := by
  unfold Hidden
  split
  case isTrue halias =>
    refine iff_of_false ?_ ?_
    · rintro ⟨u, hu, hlt, hu'⟩
      rw [h.eq_of_alias halone hname hu hu'] at hlt
      exact Nat.lt_irrefl _ hlt
    · rintro ⟨hnone, -⟩
      rw [Container.activeAlias?_eq_some.2 ⟨halias, hname⟩] at hnone
      cases hnone
  case isFalse halias =>
    have hnone := Container.activeAlias?_eq_none_of_ne halias
    have hfirst : ¬ ∃ u ∈ q.tables,
        q.containerHas (·.aliasName = some k.correlationName) u := by
      rintro ⟨u, hu, hu'⟩
      rw [h.eq_of_alias halone hname hu hu', containerHas_of_container? hk,
        decide_eq_true_eq] at hu'
      exact halias hu'
    rw [or_iff_right hfirst, and_iff_right hnone]

end Owned

theorem resolve_of_findTable? {c : ContainerId} (hpoint : '.' ∉ name.toList)
    (hfind : q.findTable? name = some c) (column : String) :
    QueryDefinition.resolve q (name ++ "." ++ column) =
      match q.findItem? c column with
      | some i => .ok i
      | none => .error (.unknownColumn column name) := by
  simp only [QueryDefinition.resolve, splitReference?_append hpoint, hfind]
  cases q.findItem? c column <;> rfl

/-- A table of the statement is found by the name that it goes by exactly if no other one is met
first; where it alone goes by that name, this fails just for a table without an alias when one
before it has the name beside an alias. A table that is found gives a reference its column, or
none. -/
theorem Reachable.lookup_exact (h : q.Reachable) (ht : t ∈ q.tables)
    (hk : q.container? t = some k) :
    (q.findTable? k.correlationName = some t ↔ ¬ q.Hidden t k) ∧
    (q.AloneInName t k → k.correlationName ≠ "" →
      (q.Hidden t k ↔ k.activeAlias? = none ∧ q.Precedes (·.name = k.correlationName) t)) ∧
    (¬ q.Hidden t k → '.' ∉ k.correlationName.toList →
      ∀ column, QueryDefinition.resolve q (k.correlationName ++ "." ++ column) =
        match q.findItem? t column with
        | some i => .ok i
        | none => .error (.unknownColumn column k.correlationName)) := by
  have ho : q.Owned := h.wellFormed.owned
  have hfind := ho.findTable?_eq_some_iff ht hk
  refine ⟨hfind, ho.hidden_iff_of_alone hk, ?_⟩
  intro hfound hpoint column
  exact resolve_of_findTable? hpoint (hfind.2 hfound) column

/-- One table twice, first under an alias with one column, then under its own name with another. -/
def selfJoined : Query :=
  let uuid : Uuid := .ofNat 0
  [ .newTable { name := "EMP" } uuid, .setContainerAlias (.ofCount 4) (some "m"),
    .addItem (.ofCount 4) { name := "ID", selected := true } uuid, .addTable (.ofCount 4),
    .newTable { name := "EMP" } uuid,
    .addItem (.ofCount 6) { name := "BOSS" } uuid,
    .addTable (.ofCount 6) ].foldl after (create uuid fun _ => uuid)

theorem selfJoined_reachable : selfJoined.Reachable :=
  (Reachable.create _ _).foldl_after _ (by decide +kernel)

/-- The first table is found by its alias; the second one is not found by its name, which it
alone goes by. -/
theorem selfJoined_found_by_alias :
    ∃ k k', selfJoined.container? (.ofCount 4) = some k ∧ k.correlationName = "m" ∧
      selfJoined.container? (.ofCount 6) = some k' ∧ k'.correlationName = "EMP" ∧
      selfJoined.findTable? "m" = some (.ofCount 4) ∧
      selfJoined.findTable? "EMP" ≠ some (.ofCount 6) := by
  have hk : selfJoined.container? (.ofCount 4) = some
      { name := "EMP", aliasName := some "m", kind := .table { name := "EMP" }
        items := [.ofCount 5], uuid := .ofNat 0 } := by decide +kernel
  have hk' : selfJoined.container? (.ofCount 6) = some
      { name := "EMP", kind := .table { name := "EMP" }
        items := [.ofCount 7], uuid := .ofNat 0 } := by decide +kernel
  refine ⟨_, _, hk, by decide +kernel, hk', by decide +kernel, ?_, ?_⟩
  · rcases selfJoined_reachable.lookup_exact (by decide +kernel) hk with ⟨hfind, halone, -⟩
    have hhidden := halone (by decide +kernel) (by decide +kernel)
    refine hfind.2 fun hnot => ?_
    exact absurd (hhidden.1 hnot).1 (by decide +kernel)
  · rcases selfJoined_reachable.lookup_exact (by decide +kernel) hk' with ⟨hfind, halone, -⟩
    have hhidden := halone (by decide +kernel) (by decide +kernel)
    refine fun heq => hfind.1 heq (hhidden.2 ⟨rfl, ?_⟩)
    decide +kernel

/-- That no other table goes by its name does not mean that a table is found by the name. -/
theorem lookup_misses_table :
    ¬ ∀ (q : Query) (t : ContainerId) (k : Container), q.Reachable → t ∈ q.tables →
      q.container? t = some k → q.AloneInName t k → q.findTable? k.correlationName = some t := by
  intro hall
  have hk : selfJoined.container? (.ofCount 6) = some
      { name := "EMP", kind := .table { name := "EMP" }
        items := [.ofCount 7], uuid := .ofNat 0 } := by decide +kernel
  have hfound := hall selfJoined (.ofCount 6) _ selfJoined_reachable (by decide +kernel) hk
    (by decide +kernel)
  exact absurd hfound (by decide +kernel)

end Query

end LiveSelect
