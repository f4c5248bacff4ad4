import Mathlib.Algebra.GroupWithZero.Nat
import Mathlib.Data.List.TakeDrop
import Mathlib.Data.List.TakeWhile
import LiveSelect.Definition.Build

/-! # References in a definition

A join of a definition names its two columns by references. Which column a reference names, or
why it names none, can be read off the document: the reference is split at its first point, the
part before it names a table, by alias or else by name, and the part after it a column of that
table. So it can be told from the document alone whether a join is sound, and what is wrong with
one that is not. -/

namespace LiveSelect

/-! ## Splitting -/

theorem splitReference?_of_no_point {reference : String} (h : '.' ∉ reference.toList) :
    splitReference? reference = none := by
  have hall : ∀ c ∈ reference.toList, decide (c ≠ '.') = true := by
    intro c hc
    exact decide_eq_true fun heq => h (heq ▸ hc)
  rw [splitReference?, List.span_eq_takeWhile_dropWhile, List.dropWhile_eq_nil_iff.2 hall]

/-- A reference is split at its first point. -/
theorem splitReference?_append {table : String} (h : '.' ∉ table.toList) (column : String) :
    splitReference? (table ++ "." ++ column) = some (table, column) := by
  have hlist : (table ++ "." ++ column).toList = table.toList ++ '.' :: column.toList := by
    simp
  have hall : ∀ c ∈ table.toList, decide (c ≠ '.') = true := by
    intro c hc
    exact decide_eq_true fun heq => h (heq ▸ hc)
  rw [splitReference?, hlist, List.span_eq_takeWhile_dropWhile,
    List.takeWhile_append_of_pos hall, List.dropWhile_append_of_pos hall]
  simp

theorem exists_parts {reference : String} (h : '.' ∈ reference.toList) :
    ∃ table column : String, '.' ∉ table.toList ∧ reference = table ++ "." ++ column := by
  obtain ⟨before, after, hsplit, hbefore⟩ := List.eq_append_cons_of_mem h
  refine ⟨.ofList before, .ofList after, by simpa using hbefore, ?_⟩
  apply String.toList_injective
  simp [hsplit]

/-! ## Places -/

/-- The place of a column in a document: the position of its table and its own position there. -/
structure Place where
  table : Nat
  column : Nat
deriving DecidableEq, Repr

namespace QueryDefinition

/-- The position of the table that a name refers to: the first one with this alias, or else the
first one with this name. -/
def tableNamed? (d : QueryDefinition) (name : String) : Option Nat :=
  (d.tables.findIdx? fun t => t.aliasName = some name).or
    (d.tables.findIdx? fun t => t.name = name)

/-- The position of the first column of a table with a name. -/
def columnNamed? (d : QueryDefinition) (table : Nat) (name : String) : Option Nat :=
  d.tables[table]?.bind fun t => t.columns.findIdx? fun k => k.name = name

/-- What a reference comes to in a document: the place of a column, or what is wrong with it. -/
inductive Reads (d : QueryDefinition) : String → Except DefinitionError Place → Prop where
  | invalid {reference : String} (hpoint : '.' ∉ reference.toList) :
    Reads d reference (.error (.invalidReference reference))
  | unknownTable {table column : String} (hpoint : '.' ∉ table.toList)
    (htable : d.tableNamed? table = none) :
    Reads d (table ++ "." ++ column) (.error (.unknownTable table))
  | unknownColumn {table column : String} {t : Nat} (hpoint : '.' ∉ table.toList)
    (htable : d.tableNamed? table = some t) (hcolumn : d.columnNamed? t column = none) :
    Reads d (table ++ "." ++ column) (.error (.unknownColumn column table))
  | place {table column : String} {t k : Nat} (hpoint : '.' ∉ table.toList)
    (htable : d.tableNamed? table = some t) (hcolumn : d.columnNamed? t column = some k) :
    Reads d (table ++ "." ++ column) (.ok ⟨t, k⟩)

/-- Reads a reference. -/
def read (d : QueryDefinition) (reference : String) : Except DefinitionError Place :=
  match splitReference? reference with
  | none => .error (.invalidReference reference)
  | some (table, column) =>
    match d.tableNamed? table with
    | none => .error (.unknownTable table)
    | some t =>
      match d.columnNamed? t column with
      | none => .error (.unknownColumn column table)
      | some k => .ok ⟨t, k⟩

variable {d : QueryDefinition} {reference : String} {x : Except DefinitionError Place}

theorem reads_read (d : QueryDefinition) (reference : String) :
    d.Reads reference (d.read reference) := by
  by_cases hpoint : '.' ∈ reference.toList
  · obtain ⟨table, column, htable, rfl⟩ := exists_parts hpoint
    simp only [read, splitReference?_append htable]
    cases ht : d.tableNamed? table with
    | none => exact .unknownTable htable ht
    | some t =>
      cases hk : d.columnNamed? t column with
      | none =>
        simp only [hk]
        exact .unknownColumn htable ht hk
      | some k =>
        simp only [hk]
        exact .place htable ht hk
  · rw [read, splitReference?_of_no_point hpoint]
    exact .invalid hpoint

/-- A reference reads in one way. -/
theorem reads_iff : d.Reads reference x ↔ d.read reference = x := by
  constructor
  · intro h
    cases h with
    | invalid hpoint => rw [read, splitReference?_of_no_point hpoint]
    | unknownTable hpoint htable => simp only [read, splitReference?_append hpoint, htable]
    | unknownColumn hpoint htable hcolumn | place hpoint htable hcolumn =>
      simp only [read, splitReference?_append hpoint, htable, hcolumn]
  · rintro rfl
    exact d.reads_read reference

/-- A table that a name refers to is one of the document. -/
theorem exists_of_tableNamed? {name : String} {n : Nat} (h : d.tableNamed? name = some n) :
    ∃ t, d.tables[n]? = some t := by
  have hlt : ∀ p : TableDefinition → Bool, d.tables.findIdx? p = some n → n < d.tables.length :=
    fun p hp => (List.findIdx?_eq_some_iff_getElem.1 hp).1
  rcases Option.or_eq_some_iff.1 h with halias | ⟨-, hname⟩
  · exact ⟨_, List.getElem?_eq_getElem (hlt _ halias)⟩
  · exact ⟨_, List.getElem?_eq_getElem (hlt _ hname)⟩

/-- A place that a reference names is one of the document. -/
theorem exists_of_reads {p : Place} (h : d.Reads reference (.ok p)) :
    ∃ t k, d.tables[p.table]? = some t ∧ t.columns[p.column]? = some k := by
  cases h with
  | place hpoint htable hcolumn =>
    obtain ⟨t, ht, hk⟩ := Option.bind_eq_some_iff.1 hcolumn
    obtain ⟨hlt, -⟩ := List.findIdx?_eq_some_iff_getElem.1 hk
    exact ⟨t, _, ht, List.getElem?_eq_getElem hlt⟩

/-! ## Joins -/

end QueryDefinition

/-- How many numbers a table takes: one for itself and one for each of its columns. -/
def TableDefinition.size (t : TableDefinition) : Nat := 1 + t.columns.length

namespace QueryDefinition

/-- The number of the table at a position. The tables follow the container of constants and the
constants of a new query, one after the other. -/
def tableNumber (d : QueryDefinition) (t : Nat) : Nat :=
  1 + Query.builtinConstants.length + ((d.tables.take t).map TableDefinition.size).sum

/-- The item of the column at a place; the columns of a table follow it. -/
def columnId (d : QueryDefinition) (p : Place) : ItemId :=
  .ofCount (d.tableNumber p.table + 1 + p.column)

/-- A join is sound if its references name columns of two tables. -/
def Sound (d : QueryDefinition) (j : JoinDefinition) : Prop :=
  ∃ l r, d.Reads j.left (.ok l) ∧ d.Reads j.right (.ok r) ∧ l.table ≠ r.table

/-- What is wrong with a join. Its left reference is judged first, then the right one, and then
whether both name the same table. -/
inductive Fault (d : QueryDefinition) (j : JoinDefinition) : DefinitionError → Prop where
  | left {err : DefinitionError} (hleft : d.Reads j.left (.error err)) : Fault d j err
  | right {l : Place} {err : DefinitionError} (hleft : d.Reads j.left (.ok l))
    (hright : d.Reads j.right (.error err)) : Fault d j err
  | self {l r : Place} (hleft : d.Reads j.left (.ok l)) (hright : d.Reads j.right (.ok r))
    (hself : l.table = r.table) : Fault d j (.refused (.selfJoin (d.columnId l) (d.columnId r)))

/-- A join is sound or has a fault. -/
theorem sound_or_fault (d : QueryDefinition) (j : JoinDefinition) :
    d.Sound j ∨ ∃ err, d.Fault j err := by
  cases hl : d.read j.left with
  | error err => exact Or.inr ⟨err, .left (reads_iff.2 hl)⟩
  | ok l =>
    cases hr : d.read j.right with
    | error err => exact Or.inr ⟨err, .right (reads_iff.2 hl) (reads_iff.2 hr)⟩
    | ok r =>
      by_cases hself : l.table = r.table
      · exact Or.inr ⟨_, .self (reads_iff.2 hl) (reads_iff.2 hr) hself⟩
      · exact Or.inl ⟨l, r, reads_iff.2 hl, reads_iff.2 hr, hself⟩

/-- All joins are sound, or there is a first one with a fault. -/
theorem sound_or_first_fault (d : QueryDefinition) :
    (∀ j ∈ d.joins, d.Sound j) ∨ ∃ before j after err, d.joins = before ++ j :: after ∧
      (∀ j' ∈ before, d.Sound j') ∧ d.Fault j err := by
  induction d.joins with
  | nil => exact Or.inl fun j hj => absurd hj List.not_mem_nil
  | cons j rest ih =>
    rcases d.sound_or_fault j with hsound | ⟨err, hfault⟩
    · rcases ih with hrest | ⟨before, j', after, err, rfl, hbefore, hfault⟩
      · exact Or.inl (List.forall_mem_cons.2 ⟨hsound, hrest⟩)
      · exact Or.inr ⟨j :: before, j', after, err, rfl, List.forall_mem_cons.2 ⟨hsound, hbefore⟩,
          hfault⟩
    · exact Or.inr ⟨[], j, rest, err, rfl, fun _ h => absurd h List.not_mem_nil, hfault⟩

/-- The flag that a join declares for the table at a position, if it touches the table. -/
def outerIn? (d : QueryDefinition) (t : Nat) (j : JoinDefinition) : Option Bool :=
  match d.read j.left, d.read j.right with
  | .ok l, .ok r =>
    if l.table = t then some j.leftOuter else if r.table = t then some j.rightOuter else none
  | _, _ => none

/-- The flag that the earliest of some joins that touch a table declares for it. -/
def earliestOuter? (d : QueryDefinition) (js : List JoinDefinition) (t : Nat) : Option Bool :=
  js.findSome? (d.outerIn? t)

/-! ## Constants -/

/-- Some names, and that of a constant if it is new. -/
def addName (names : List String) (k : ColumnDefinition) : List String :=
  if k.name ∈ names then names else names ++ [k.name]

/-- The names of the constants: those of a new query, and then the new ones of the document. -/
def constantNames (d : QueryDefinition) : List String :=
  d.constants.foldl addName Query.builtinConstants

/-- How many numbers the query of a document has: one for the container of constants, and one
for each constant, each table with its columns, and each join. -/
def size (d : QueryDefinition) : Nat :=
  1 + d.constantNames.length + (d.tables.map TableDefinition.size).sum + d.joins.length

end QueryDefinition

end LiveSelect
