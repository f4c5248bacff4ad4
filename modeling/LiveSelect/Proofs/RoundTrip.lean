import Mathlib.Algebra.GroupWithZero.Nat
import LiveSelect.Definition.Basic
import LiveSelect.Settings.Basic
import LiveSelect.Proofs.Maps

/-! # Writing and reading back

Items, containers, joins, definitions and settings are written as documents and read from
them. What was written is read back as it was: a field is found under its own name, the
alternatives have names of their own, numbers fit their words, and identifiers keep their
digits. A reader accepts more than is ever written (fields left out, lists in place of tables,
identifiers in braces), but once written again what it read stays as it is. -/

namespace LiveSelect

open Document

variable {α β : Type}

theorem mapM_map_of_inverse {write : α → β} {read : β → Option α}
    (h : ∀ x, read (write x) = some x) (xs : List α) : (xs.map write).mapM read = some xs := by
  induction xs with
  | nil => rfl
  | cons x rest ih => simp [List.mapM_cons, h, ih]

namespace Document

/-- What is written is read back, and a document that is read says the same as what is
written for it, which is then written again in the same way. -/
structure RoundTrips (write : α → Value) (read : Value → Option α) : Prop where
  reads_written : ∀ x, read (write x) = some x
  settles : ∀ v x, read v = some x →
    read (write x) = some x ∧ (read (write x)).map write = some (write x)

/-- A writer whose documents are all read back settles whatever form was read. -/
theorem RoundTrips.of_inverse {write : α → Value} {read : Value → Option α}
    (h : ∀ x, read (write x) = some x) : RoundTrips write read := by
  refine ⟨h, ?_⟩
  intro v x _
  rw [h x]
  exact ⟨rfl, rfl⟩

/-! ## Values and records -/

namespace Value

@[simp] theorem text?_text (s : String) : text? (text s) = some s := rfl

@[simp] theorem flag?_flag (b : Bool) : flag? (flag b) = some b := rfl

theorem list?_map {write : α → Value} {read : Value → Option α}
    (h : ∀ x, read (write x) = some x) (xs : List α) :
    list? read (list (xs.map write)) = some xs :=
  mapM_map_of_inverse h xs

@[simp] theorem isSound_ofText? (s : Option String) : isSound (ofText? s) = true := by
  cases s <;> rfl

@[simp] theorem depth_ofText? (s : Option String) : depth (ofText? s) = 0 := by
  cases s <;> rfl

end Value

namespace Record

variable {entries : List (String × Value)}

/-- A table of the fields of a record, in their order, is read as the record. -/
theorem ofValue?_table (fields : List String) (hkeys : entries.map Prod.fst = fields)
    (hfields : fields.Nodup) (c : Conventions) (strict : Bool) :
    ofValue? c strict fields (.table entries) = some ⟨false, entries⟩ := by
  have hfield : ∀ e ∈ entries, fields.contains e.1 = true := by
    intro e he
    rw [List.contains_iff_mem, ← hkeys]
    exact List.mem_map_of_mem he
  have hknown : entries.filter (fun e => fields.contains e.1) = entries :=
    List.filter_eq_self.2 hfield
  have hothers : entries.filter (not ∘ fun e => fields.contains e.1) = [] := by
    refine List.filter_eq_nil_iff.2 fun e he => ?_
    simp [-List.contains_eq_mem, hfield e he]
  have hdistinct : distinctKeys entries = true := by
    rw [distinctKeys, hkeys]
    exact decide_eq_true hfields
  simp only [ofValue?, List.partition_eq_filter_filter, hknown, hothers, hdistinct]
  simp

@[simp] theorem get?_cons (key field : String) (v : Value) (positional : Bool) :
    (Record.mk positional ((key, v) :: entries)).get? field =
      if field = key then some v else (Record.mk positional entries).get? field := by
  by_cases h : field = key <;> simp [get?, List.lookup_cons, h, beq_false_of_ne]

@[simp] theorem required_eq (r : Record) (field : String) (read : Value → Option α) :
    r.required field read = r.get? field >>= read := rfl

end Record

/-! ## Named alternatives -/

/-- Names that spell every alternative, no two of them the same. -/
structure Spells (names : List (String × α)) : Prop where
  distinct : (names.map Prod.fst).Nodup
  complete : ∀ a, a ∈ names.map Prod.snd

/-- An alternative that has a name is found beside the name that is written for it. -/
theorem nameIn_mem [DecidableEq α] {names : List (String × α)} {a : α}
    (ha : a ∈ names.map Prod.snd) : (nameIn names a, a) ∈ names := by
  obtain ⟨entry, hentry, rfl⟩ := List.mem_map.1 ha
  obtain ⟨first, hfirst⟩ : ∃ first, names.find? (·.2 = entry.2) = some first :=
    Option.isSome_iff_exists.1 (List.find?_isSome.2 ⟨entry, hentry, by simp⟩)
  have hsnd : first.2 = entry.2 := by simpa using List.find?_some hfirst
  have hname : nameIn names entry.2 = first.1 := by simp [nameIn, hfirst]
  rw [hname, ← hsnd]
  exact List.mem_of_find?_eq_some hfirst

namespace Spells

variable [DecidableEq α] {names : List (String × α)}

theorem choice?_nameIn (h : Spells names) (c : Conventions) (a : α) :
    choice? c names (.text (nameIn names a)) = some a :=
  (lookup_eq_some h.distinct).2 (nameIn_mem (h.complete a))

theorem nullable?_nameIn (h : Spells names) (c : Conventions) (a : Option α) :
    Value.nullable? (choice? c names) (.ofText? (a.map (nameIn names))) = some a := by
  cases a with
  | none => rfl
  | some a =>
    change (choice? c names (.text (nameIn names a))).map some = some (some a)
    rw [h.choice?_nameIn]
    rfl

end Spells

end Document

theorem ItemKind.spells_names : Spells ItemKind.names :=
  ⟨by decide, fun k => by cases k <;> decide⟩

theorem GroupRole.spells_names : Spells GroupRole.names :=
  ⟨by decide, fun r => by cases r <;> decide⟩

theorem SortOrder.spells_names : Spells SortOrder.names :=
  ⟨by decide, fun o => by cases o <;> decide⟩

theorem Dialect.spells_ownNames : Spells Dialect.ownNames :=
  ⟨by decide, fun d => by cases d <;> decide⟩

/-! ## Identifiers -/

namespace Uuid

theorem intercalate_pieces_cons (n m : Nat) (sizes : List Nat) (cs : List Char) :
    ['-'].intercalate (pieces (n :: m :: sizes) cs) =
      cs.take n ++ '-' :: ['-'].intercalate (pieces (m :: sizes) (cs.drop n)) := by
  simp [pieces, List.intercalate_cons_cons]

theorem intercalate_pieces_singleton {n : Nat} {cs : List Char} (hcs : cs.length = [n].sum) :
    ['-'].intercalate (pieces [n] cs) = cs := by
  rw [pieces, pieces, List.intercalate_singleton]
  exact List.take_of_length_le (Nat.le_of_eq hcs)

theorem length_intercalate_pieces {n : Nat} {sizes : List Nat} {cs : List Char}
    (hcs : cs.length = (n :: sizes).sum) :
    (['-'].intercalate (pieces (n :: sizes) cs)).length = cs.length + sizes.length := by
  induction sizes generalizing n cs with
  | nil =>
    rw [intercalate_pieces_singleton hcs]
    rfl
  | cons m sizes ih =>
    rw [List.sum_cons] at hcs
    have hrest : (cs.drop n).length = (m :: sizes).sum := by
      rw [List.length_drop]
      omega
    rw [intercalate_pieces_cons, List.length_append, List.length_cons, ih hrest,
      List.length_take, List.length_drop, List.length_cons]
    omega

/-- The hyphens between pieces of the right sizes are found in their places. -/
theorem dropHyphens?_intercalate {n : Nat} {sizes : List Nat} {cs : List Char}
    (hcs : cs.length = (n :: sizes).sum) :
    dropHyphens? (n :: sizes) (['-'].intercalate (pieces (n :: sizes) cs)) = some cs := by
  induction sizes generalizing n cs with
  | nil =>
    rw [intercalate_pieces_singleton hcs, dropHyphens?]
    exact if_pos (by simpa using hcs)
  | cons m sizes ih =>
    rw [List.sum_cons] at hcs
    have hfirst : (cs.take n).length = n := by
      rw [List.length_take]
      omega
    have hrest : (cs.drop n).length = (m :: sizes).sum := by
      rw [List.length_drop]
      omega
    rw [intercalate_pieces_cons]
    simp only [dropHyphens?, List.drop_left' hfirst, List.take_left' hfirst, ih hrest]
    simp

theorem ofPlain?_digits (u : Uuid) : ofPlain? (u.digits.toList.map digitChar) = some u := by
  have hlength : u.digits.toList.length = 32 := u.digits.length_toList
  rw [ofPlain?, mapM_map_of_inverse digit?_digitChar]
  exact dif_pos hlength

theorem ofText?_text (u : Uuid) : ofText? u.text = some u := by
  have hdigits : (u.digits.toList.map digitChar).length = 32 := by simp
  have hlength : u.text.toList.length = 36 := by
    rw [text, String.toList_ofList, groups, length_intercalate_pieces hdigits, hdigits]
    rfl
  have hplain : dropHyphens? groups u.text.toList = some (u.digits.toList.map digitChar) := by
    rw [text, String.toList_ofList]
    exact dropHyphens?_intercalate hdigits
  simp [ofText?, hlength, ofHyphenated?, hplain, ofPlain?_digits]

@[simp] theorem ofValue?_toValue (u : Uuid) : ofValue? u.toValue = some u := ofText?_text u

end Uuid

/-! ## Entities -/

variable (c : Conventions)

theorem Item.ofValue?_toValue (i : Item) : Item.ofValue? c i.toValue = some i := by
  rw [Item.ofValue?, Item.toValue, Record.ofValue?_table Item.fields rfl (by decide)]
  simp [Record.optional, ItemKind.spells_names.choice?_nameIn,
    GroupRole.spells_names.choice?_nameIn, SortOrder.spells_names.choice?_nameIn]

theorem TableIdentity.ofValue?_entries (t : TableIdentity) :
    TableIdentity.ofValue? c (.table t.entries) = some t := by
  rw [TableIdentity.ofValue?, TableIdentity.entries,
    Record.ofValue?_table TableIdentity.fields rfl (by decide)]
  simp [Record.optional]

namespace ContainerKind

theorem isSound_toValue (kind : ContainerKind) : kind.toValue.isSound = true := by
  cases kind <;>
    simp [toValue, TableIdentity.entries, Value.isSound, Value.allEntriesSound]

theorem depth_toValue (kind : ContainerKind) : kind.toValue.depth = 1 := by
  cases kind <;> simp [toValue, TableIdentity.entries, Value.depth, Value.deepestEntry]

theorem ofValue?_toValue (kind : ContainerKind) :
    ofValue? c 1 kind.toValue = some kind := by
  have hstored : ¬ (!kind.toValue.isSound || storageDepth < 1 + kind.toValue.depth) := by
    simp [isSound_toValue, depth_toValue, storageDepth]
  unfold ofValue?
  rw [if_neg hstored]
  cases kind with
  | table t =>
    have htag : (("type", Value.text "table") :: t.entries).filter (·.1 = "type") =
        [("type", .text "table")] := by
      simp [TableIdentity.entries]
    have hcontents : (("type", Value.text "table") :: t.entries).filter (·.1 ≠ "type") =
        t.entries := by
      simp [TableIdentity.entries]
    simp only [toValue, htag, hcontents, ofTagged?]
    rw [TableIdentity.ofValue?_entries]
    rfl
  | constants => simp [toValue, ofTagged?]

end ContainerKind

theorem Container.ofValue?_toValue (k : Container) :
    Container.ofValue? c k.toValue = some k := by
  rw [Container.ofValue?, Container.toValue, Record.ofValue?_table Container.fields rfl (by decide)]
  simp [Record.optional, ContainerKind.ofValue?_toValue, Value.list?_map Id.ofValue?_toValue]

theorem Join.ofValue?_toValue (j : Join) : Join.ofValue? c j.toValue = some j := by
  rw [Join.ofValue?, Join.toValue, Record.ofValue?_table Join.fields rfl (by decide)]
  simp [Record.optional]

/-! ## Definitions -/

theorem ColumnDefinition.ofValue?_toValue (d : ColumnDefinition) :
    ColumnDefinition.ofValue? c d.toValue = some d := by
  rw [ColumnDefinition.ofValue?, ColumnDefinition.toValue,
    Record.ofValue?_table ColumnDefinition.fields rfl (by decide)]
  simp [Record.defaulted, Record.text?, ItemKind.spells_names.choice?_nameIn,
    GroupRole.spells_names.nullable?_nameIn, SortOrder.spells_names.choice?_nameIn]

theorem TableDefinition.ofValue?_toValue (d : TableDefinition) :
    TableDefinition.ofValue? c d.toValue = some d := by
  rw [TableDefinition.ofValue?, TableDefinition.toValue,
    Record.ofValue?_table TableDefinition.fields rfl (by decide)]
  simp [Record.defaulted, Record.text?, Value.list?_map (ColumnDefinition.ofValue?_toValue c)]

theorem JoinDefinition.ofValue?_toValue (d : JoinDefinition) :
    JoinDefinition.ofValue? c d.toValue = some d := by
  rw [JoinDefinition.ofValue?, JoinDefinition.toValue,
    Record.ofValue?_table JoinDefinition.fields rfl (by decide)]
  simp [Record.defaulted]

theorem QueryDefinition.ofValue?_toValue (d : QueryDefinition) :
    QueryDefinition.ofValue? c d.toValue = some d := by
  rw [QueryDefinition.ofValue?, QueryDefinition.toValue,
    Record.ofValue?_table QueryDefinition.fields rfl (by decide)]
  simp [Record.defaulted, Record.text?, Value.list?_map (TableDefinition.ofValue?_toValue c),
    Value.list?_map (ColumnDefinition.ofValue?_toValue c),
    Value.list?_map (JoinDefinition.ofValue?_toValue c)]

/-! ## Settings -/

theorem QuerySettings.ofValue?_toValue (s : QuerySettings) :
    QuerySettings.ofValue? c s.toValue = some s := by
  rw [QuerySettings.ofValue?, QuerySettings.toValue,
    Record.ofValue?_table QuerySettings.fields rfl (by decide)]
  simp [Record.defaulted, Dialect.spells_ownNames.choice?_nameIn]

theorem Settings.ofValue?_toValue (s : Settings) : Settings.ofValue? c s.toValue = some s := by
  rw [Settings.ofValue?, Settings.toValue, Record.ofValue?_table Settings.fields rfl (by decide)]
  simp [Record.defaulted, QuerySettings.ofValue?_toValue]

/-! ## Main statement -/

/-- In JSON, entities, definitions and settings survive being written and read, and whatever
was read settles in the form that is written. -/
theorem json_round_trips :
    RoundTrips Item.toValue (Item.ofValue? .json) ∧
      RoundTrips Container.toValue (Container.ofValue? .json) ∧
      RoundTrips Join.toValue (Join.ofValue? .json) ∧
      RoundTrips QueryDefinition.toValue (QueryDefinition.ofValue? .json) ∧
      RoundTrips TableDefinition.toValue (TableDefinition.ofValue? .json) ∧
      RoundTrips ColumnDefinition.toValue (ColumnDefinition.ofValue? .json) ∧
      RoundTrips JoinDefinition.toValue (JoinDefinition.ofValue? .json) ∧
      RoundTrips QuerySettings.toValue (QuerySettings.ofValue? .json) ∧
      RoundTrips Settings.toValue (Settings.ofValue? .json) := by
  refine ⟨?item, ?container, ?join, ?query, ?table, ?column, ?joinDefinition, ?querySettings,
    ?settings⟩
  case item => exact .of_inverse (Item.ofValue?_toValue .json)
  case container => exact .of_inverse (Container.ofValue?_toValue .json)
  case join => exact .of_inverse (Join.ofValue?_toValue .json)
  case query => exact .of_inverse (QueryDefinition.ofValue?_toValue .json)
  case table => exact .of_inverse (TableDefinition.ofValue?_toValue .json)
  case column => exact .of_inverse (ColumnDefinition.ofValue?_toValue .json)
  case joinDefinition => exact .of_inverse (JoinDefinition.ofValue?_toValue .json)
  case querySettings => exact .of_inverse (QuerySettings.ofValue?_toValue .json)
  case settings => exact .of_inverse (Settings.ofValue?_toValue .json)

/-- A list of the two columns is read as a join with everything else at its default, and
from then on written as a table. -/
example :
    (JoinDefinition.ofValue? .json (.list [.text "orders.id", .text "lines.order"])).map
        JoinDefinition.toValue =
      some (.table
        [("left", .text "orders.id"), ("right", .text "lines.order"), ("comparator", .text "="),
         ("left_outer", .flag false), ("right_outer", .flag false)]) := by
  rfl

end LiveSelect
