import LiveSelect.Document.Value

/-! # Records in documents

A record has fields with fixed names. A document gives them as a table, or as a list of
the values in the order in which the fields are declared; and a named alternative as its
name, or as a table from the name to an empty payload. The two formats differ in what
they let pass; `Conventions` says how. -/

namespace LiveSelect.Document

/-- What a format lets pass. -/
structure Conventions where
  /-- Whether a list may have more elements than the record has fields. -/
  surplus : Bool
  /-- What may stand after the name of an alternative. -/
  isPayload : Value → Bool
  /-- What may stand under a key that is no field. -/
  passesOver : Value → Bool

namespace Conventions

/-- JSON: no surplus, null after the name of an alternative, and anything under other
keys. -/
def json : Conventions where
  surplus := false
  isPayload
    | .null => true
    | _ => false
  passesOver _ := true

/-- TOML: surplus elements are passed over, the name of an alternative stands before an
empty list or table, and numbers have to be in range wherever they stand. -/
def toml : Conventions where
  surplus := true
  isPayload
    | .list [] | .table [] => true
    | _ => false
  passesOver := Value.isSound

end Conventions

/-- The values given for the fields of a record. -/
structure Record where
  /-- Whether the values were given by position. -/
  positional : Bool
  given : List (String × Value)

namespace Record

/-- Whether no key of a table stands twice. -/
def distinctKeys (entries : List (String × Value)) : Bool :=
  decide (entries.map Prod.fst).Nodup

/-- The record with the given fields. Fields may not be given twice; keys that are no
field are refused by a `strict` record and passed over by others. A date counts as a
table with a single key that is no field. -/
def ofValue? (c : Conventions) (strict : Bool) (fields : List String) : Value → Option Record
  | .table entries =>
    let (known, others) := entries.partition fun e => fields.contains e.1
    if distinctKeys known && (if strict then others.isEmpty else others.all (c.passesOver ·.2))
    then some ⟨false, known⟩
    else none
  | .date => if strict then none else some ⟨false, []⟩
  | .list vs =>
    if c.surplus || vs.length ≤ fields.length then some ⟨true, fields.zip vs⟩ else none
  | _ => none

def get? (r : Record) (field : String) : Option Value := r.given.lookup field

/-- A field that has to be given. -/
def required {α : Type} (r : Record) (field : String) (read : Value → Option α) : Option α :=
  r.get? field >>= read

/-- A field that takes a value of its own when it is not given. -/
def defaulted {α : Type} (r : Record) (field : String) (default : α) (read : Value → Option α) :
    Option α :=
  match r.get? field with
  | some v => read v
  | none => some default

/-- A field that a table may leave out. A list has to give it, be it as null. -/
def optional {α : Type} (r : Record) (field : String) (read : Value → Option α) :
    Option (Option α) :=
  match r.get? field with
  | some v => v.nullable? read
  | none => if r.positional then none else some none

end Record

/-- The name of an alternative. -/
def alternative? (c : Conventions) : Value → Option String
  | .text s => some s
  | .table [(name, payload)] => if c.isPayload payload then some name else none
  | _ => none

/-- A value that is one of several named alternatives. -/
def choice? {α : Type} (c : Conventions) (names : List (String × α)) (v : Value) : Option α :=
  alternative? c v >>= fun name => names.lookup name

/-- The name of a value among named alternatives. -/
def nameIn {α : Type} [DecidableEq α] (names : List (String × α)) (a : α) : String :=
  ((names.find? (·.2 = a)).map Prod.fst).getD ""

end LiveSelect.Document
