/-! # Document values

What a JSON or TOML text says, before it is read as an entity, a definition or settings.
Tables keep their entries in order, with repeated keys. Numbers that are not written as
integers and dates keep no content, because no record has a place for them. -/

namespace LiveSelect.Document

/-- What a JSON or TOML text says. -/
inductive Value where
  | null
  | flag (value : Bool)
  | integer (value : Int)
  /-- A number with a fraction or an exponent, or a negative zero. -/
  | decimal
  | text (value : String)
  /-- A text, or a table with a key, that names half of a surrogate pair; or a number
  beyond the range of its kind. It is well formed, but nothing can be read from it. -/
  | garbled
  /-- A date, a time, or both. -/
  | date
  | list (elements : List Value)
  | table (entries : List (String × Value))
deriving Repr, Inhabited

namespace Value

/-- A text, or null for a missing one. -/
def ofText? : Option String → Value
  | some s => text s
  | none => null

/-- The number of an unsigned 32-bit word. -/
def ofWord (n : UInt32) : Value := integer n.toNat

/-! ## Reading scalars -/

def text? : Value → Option String
  | text s => some s
  | _ => none

def flag? : Value → Option Bool
  | flag b => some b
  | _ => none

/-- An integer that fits 32 bits without a sign. -/
def word? : Value → Option UInt32
  | integer (.ofNat n) => if n < UInt32.size then some (UInt32.ofNat n) else none
  | _ => none

/-- A value that null stands for when it is missing. -/
def nullable? {α : Type} (read : Value → Option α) : Value → Option (Option α)
  | null => some none
  | v => (read v).map some

/-- A list whose elements are all read. -/
def list? {α : Type} (read : Value → Option α) : Value → Option (List α)
  | list vs => vs.mapM read
  | _ => none

@[simp] theorem word?_ofWord (n : UInt32) : word? (ofWord n) = some n := by
  have h : n.toNat < 4294967296 := n.toNat_lt
  simp [word?, ofWord, h]

@[simp] theorem nullable?_ofText? (s : Option String) : nullable? text? (ofText? s) = some s := by
  cases s <;> rfl

/-! ## Values that nothing is read from -/

mutual

/-- Whether nothing in a value is garbled. -/
def isSound : Value → Bool
  | garbled => false
  | list vs => allSound vs
  | table es => allEntriesSound es
  | _ => true

def allSound : List Value → Bool
  | [] => true
  | v :: vs => isSound v && allSound vs

def allEntriesSound : List (String × Value) → Bool
  | [] => true
  | (_, v) :: es => isSound v && allEntriesSound es

end

mutual

/-- How deep the lists and tables of a value are nested. -/
def depth : Value → Nat
  | list vs => deepest vs + 1
  | table es => deepestEntry es + 1
  | _ => 0

def deepest : List Value → Nat
  | [] => 0
  | v :: vs => max (depth v) (deepest vs)

def deepestEntry : List (String × Value) → Nat
  | [] => 0
  | (_, v) :: es => max (depth v) (deepestEntry es)

end

end Value

end LiveSelect.Document
