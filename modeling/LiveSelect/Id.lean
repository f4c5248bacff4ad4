/-! # Numbers of entities

A query numbers its items, containers and joins from one counter. `Id e` is such a
number together with the sort of entity it names, so that an item's number cannot be
used where a container's is wanted. -/

namespace LiveSelect

/-- The three sorts of thing that a query numbers. -/
inductive Entity where
  | item
  | container
  | join
deriving DecidableEq, Repr

/-- The word that stands before a number in messages. -/
def Entity.word : Entity → String
  | .item => "item"
  | .container => "container"
  | .join => "join"

/-- A 32-bit number that names one entity of sort `e` within a query. -/
structure Id (e : Entity) where
  number : UInt32
deriving DecidableEq, Repr

abbrev ItemId := Id .item
abbrev ContainerId := Id .container
abbrev JoinId := Id .join

namespace Id

variable {e : Entity}

/-- The number as a natural number. -/
def toNat (id : Id e) : Nat := id.number.toNat

/-- The number handed out after `count` others; the counter has 32 bits. -/
def ofCount (count : Nat) : Id e := ⟨UInt32.ofNat count⟩

/-- The text of an id in messages, such as `item#5`. -/
def text (id : Id e) : String := e.word ++ "#" ++ Nat.repr id.toNat

theorem toNat_inj {a b : Id e} : a.toNat = b.toNat ↔ a = b := by
  cases a; cases b; simp [toNat, UInt32.toNat_inj]

/-- Within 32 bits the counter and the number agree. -/
theorem toNat_ofCount {count : Nat} (h : count < UInt32.size) :
    (ofCount count : Id e).toNat = count := by
  simp only [toNat, ofCount, UInt32.toNat_ofNat']
  exact Nat.mod_eq_of_lt h

end Id

end LiveSelect
