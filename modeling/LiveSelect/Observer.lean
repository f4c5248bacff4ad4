/-! # Observers

A registry keeps observers in the order in which they were registered and delivers
every event to all of them, the latest first. It numbers them from a counter of 64 bits,
which goes on when observers are removed. -/

namespace LiveSelect

/-- The 64-bit number under which an observer is registered. -/
structure ObserverId where
  number : UInt64
deriving DecidableEq, Repr

namespace ObserverId

/-- The number given after `count` others; the counter has 64 bits. -/
def ofCount (count : Nat) : ObserverId := ⟨UInt64.ofNat count⟩

/-- Within 64 bits no number is given twice. -/
theorem ofCount_inj {a b : Nat} (ha : a < UInt64.size) (hb : b < UInt64.size) :
    ofCount a = ofCount b ↔ a = b := by
  rw [ofCount, ofCount, mk.injEq, ← UInt64.toNat_inj, UInt64.toNat_ofNat_of_lt' ha,
    UInt64.toNat_ofNat_of_lt' hb]

end ObserverId

/-- Observers of type `α` in registration order, and the next free number. -/
structure Registry (α : Type) where
  observers : List (ObserverId × α) := []
  next : UInt64 := 0

namespace Registry

variable {α ε : Type}

/-- Adds an observer under the next number. -/
def register (r : Registry α) (observer : α) : ObserverId × Registry α :=
  (⟨r.next⟩, { observers := r.observers ++ [(⟨r.next⟩, observer)], next := r.next + 1 })

/-- Removes the first observer with the given number; tells whether there was one. -/
def unregister (r : Registry α) (id : ObserverId) : Bool × Registry α :=
  (r.observers.any (·.1 = id), { r with observers := r.observers.eraseP (·.1 = id) })

def size (r : Registry α) : Nat := r.observers.length

def isEmpty (r : Registry α) : Bool := r.observers.isEmpty

/-- The observers in the order in which they are called. -/
def callOrder (r : Registry α) : List α := (r.observers.map Prod.snd).reverse

/-- The calls by which one event is delivered. -/
def deliver (r : Registry α) (event : ε) : List (α × ε) := r.callOrder.map fun o => (o, event)

/-- The calls by which events are delivered, one event after the other. -/
def deliverAll (r : Registry α) (events : List ε) : List (α × ε) := events.flatMap r.deliver

/-- A registry as it is shown to a reader: the number of its observers. -/
def text (r : Registry α) : String :=
  "ObserverRegistry \x7b observers: " ++ Nat.repr r.size ++ " \x7d"

end Registry

end LiveSelect
