import LiveSelect.Query.Basic

/-! # Copies

A copy of a query is an independent query with numbers and identifiers of its own. Every
container is copied, also those outside the statement, and every order that shows or can
come to show in the statement is kept: of the lists, of the items of a container, and of
the joins of a container. -/

namespace LiveSelect

/-- Which new number stands for which old one. -/
structure Renumbering where
  containers : List (ContainerId × ContainerId)
  items : List (ItemId × ItemId)
  joins : List (JoinId × JoinId)
deriving DecidableEq

/-- A copy and the numbers in it. -/
structure Copied where
  query : Query
  renumbering : Renumbering

/-- Pairs each old number with the next new one, starting at `first`. -/
def numberFrom {e : Entity} (first : Nat) (olds : List (Id e)) : List (Id e × Id e) :=
  olds.mapIdx fun i old => (old, .ofCount (first + i))

/-- Replaces numbers by the ones that stand for them; others are dropped. -/
def renumber {e : Entity} (pairs : List (Id e × Id e)) (ids : List (Id e)) : List (Id e) :=
  ids.filterMap fun id => pairs.lookup id

namespace Query

/-- The containers that are neither tables of the statement nor hold the constants. -/
def detached (q : Query) : List ContainerId := q.containers.keys.filter (!q.isAttached ·)

/-- All containers in the order in which they are copied. -/
def copyOrder (q : Query) : List ContainerId := q.constants :: (q.tables ++ q.detached)

/-- The numbers in a copy: containers first, then their items, then the joins. -/
def renumbering (q : Query) : Renumbering :=
  let containers := numberFrom 0 q.copyOrder
  let items := numberFrom containers.length (q.copyOrder.flatMap q.itemsOf)
  let kept := q.allJoins.filter fun j =>
    (q.join? j).any fun join => (items.lookup join.left).isSome && (items.lookup join.right).isSome
  { containers, items, joins := numberFrom (containers.length + items.length) kept }

/-- Looks up an old number and puts the value under the new one, changed by `f`. -/
def carry {e : Entity} {α β : Type} (m : IdMap e α) (pairs : List (Id e × Id e))
    (f : Id e → α → Option β) : IdMap e β :=
  .ofList (pairs.filterMap fun x => do
    let a ← m.get? x.1
    let b ← f x.2 a
    return (x.2, b))

/-- The copy of a query under the given identifier, with the numbers in it. -/
def copyWithRenumbering (q : Query) (uuid : Uuid) (mint : Minting) : Copied :=
  let r := q.renumbering
  let query :=
    { q with
      uuid
      containers := carry q.containers r.containers fun id k =>
        some { k with items := renumber r.items k.items, uuid := mint id.toNat }
      items := carry q.items r.items fun id item => do
        let container ← r.containers.lookup item.container
        return { item with container, uuid := mint id.toNat }
      joins := carry q.joins r.joins fun _ join => do
        let left ← r.items.lookup join.left
        let right ← r.items.lookup join.right
        return { join with left, right }
      count := r.containers.length + r.items.length + r.joins.length
      selected := renumber r.items q.selected
      sortList := renumber r.items q.sortList
      tables := renumber r.containers q.tables
      incidence := carry q.incidence r.containers fun _ joins =>
        let joins := renumber r.joins joins
        if joins = [] then none else some joins
      constants := .ofCount 0 }
  ⟨query, r⟩

/-- The copy of a query under the given identifier. -/
def copy (q : Query) (uuid : Uuid) (mint : Minting) : Query :=
  (q.copyWithRenumbering uuid mint).query

end Query

end LiveSelect
