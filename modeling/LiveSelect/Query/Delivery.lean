import LiveSelect.Query.Procedure

/-! # Deliveries step by step

A registry removes an observer from the place where it finds it. A query lends its registry to
every delivery: while the observers of an event are called, the query that they see has none, and
afterwards it has its registry back. Here removals and deliveries are written out in this way, and
so are the runs in which observers come and go while things happen for which they are called. -/

namespace LiveSelect

variable {α ε : Type}

namespace Registry

/-- Removes the observer with the given number from its place and returns it, if there is one. -/
def withdraw (r : Registry α) (id : ObserverId) : Option α × Registry α :=
  match r.observers.findIdx? (·.1 = id) with
  | none => (none, r)
  | some n => ((r.observers[n]?).map Prod.snd, { r with observers := r.observers.eraseIdx n })

end Registry

namespace ObservedQuery

/-- Removes an observer; tells whether it was registered. -/
def withdraw (o : ObservedQuery α) (id : ObserverId) : Bool × ObservedQuery α :=
  let (found, observers) := o.observers.withdraw id
  (found.isSome, { o with observers })

/-- Calls the observers for an event. Meanwhile an empty registry stands in for theirs. -/
def fire (o : ObservedQuery α) (event : Event) : List (α × Notice) × ObservedQuery α :=
  if o.observers.isEmpty then ([], o)
  else
    let lent : ObservedQuery α := { o with observers := {} }
    (o.observers.deliver ⟨event, lent.query⟩, { lent with observers := o.observers })

/-- Fires the events of an edit one after the other, each while the query is as the edit had
left it by then. -/
def fireAll (o : ObservedQuery α) (notices : List Notice) :
    List (α × Notice) × ObservedQuery α :=
  notices.foldl (fun (calls, o) n =>
    let (more, o) := { o with query := n.seen }.fire n.event
    (calls ++ more, o)) ([], o)

/-- Carries out the steps of an operation and fires what they announce. -/
def serve (o : ObservedQuery α) (op : Operation) : Performed α :=
  let (reply, e) := (Procedure.perform op).runOn (.start o.query)
  let (calls, o) := o.fireAll e.notices
  ⟨reply, calls, { o with query := e.query }⟩

end ObservedQuery

/-! ## Runs -/

/-- What happens around observers: one is registered, one is removed, or something occurs for
which they are called. -/
inductive ObserverAction (α β : Type) where
  | register (observer : α)
  | unregister (id : ObserverId)
  | occur (what : β)

def ObserverAction.isRegistration {β : Type} : ObserverAction α β → Bool
  | .register _ => true
  | .unregister _ => false
  | .occur _ => false

/-- How many observers are registered by some actions. -/
def registrations {β : Type} (actions : List (ObserverAction α β)) : Nat :=
  actions.countP ObserverAction.isRegistration

/-- A state with observers, the numbers that observers were given so far, and the calls so far. -/
structure Attended (σ α ε : Type) where
  state : σ
  given : List ObserverId := []
  calls : List (α × ε) := []

namespace Registry

/-- One action on a registry; what occurs is an event. -/
def act (s : Attended (Registry α) α ε) : ObserverAction α ε → Attended (Registry α) α ε
  | .register observer =>
    let (id, state) := s.state.register observer
    { s with state, given := s.given ++ [id] }
  | .unregister id => { s with state := (s.state.withdraw id).2 }
  | .occur event => { s with calls := s.calls ++ s.state.deliver event }

/-- Actions on a new registry. -/
def attend (actions : List (ObserverAction α ε)) : Attended (Registry α) α ε :=
  actions.foldl act { state := {} }

end Registry

namespace ObservedQuery

/-- One action on a query; what occurs is an operation. -/
def act (s : Attended (ObservedQuery α) α Notice) :
    ObserverAction α Operation → Attended (ObservedQuery α) α Notice
  | .register observer =>
    let (id, state) := s.state.observe observer
    { s with state, given := s.given ++ [id] }
  | .unregister id => { s with state := (s.state.withdraw id).2 }
  | .occur op =>
    let p := s.state.serve op
    { s with state := p.after, calls := s.calls ++ p.calls }

/-- Actions on a query without observers. -/
def attend (q : Query) (actions : List (ObserverAction α Operation)) :
    Attended (ObservedQuery α) α Notice :=
  actions.foldl act { state := { query := q } }

end ObservedQuery

end LiveSelect
