import Mathlib.Data.List.Induction
import LiveSelect.Proofs.Notices
import LiveSelect.Query.Delivery

/-! # Registrations and deliveries

Observers come and go between the events that they are called for. In such a run a registry gives
each number once, as long as its counter has not gone through all of its 64 bits; it keeps the
observers that were registered and not removed since in the order of their registrations, and calls
each of them once for every event, the latest first. A query lends its registry to each delivery
and gets it back as it was; so what holds of a registry holds of the registry of a query, whatever
operations stand between the registrations. -/

namespace LiveSelect

variable {α β ε : Type}

/-- An observer was registered under a number, which has not been removed since. What number a
registration gets depends on the actions before it. -/
def Registered (number : List (ObserverAction α β) → α → ObserverId)
    (actions : List (ObserverAction α β)) (id : ObserverId) (observer : α) : Prop :=
  ∃ earlier later, actions = earlier ++ .register observer :: later ∧
    number earlier observer = id ∧ .unregister id ∉ later

section Registered

variable {number : List (ObserverAction α β) → α → ObserverId}
variable {actions : List (ObserverAction α β)} {action : ObserverAction α β} {id : ObserverId}
variable {observer : α}

theorem not_registered_nil : ¬ Registered number [] id observer := by
  rintro ⟨earlier, later, hsplit, -⟩
  simp at hsplit

/-- What is registered after one more action. -/
theorem registered_concat :
    Registered number (actions ++ [action]) id observer ↔
      action = .register observer ∧ number actions observer = id ∨
        Registered number actions id observer ∧ action ≠ .unregister id := by
  constructor
  · -- The registration is the last action, or the last action comes after it.
    rintro ⟨earlier, later, hsplit, hid, hlater⟩
    rcases List.eq_nil_or_concat later with rfl | ⟨rest, last, rfl⟩
    · obtain ⟨rfl, hlast⟩ := List.append_inj' hsplit rfl
      exact Or.inl ⟨List.singleton_inj.1 hlast, hid⟩
    · rw [List.concat_eq_append] at hsplit hlater
      rw [← List.cons_append, ← List.append_assoc] at hsplit
      obtain ⟨rfl, hlast⟩ := List.append_inj' hsplit rfl
      obtain rfl := List.singleton_inj.1 hlast
      rw [List.mem_append, List.mem_singleton, not_or] at hlater
      exact Or.inr ⟨⟨earlier, rest, rfl, hid, hlater.1⟩, fun heq => hlater.2 heq.symm⟩
  · rintro (⟨rfl, hid⟩ | ⟨⟨earlier, later, rfl, hid, hlater⟩, hne⟩)
    · exact ⟨actions, [], rfl, hid, List.not_mem_nil⟩
    · refine ⟨earlier, later ++ [action], by simp, hid, ?_⟩
      rw [List.mem_append, List.mem_singleton, not_or]
      exact ⟨hlater, hne.symm⟩

end Registered

theorem registrations_concat (actions : List (ObserverAction α β))
    (action : ObserverAction α β) : registrations (actions ++ [action]) =
      registrations actions + if action.isRegistration then 1 else 0 := by
  rw [registrations, registrations, List.countP_append, List.countP_singleton]

theorem registrations_le_concat (actions : List (ObserverAction α β))
    (action : ObserverAction α β) :
    registrations actions ≤ registrations (actions ++ [action]) := by
  rw [registrations_concat]
  exact Nat.le_add_right _ _

namespace Registry

variable {r : Registry α} {given : List ObserverId}
variable {number : List (ObserverAction α β) → α → ObserverId}
variable {actions : List (ObserverAction α β)} {id : ObserverId} {observer : α}

/-! ## One removal -/

/-- A removal takes out the observer with the number, or finds none and changes nothing. -/
theorem withdraw_cases (r : Registry α) (id : ObserverId) :
    (∃ before observer after, r.observers = before ++ (id, observer) :: after ∧
      r.withdraw id = (some observer, { r with observers := before ++ after })) ∨
    (∀ x ∈ r.observers, x.1 ≠ id) ∧ r.withdraw id = (none, r) := by
  unfold withdraw
  cases hfind : r.observers.findIdx? (·.1 = id) with
  | none =>
    refine Or.inr ⟨fun x hx => ?_, rfl⟩
    simpa using List.findIdx?_eq_none_iff.1 hfind x hx
  | some n =>
    obtain ⟨hn, hid, -⟩ := List.findIdx?_eq_some_iff_getElem.1 hfind
    refine Or.inl ⟨r.observers.take n, r.observers[n].2, r.observers.drop (n + 1), ?_, ?_⟩
    · have hentry : (id, r.observers[n].2) = r.observers[n] := by
        rw [← of_decide_eq_true hid]
      rw [hentry, List.getElem_cons_drop, List.take_append_drop]
    · simp only [List.getElem?_eq_getElem hn, Option.map_some, List.eraseIdx_eq_take_drop_succ]

/-- To remove an observer is to take it from its place, whatever else the registry holds. -/
theorem withdraw_eq_unregister (r : Registry α) (id : ObserverId) :
    ((r.withdraw id).1.isSome, (r.withdraw id).2) = r.unregister id := by
  rw [unregister, List.eraseP_eq_eraseIdx, ← List.findIdx?_isSome, withdraw]
  cases hfind : r.observers.findIdx? (·.1 = id) with
  | none => rfl
  | some n =>
    obtain ⟨hn, -, -⟩ := List.findIdx?_eq_some_iff_getElem.1 hfind
    simp only [List.getElem?_eq_getElem hn, Option.map_some, Option.isSome_some]

/-! ## What a registry keeps -/

/-- After some actions a registry has given as many numbers as observers were registered, in
order, and holds what was registered and not removed, in the order in which the numbers were
given. -/
structure Keeps (r : Registry α) (given : List ObserverId)
    (number : List (ObserverAction α β) → α → ObserverId)
    (actions : List (ObserverAction α β)) : Prop where
  next_eq : ⟨r.next⟩ = ObserverId.ofCount (registrations actions)
  numbered : given = (List.range (registrations actions)).map ObserverId.ofCount
  in_order : (r.observers.map Prod.fst).Sublist given
  mem_iff : ∀ id observer, (id, observer) ∈ r.observers ↔ Registered number actions id observer

namespace Keeps

theorem start (number : List (ObserverAction α β) → α → ObserverId) :
    ({} : Registry α).Keeps [] number [] where
  next_eq := rfl
  numbered := rfl
  in_order := .refl []
  mem_iff _ _ := iff_of_false List.not_mem_nil not_registered_nil

theorem register (h : r.Keeps given number actions) (hnumber : number actions observer = ⟨r.next⟩) :
    (r.register observer).2.Keeps (given ++ [(r.register observer).1]) number
      (actions ++ [.register observer]) := by
  have hcount : registrations (actions ++ [.register observer]) = registrations actions + 1 :=
    registrations_concat actions _
  -- Nothing here asks that the counter has not gone round; removals and fresh numbers do.
  refine ⟨?_, ?_, ?_, fun id other => ?_⟩
  · have hnext : r.next = UInt64.ofNat (registrations actions) :=
      congrArg ObserverId.number h.next_eq
    rw [hcount, ObserverId.ofCount, UInt64.ofNat_add, ← hnext]
    rfl
  · rw [hcount, List.range_succ, List.map_append, ← h.numbered, List.map_singleton, ← h.next_eq]
    rfl
  · change ((r.observers ++ [_]).map Prod.fst).Sublist _
    rw [List.map_append]
    exact h.in_order.append (.refl _)
  · change (id, other) ∈ r.observers ++ [(⟨r.next⟩, observer)] ↔ _
    rw [List.mem_append, List.mem_singleton, h.mem_iff, registered_concat, Prod.mk.injEq, or_comm]
    constructor
    · rintro (⟨rfl, rfl⟩ | hthen)
      · exact Or.inl ⟨rfl, hnumber⟩
      · exact Or.inr ⟨hthen, by simp⟩
    · rintro (⟨heq, hid⟩ | ⟨hthen, -⟩)
      · cases heq
        exact Or.inl ⟨hid.symm.trans hnumber, rfl⟩
      · exact Or.inr hthen

theorem occur (h : r.Keeps given number actions) (what : β) :
    r.Keeps given number (actions ++ [.occur what]) := by
  have hsame : registrations (actions ++ [.occur what]) = registrations actions :=
    registrations_concat actions _
  refine ⟨hsame ▸ h.next_eq, hsame ▸ h.numbered, h.in_order, fun id observer => ?_⟩
  rw [h.mem_iff, registered_concat]
  simp

variable (h : r.Keeps given number actions) (hcount : registrations actions < UInt64.size)

include h hcount

/-- The next number is not among those that were given. -/
theorem fresh (observer : α) : (r.register observer).1 ∉ given := by
  rw [h.numbered, List.mem_map]
  rintro ⟨k, hk, heq⟩
  have hlt := List.mem_range.1 hk
  have hsame := (ObserverId.ofCount_inj (Nat.lt_trans hlt hcount) hcount).1 (heq.trans h.next_eq)
  exact Nat.ne_of_lt hlt hsame

theorem nodup : given.Nodup := by
  rw [h.numbered]
  have hfits : ∀ k ∈ List.range (registrations actions), k < UInt64.size := fun k hk =>
    Nat.lt_trans (List.mem_range.1 hk) hcount
  exact List.nodup_range.map_on fun a ha b hb =>
    (ObserverId.ofCount_inj (hfits a ha) (hfits b hb)).1

/-- Before and after an observer stand others. -/
theorem not_mem {before after : List (ObserverId × α)}
    (hsplit : r.observers = before ++ (id, observer) :: after) :
    ∀ x ∈ before ++ after, x.1 ≠ id := by
  have hnodup := h.in_order.nodup (h.nodup hcount)
  rw [hsplit, List.map_append, List.map_cons, List.nodup_middle, List.nodup_cons,
    ← List.map_append] at hnodup
  intro x hx hid
  exact hnodup.1 (List.mem_map.2 ⟨x, hx, hid⟩)

theorem withdraw (id : ObserverId) :
    (r.withdraw id).2.Keeps given number (actions ++ [.unregister id]) := by
  have hregistered : ∀ other x, Registered number (actions ++ [.unregister id]) other x ↔
      (other, x) ∈ r.observers ∧ other ≠ id := by
    intro other x
    rw [registered_concat, h.mem_iff]
    simp [eq_comm]
  have hsame : registrations (actions ++ [.unregister id]) = registrations actions :=
    registrations_concat actions _
  rcases r.withdraw_cases id with ⟨before, observer, after, hsplit, heq⟩ | ⟨hnone, heq⟩
  · have hothers := h.not_mem hcount hsplit
    rw [heq]
    refine ⟨hsame ▸ h.next_eq, hsame ▸ h.numbered, ?_, fun other x => ?_⟩
    · refine (List.Sublist.map _ ?_).trans h.in_order
      rw [hsplit]
      exact (List.Sublist.refl before).append (List.sublist_cons_self _ after)
    · rw [hregistered, hsplit]
      constructor
      · intro hx
        exact ⟨by simpa [or_left_comm] using Or.inr hx, hothers _ hx⟩
      · rintro ⟨hx, hne⟩
        simpa [hne] using hx
  · rw [heq]
    refine ⟨hsame ▸ h.next_eq, hsame ▸ h.numbered, h.in_order, fun other x => ?_⟩
    rw [hregistered]
    exact ⟨fun hx => ⟨hx, hnone _ hx⟩, And.left⟩

end Keeps

/-- Registrations get new numbers, removals take out exactly what they are asked to, and the
observers are called once each. -/
structure Serves (r : Registry α) (given : List ObserverId)
    (registered : ObserverId → α → Prop) : Prop where
  /-- A registration gets a number that was not given before. -/
  fresh : ∀ observer, (r.register observer).1 ∉ given
  /-- The numbers of the observers stand in the order in which they were given, each once. -/
  in_order : (r.observers.map Prod.fst).Sublist given
  once : (r.observers.map Prod.fst).Nodup
  /-- The observers are those that were registered and not removed since. -/
  mem_iff : ∀ id observer, (id, observer) ∈ r.observers ↔ registered id observer
  /-- A removal succeeds exactly for a number that is registered. -/
  withdraw_iff : ∀ id, (r.withdraw id).1.isSome ↔ ∃ observer, registered id observer
  /-- A removal that succeeds takes out the observer that it returns, and no other. -/
  withdraw_some : ∀ id observer, (r.withdraw id).1 = some observer →
    ∃ before after, r.observers = before ++ (id, observer) :: after ∧
      (r.withdraw id).2 = { r with observers := before ++ after }
  /-- A removal that fails changes nothing. -/
  withdraw_none : ∀ id, (r.withdraw id).1 = none → (r.withdraw id).2 = r

theorem Keeps.serves (h : r.Keeps given number actions)
    (hcount : registrations actions < UInt64.size) :
    r.Serves given (Registered number actions) where
  fresh := h.fresh hcount
  in_order := h.in_order
  once := h.in_order.nodup (h.nodup hcount)
  mem_iff := h.mem_iff
  withdraw_iff id := by
    rcases r.withdraw_cases id with ⟨before, observer, after, hsplit, heq⟩ | ⟨hnone, heq⟩
    · rw [heq]
      exact iff_of_true rfl ⟨observer, (h.mem_iff id observer).1 (by rw [hsplit]; simp)⟩
    · rw [heq]
      refine iff_of_false Bool.false_ne_true ?_
      rintro ⟨observer, hregistered⟩
      exact hnone _ ((h.mem_iff id observer).2 hregistered) rfl
  withdraw_some id observer hfound := by
    rcases r.withdraw_cases id with ⟨before, other, after, hsplit, heq⟩ | ⟨-, heq⟩
    · rw [heq] at hfound ⊢
      obtain rfl := Option.some.inj hfound
      exact ⟨before, after, hsplit, rfl⟩
    · rw [heq] at hfound
      cases hfound
  withdraw_none id hnone := by
    rcases r.withdraw_cases id with ⟨before, other, after, -, heq⟩ | ⟨-, heq⟩
    · rw [heq] at hnone
      cases hnone
    · rw [heq]

/-! ## Runs of a registry -/

/-- The calls for an event: the registered observers, the latest first. -/
theorem deliver_eq (r : Registry α) (event : ε) :
    r.deliver event = r.observers.reverse.map fun x => (x.2, event) := by
  rw [deliver, callOrder, ← List.map_reverse, List.map_map]
  rfl

theorem attend_concat (actions : List (ObserverAction α ε)) (action : ObserverAction α ε) :
    attend (actions ++ [action]) = act (attend actions) action := by
  rw [attend, List.foldl_append, List.foldl_cons, List.foldl_nil, attend]

/-- The number that a registration gets after some actions. -/
def numberAfter (earlier : List (ObserverAction α ε)) (observer : α) : ObserverId :=
  ((attend earlier).state.register observer).1

theorem keeps_attend (actions : List (ObserverAction α ε))
    (hcount : registrations actions < UInt64.size) :
    (attend actions).state.Keeps (attend actions).given numberAfter actions := by
  induction actions using List.reverseRecOn with
  | nil => exact .start numberAfter
  | append_singleton actions action ih =>
    have hearlier := Nat.lt_of_le_of_lt (registrations_le_concat actions action) hcount
    rw [attend_concat]
    cases action with
    | register observer => exact (ih hearlier).register rfl
    | unregister id => exact (ih hearlier).withdraw hearlier id
    | occur event => exact (ih hearlier).occur event

end Registry

namespace ObservedQuery

variable {q : Query}

/-! ## Operations of a query -/

/-- The registry that was lent comes back. -/
theorem fire_eq (o : ObservedQuery α) (event : Event) :
    o.fire event = (o.observers.deliver ⟨event, o.query⟩, o) := by
  unfold fire
  split
  · rename_i hempty
    have hnone : o.observers.observers = [] := List.isEmpty_iff.1 hempty
    rw [Registry.deliver_eq, hnone]
    rfl
  · rfl

/-- The notices of an edit are delivered one after the other, and the registry stays. -/
theorem fireAll_eq (o : ObservedQuery α) (notices : List Notice) :
    ∃ seen, o.fireAll notices = (o.observers.deliverAll notices, { o with query := seen }) := by
  unfold fireAll Registry.deliverAll
  induction notices using List.reverseRecOn with
  | nil => exact ⟨o.query, rfl⟩
  | append_singleton notices n ih =>
    -- Whatever query the earlier notices showed, this one is delivered with its own.
    obtain ⟨seen, heq⟩ := ih
    refine ⟨n.seen, ?_⟩
    rw [List.foldl_append, heq, List.flatMap_append, List.foldl_cons, List.foldl_nil,
      List.flatMap_singleton]
    simp only [fire_eq]

/-- What is fired step by step are the notices of the operation. -/
theorem serve_eq_perform (o : ObservedQuery α) (op : Operation) : o.serve op = o.perform op := by
  rw [← execute_eq_perform]
  unfold serve execute
  obtain ⟨seen, heq⟩ := o.fireAll_eq ((Procedure.perform op).runOn (.start o.query)).2.notices
  simp only [heq]

theorem attend_concat (actions : List (ObserverAction α Operation))
    (action : ObserverAction α Operation) :
    attend q (actions ++ [action]) = act (attend q actions) action := by
  rw [attend, List.foldl_append, List.foldl_cons, List.foldl_nil, attend]

/-- An operation calls the observers for each of its notices and leaves their registry alone. -/
theorem act_occur (s : Attended (ObservedQuery α) α Notice) (op : Operation) :
    act s (.occur op) =
      { s with
        state := { s.state with query := s.state.query.after op }
        calls := s.calls ++ (s.state.query.notices op).flatMap fun n =>
          s.state.observers.observers.reverse.map fun x => (x.2, n) } := by
  have hdeliver : s.state.observers.deliverAll (s.state.query.notices op) =
      (s.state.query.notices op).flatMap fun n =>
        s.state.observers.observers.reverse.map fun x => (x.2, n) :=
    congrArg ((s.state.query.notices op).flatMap ·) (funext s.state.observers.deliver_eq)
  simp only [act]
  rw [serve_eq_perform, ← execute_eq_perform, after_execute, calls_execute, hdeliver]

/-- The number that a registration gets after some actions on a query. -/
def numberAfter (q : Query) (earlier : List (ObserverAction α Operation)) (observer : α) :
    ObserverId :=
  ((attend q earlier).state.observe observer).1

theorem keeps_attend (q : Query) (actions : List (ObserverAction α Operation))
    (hcount : registrations actions < UInt64.size) :
    (attend q actions).state.observers.Keeps (attend q actions).given (numberAfter q) actions := by
  induction actions using List.reverseRecOn with
  | nil => exact .start (numberAfter q)
  | append_singleton actions action ih =>
    have hearlier := Nat.lt_of_le_of_lt (registrations_le_concat actions action) hcount
    rw [attend_concat]
    cases action with
    | register observer => exact (ih hearlier).register rfl
    | unregister id => exact (ih hearlier).withdraw hearlier id
    | occur op =>
      rw [act_occur]
      exact (ih hearlier).occur op

/-- In a run on a registry, and in a run on a query, that registers fewer than 2^64 observers, a
registration gets a number that was not given before, and a removal takes out the observer that is
registered under its number, if there is one, and nothing else. In every run an event is delivered
to each observer that the registry holds, once and the latest first, and the events of an operation
are delivered one after the other; deliveries leave the registry alone. Removals by position and
deliveries with a lent registry come to the same as those at once. -/
theorem observers_served (α : Type) :
    (∀ (ε : Type) (actions : List (ObserverAction α ε)),
      let s := Registry.attend actions
      (registrations actions < UInt64.size →
        s.state.Serves s.given (Registered Registry.numberAfter actions)) ∧
      (∀ event, Registry.attend (actions ++ [.occur event]) =
        { s with calls := s.calls ++ s.state.observers.reverse.map fun x => (x.2, event) }) ∧
      ∀ id, ((s.state.withdraw id).1.isSome, (s.state.withdraw id).2) = s.state.unregister id) ∧
    ∀ (q : Query) (actions : List (ObserverAction α Operation)),
      let s := attend q actions
      let o := s.state
      (registrations actions < UInt64.size →
        o.observers.Serves s.given (Registered (numberAfter q) actions) ∧
          ∀ observer, (o.observe observer).1 ∉ s.given) ∧
      (∀ id, o.withdraw id = ((o.observers.withdraw id).1.isSome,
        { o with observers := (o.observers.withdraw id).2 })) ∧
      (∀ op, attend q (actions ++ [.occur op]) =
        { s with
          state := { o with query := o.query.after op }
          calls := s.calls ++ (o.query.notices op).flatMap fun n =>
            o.observers.observers.reverse.map fun x => (x.2, n) }) ∧
      (∀ id, o.withdraw id = o.unobserve id) ∧ ∀ op, o.serve op = o.perform op := by
  constructor
  · intro ε actions s
    refine ⟨?_, ?_, s.state.withdraw_eq_unregister⟩
    · intro hcount
      exact (Registry.keeps_attend actions hcount).serves hcount
    · intro event
      rw [Registry.attend_concat, Registry.act, Registry.deliver_eq]
  · intro q actions s o
    refine ⟨?_, fun _ => rfl, ?_, ?_, serve_eq_perform o⟩
    · intro hcount
      have hkeeps := keeps_attend q actions hcount
      exact ⟨hkeeps.serves hcount, hkeeps.fresh hcount⟩
    · intro op
      rw [attend_concat, act_occur]
    · intro id
      rw [unobserve, ← o.observers.withdraw_eq_unregister id]
      rfl

/-- Of two observers of a registry the first is removed before the second event; of two observers
of a query it is removed before the order of sorting changes. The second is left, and a third would
be number 2. -/
theorem second_observer_served :
    let actions : List (ObserverAction String String) :=
      [.register "first", .register "second", .occur "before", .unregister ⟨0⟩, .occur "after"]
    let operations : List (ObserverAction String Operation) :=
      [.register "first", .register "second", .unregister ⟨0⟩,
        .occur (.setSortOrder (.ofCount 7) .descending)]
    let s := Registry.attend actions
    let o := attend Query.joinedTables operations
    registrations actions < UInt64.size ∧ registrations operations < UInt64.size ∧
      s.state.Serves s.given (Registered Registry.numberAfter actions) ∧
      s.calls = [("second", "before"), ("first", "before"), ("second", "after")] ∧
      o.state.observers.Serves o.given (Registered (numberAfter Query.joinedTables) operations) ∧
      o.calls.map Prod.fst = ["second"] ∧ o.given = [⟨0⟩, ⟨1⟩] ∧
      (o.state.observe "third").1 = ⟨2⟩ ∧ ⟨2⟩ ∉ o.given := by
  intro actions operations s o
  have hactions : registrations actions < UInt64.size := by decide
  have hoperations : registrations operations < UInt64.size := by decide
  obtain ⟨hregistry, hquery⟩ := observers_served String
  have hthird : (o.state.observe "third").1 = ⟨2⟩ := by decide +kernel
  obtain ⟨hserves, hfresh⟩ := (hquery Query.joinedTables operations).1 hoperations
  refine ⟨hactions, hoperations, (hregistry String actions).1 hactions, by decide +kernel, hserves,
    by decide +kernel, by decide +kernel, hthird, ?_⟩
  rw [← hthird]
  exact hfresh "third"

end ObservedQuery

end LiveSelect
