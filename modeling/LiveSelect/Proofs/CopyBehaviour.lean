import LiveSelect.Proofs.TwinOperations
import LiveSelect.Proofs.Consistency

/-! # A copy behaves like its original

An original and its copy are edited in tandem: every operation on the original is made on
the copy as well, with the numbers that stand for those of the original. Numbers that are
handed out on the way come to stand for each other. Both sides then always reply alike and
always have the same text, because they never cease to be twins. -/

namespace LiveSelect

/-- The renumbering after an operation that had the given outcomes on both sides. -/
def Renumbering.after (r : Renumbering) : Outcome → Outcome → Renumbering
  | .ok (x, _), .ok (y, _) => r.extend x y
  | _, _ => r

namespace Query

/-- What an original and its copy become when they are edited in tandem, with the numbers
that stand for each other by then. -/
inductive Tandem (q : Query) (uuid : Uuid) (mint : Minting) :
    Renumbering → Query → Query → Prop where
  | start : Tandem q uuid mint (q.copyWithRenumbering uuid mint).renumbering q
    (q.copyWithRenumbering uuid mint).query
  | step {r : Renumbering} {a b : Query} {op op' : Operation} (h : Tandem q uuid mint r a b)
    (hop : op.Matches r op') (ha : (a.after op).count < UInt32.size)
    (hb : (b.after op').count < UInt32.size) :
    Tandem q uuid mint (r.after (a.perform op) (b.perform op')) (a.after op) (b.after op')

/-- Twins with everything that is needed to edit them in tandem. -/
structure Alike (r : Renumbering) (a b : Query) : Prop where
  twin : Twin r a b
  left : a.WellFormed
  right : b.WellFormed
  count_left : a.count < UInt32.size
  count_right : b.count < UInt32.size

namespace Alike

variable {r : Renumbering} {a b : Query} {op op' : Operation}

/-- Matching operations on both sides keep them alike. -/
theorem after (h : Alike r a b) (hop : op.Matches r op') (ha : (a.after op).count < UInt32.size)
    (hb : (b.after op').count < UInt32.size) :
    Alike (r.after (a.perform op) (b.perform op')) (a.after op) (b.after op') := by
  have hagree := h.twin.perform h.left h.right h.count_left h.count_right hop
  refine ⟨?_, h.left.after h.count_left op, h.right.after h.count_right op', ha, hb⟩
  unfold Query.after Renumbering.after
  revert hagree
  cases a.perform op <;> cases b.perform op' <;> intro hagree <;> cases hagree
  · exact h.twin
  · rename_i hxy
    exact hxy.2

/-- Matching operations have matching outcomes. -/
theorem perform (h : Alike r a b) (hop : op.Matches r op') :
    Agree r (fun x y => x.1.Matches (r.extend x.1 y.1) y.1) (a.perform op) (b.perform op') := by
  have hagree := h.twin.perform h.left h.right h.count_left h.count_right hop
  revert hagree
  cases a.perform op <;> cases b.perform op' <;> intro hagree <;> cases hagree
  · rename_i herr
    exact .refused herr
  · rename_i hxy
    exact .ok hxy.1

end Alike

variable {q : Query}

/-- An original and its copy are alike to begin with. -/
theorem Reachable.copy_alike (hq : q.Reachable) (uuid : Uuid) (mint : Minting) :
    Alike q.renumbering q (q.copy uuid mint) where
  twin := twin_copy hq.wellFormed hq.count_lt uuid mint
  left := hq.wellFormed
  right := hq.wellFormed.copy hq.count_lt uuid mint
  count_left := hq.count_lt
  count_right := (hq.copy uuid mint).count_lt

/-- Edited in tandem, they stay alike. -/
theorem Tandem.alike (hq : q.Reachable) {uuid : Uuid} {mint : Minting} {r : Renumbering}
    {a b : Query} (h : Tandem q uuid mint r a b) : Alike r a b := by
  induction h with
  | start => exact hq.copy_alike uuid mint
  | step _ hop ha hb ih => exact ih.after hop ha hb

/-- The renumbering of a copy pairs the numbers in use on both sides one to one, and in every
tandem of the original and the copy the texts, the lists and the indices of joins agree, and
so do the outcomes of whatever is done next. -/
theorem Reachable.copy_behaves_alike (hq : q.Reachable) (uuid : Uuid) (mint : Minting) :
    (q.copyWithRenumbering uuid mint).renumbering.OneToOne ∧
    (∀ {e : Entity} (a : Id e), q.Knows a ↔
      ∃ b, (q.copyWithRenumbering uuid mint).renumbering.Pairs a b) ∧
    (∀ {e : Entity} (b : Id e), (q.copyWithRenumbering uuid mint).query.Knows b ↔
      ∃ a, (q.copyWithRenumbering uuid mint).renumbering.Pairs a b) ∧
    ∀ r a b, Tandem q uuid mint r a b →
      (∀ d : Dialect, a.textWith d.naming = b.textWith d.naming) ∧
      a.textWith .plain = b.textWith .plain ∧
      List.Forall₂ r.Pairs a.selected b.selected ∧
      List.Forall₂ r.Pairs a.sortList b.sortList ∧
      List.Forall₂ r.Pairs a.tables b.tables ∧
      List.Forall₂ r.Pairs a.allJoins b.allJoins ∧
      (∀ c c', r.Pairs c c' → List.Forall₂ r.Pairs (a.joinsOf c) (b.joinsOf c')) ∧
      ∀ op op', op.Matches r op' →
        Agree r (fun x y => x.1.Matches (r.extend x.1 y.1) y.1) (a.perform op) (b.perform op') := by
  have hw := hq.wellFormed
  have htwin := (hq.copy_alike uuid mint).twin
  refine ⟨htwin.oneToOne, ?_, ?_, ?_⟩
  · -- the numbers of the original
    intro e a
    constructor
    · exact fun ha => exists_pair hw ha
    · rintro ⟨b, hab⟩
      exact knows_of_pairs hw hab
  · -- the numbers of the copy
    intro e b
    constructor
    · exact fun hb => paired_of_knows_copy hw hq.count_lt uuid mint hb
    · rintro ⟨a, hab⟩
      have ha : q.Knows a := knows_of_pairs hw hab
      cases e with
      | item => exact (htwin.items.contains hab).symm.trans ha
      | container => exact (htwin.containers.contains hab).symm.trans ha
      | join => exact (htwin.joins.contains hab).symm.trans ha
  · -- whatever was done to both
    intro r a b htandem
    have halike : Alike r a b := htandem.alike hq
    have htwins := halike.twin
    have hi := halike.left.indexed
    have hi' := halike.right.indexed
    refine ⟨fun d => htwins.textWith d.naming_blind hi hi',
      htwins.textWith Naming.plain_blind hi hi', htwins.selected, htwins.sortList, htwins.tables,
      htwins.allJoins, fun c c' hc => htwins.joinsOf hi hi' hc, ?_⟩
    intro op op' hop
    exact halike.perform hop

/-- After a join of the original and the join that stands for it in the copy were both made
outer, the texts are the same. -/
theorem joinedTables_copy_same_text :
    let uuid : Uuid := .ofNat 0
    joinedTables.Reachable ∧
      (joinedTables.after (.setOuter (.ofCount 8) .left true)).textWith .plain =
        ((joinedTables.copy uuid fun _ => uuid).after
          (.setOuter (.ofCount 8) .left true)).textWith .plain := by
  refine ⟨joinedTables_reachable, ?_⟩
  have hpair : joinedTables.renumbering.Pairs (.ofCount 8 : JoinId) (.ofCount 8) := by
    show (_, _) ∈ joinedTables.renumbering.joins
    decide +kernel
  have hstart : Tandem joinedTables (.ofNat 0) (fun _ => .ofNat 0) _ _ _ := .start
  have hstep := hstart.step (.setOuter hpair .left true) (by decide +kernel) (by decide +kernel)
  exact ((joinedTables_reachable.copy_behaves_alike _ _).2.2.2 _ _ _ hstep).2.1

end Query

end LiveSelect
