import LiveSelect.Proofs.Notices
import LiveSelect.Proofs.Outerness

/-! # Setting the outer flag of a table

Setting a flag of one join sets it for the table on that side, in all of its joins. Here the
operation is described in full: the query that it leaves, the notices that it sends, and that it
is done once and for all. A table may be on the left of some of its joins and on the right of
others, so the side is found for each join by the owner of its columns; the two columns of a join
have different owners, and the flag of the partner is never touched. -/

namespace LiveSelect.Query

variable {q : Query} {c : ContainerId} {j : JoinId}

/-- Whether the flag that a join has for a container differs from the given one. -/
def flagDiffers (q : Query) (c : ContainerId) (outer : Bool) (k : JoinId) : Bool :=
  (q.join? k).any fun x =>
    (q.home? x.left = some c && x.leftOuter != outer) ||
      (q.home? x.right = some c && x.rightOuter != outer)

/-! ## The joins that are changed -/

namespace Indexed

/-- Only the side counts that the container holds. -/
theorem flagDiffers_eq (h : q.Indexed) {x : Join} {s : Side} (hj : q.join? j = some x)
    (hs : q.home? (x.column s) = some c) (outer : Bool) :
    q.flagDiffers c outer j = (x.outer s != outer) := by
  rcases h.home_of_join hj with ⟨l, r, hl, hr, hne⟩
  rw [flagDiffers, hj, Option.any_some, hl, hr]
  cases s with
  | left =>
    rw [Join.column, hl, Option.some.injEq] at hs
    have hother : r ≠ c := fun heq => hne (hs.trans heq.symm)
    simp [hs, hother, Join.outer]
  | right =>
    rw [Join.column, hr, Option.some.injEq] at hs
    have hother : l ≠ c := fun heq => hne (heq.trans hs.symm)
    simp [hs, hother, Join.outer]

/-- A join that is listed for a container has a side that the container holds. -/
theorem side_of_mem_joinsOf (h : q.Indexed) (hj : j ∈ q.joinsOf c) :
    ∃ x s, q.join? j = some x ∧ q.home? (x.column s) = some c := by
  rcases h.mem_joinsOf_iff.1 hj with ⟨x, hx, hc | hc⟩
  · exact ⟨x, .left, hx, hc⟩
  · exact ⟨x, .right, hx, hc⟩

theorem fst_differingJoins (h : q.Indexed) {outer : Bool} {changes : List (JoinId × Side)}
    (hd : q.differingJoins c outer = .ok changes) :
    changes.map Prod.fst = (q.joinsOf c).filter (q.flagDiffers c outer) := by
  unfold differingJoins at hd
  obtain ⟨sides, hsides, hd⟩ := QueryDefinition.bind_ok hd
  cases hd
  rw [← fst_mapM_sideOf hsides, List.filter_map]
  congr 1
  refine List.filter_congr fun y hy => ?_
  rcases (mem_mapM hsides y).1 hy with ⟨k, hk, heq⟩
  obtain ⟨s, hs, heq⟩ := QueryDefinition.bind_ok heq
  cases heq
  rcases h.side_of_mem_joinsOf hk with ⟨x, -, hx, -⟩
  have hhome := (h.sideOf_eq_ok_iff hx s).1 hs
  rw [Function.comp_apply, h.flagDiffers_eq hx hhome, hx, Option.any_some]
  exact decide_not.trans (by cases x.outer s <;> cases outer <;> rfl)

/-- Setting a flag of a known join is never refused. -/
theorem setOuter_of_join? (h : q.Indexed) {x : Join} (hj : q.join? j = some x) (side : Side)
    (outer : Bool) :
    ∃ c changes, q.home? (x.column side) = some c ∧ q.differingJoins c outer = .ok changes ∧
      q.setOuter j side outer = .ok ((Edit.start q).each changes (flipOuter outer)) := by
  rcases h.home_of_column hj side with ⟨c, hc⟩
  rcases Option.map_eq_some_iff.1 hc with ⟨item, hitem, rfl⟩
  rcases h.differingJoins_ok item.container outer with ⟨changes, hchanges⟩
  refine ⟨item.container, changes, hc, hchanges, ?_⟩
  simp only [setOuter, hj, hitem, hchanges]
  rfl

end Indexed

/-! ## The query and the notices -/

section Changes

variable {outer : Bool} {changes : List (JoinId × Side)}

theorem query_each_flipOuter :
    ((Edit.start q).each changes (flipOuter outer)).query = changes.foldl (·.setFlag outer) q :=
  Edit.query_each (f := (·.setFlag outer)) _ (Edit.query_flipOuter · outer) _

/-- Every join of the container has the flag then, on the side that the container holds. -/
theorem Indexed.agree_changed (h : q.Indexed) (hd : q.differingJoins c outer = .ok changes)
    {k : JoinId} (hk : k ∈ q.joinsOf c) :
    ∃ x s, (changes.foldl (·.setFlag outer) q).join? k = some x ∧
      q.home? (x.column s) = some c ∧ x.outer s = outer := by
  rcases h.side_of_mem_joinsOf hk with ⟨x, s, hx, hs⟩
  refine ⟨_, s, (h.join?_changed hd k).trans (congrArg _ hx), ?_, ?_⟩
  · rw [Join.column_withOuterOn]
    exact hs
  · rw [Join.outer_withOuterOn, hs, decide_eq_true rfl, if_pos rfl]

/-- Each join whose flag for the container was the other one is announced, on the side that the
container holds. -/
theorem Indexed.notices_changed (h : q.Indexed) (hd : q.differingJoins c outer = .ok changes) :
    List.Forall₂ (fun k n => ∃ x s, q.join? k = some x ∧ q.home? (x.column s) = some c ∧
        n.event = .joinChanged k ⟨outerProperty s, .flag (!outer), .flag outer⟩)
      ((q.joinsOf c).filter (q.flagDiffers c outer))
      ((Edit.start q).each changes (flipOuter outer)).notices := by
  have hloop : ∃ told, ((Edit.start q).each changes (flipOuter outer)).notices = [] ++ told ∧
      List.Forall₂ (fun y n => ∃ x s, q.join? y.1 = some x ∧ q.home? (x.column s) = some c ∧
        n.event = .joinChanged y.1 ⟨outerProperty s, .flag (!outer), .flag outer⟩)
        changes told := by
    refine Edit.each_announce (P := fun _ => True) (fun _ _ => rfl) (fun _ _ _ _ => trivial) ?_
      trivial
    rintro - ⟨k, s⟩ hy -
    rcases (mem_differingJoins hd k s).1 hy with ⟨hk, hs, -⟩
    rcases h.mem_joinsOf_iff.1 hk with ⟨x, hx, -⟩
    exact ⟨x, s, hx, (h.sideOf_eq_ok_iff hx s).1 hs, rfl⟩
  rcases hloop with ⟨told, htold, hall⟩
  rw [htold, List.nil_append, ← h.fst_differingJoins hd, List.forall₂_map_left_iff]
  exact hall

end Changes

/-- Where all joins of the container have the flag already, nothing is done. -/
theorem Indexed.setOuter_of_agree (h : q.Indexed) {x : Join} {side : Side} {outer : Bool}
    (hj : q.join? j = some x) (hc : q.home? (x.column side) = some c)
    (hagree : ∀ k ∈ q.joinsOf c, q.flagDiffers c outer k = false) :
    q.setOuter j side outer = .ok (.start q) := by
  rcases h.setOuter_of_join? hj side outer with ⟨c', changes, hc', hd, heq⟩
  rw [hc, Option.some.injEq] at hc'
  subst hc'
  have hnone : changes.map Prod.fst = [] := by
    rw [h.fst_differingJoins hd, List.filter_eq_nil_iff]
    exact fun k hk => Bool.not_eq_true _ ▸ hagree k hk
  rw [heq, List.map_eq_nil_iff.1 hnone]
  rfl

/-! ## The whole operation -/

/-- In a reachable query a flag of every known join can be set, and of no other. The container on
that side then has the flag in all of its joins, and nothing else is changed. There is one notice
for each join in which it had the other flag, in the order of its list of joins, and each names
the side that the container holds there. To set the flag again does nothing. -/
theorem Reachable.setOuter_exact (h : q.Reachable) (j : JoinId) (side : Side) (outer : Bool) :
    (∀ x, q.join? j = some x → ∃ e, q.perform (.setOuter j side outer) = .ok (.done, e)) ∧
    ∀ reply e, q.perform (.setOuter j side outer) = .ok (reply, e) →
      ∃ x c, q.join? j = some x ∧ q.home? (x.column side) = some c ∧
        e.query = { q with joins := e.query.joins } ∧
        (∀ k, e.query.join? k = (q.join? k).map fun x =>
          x.withOuterOn (fun s => q.home? (x.column s) = some c) outer) ∧
        (∀ k ∈ q.joinsOf c, ∃ x s, e.query.join? k = some x ∧
          q.home? (x.column s) = some c ∧ x.outer s = outer) ∧
        (q.joinsOf c).Nodup ∧
        List.Forall₂ (fun k n => ∃ x s, q.join? k = some x ∧ q.home? (x.column s) = some c ∧
            n.event = .joinChanged k ⟨outerProperty s, .flag (!outer), .flag outer⟩)
          ((q.joinsOf c).filter (q.flagDiffers c outer)) e.notices ∧
        e.query.perform (.setOuter j side outer) = .ok (.done, .start e.query) := by
  have hindexed := h.wellFormed.indexed
  refine ⟨fun x hx => ?_, fun reply e hp => ?_⟩
  · rcases hindexed.setOuter_of_join? hx side outer with ⟨c, changes, -, -, heq⟩
    exact ⟨_, by rw [perform, heq]; rfl⟩
  · have hwell : e.query.WellFormed := h.wellFormed.perform h.count_lt hp
    have he : q.setOuter j side outer = .ok e := (Outcome.ofEdit_ok hp).2
    rcases setOuter_ok he with ⟨x, -, -, hx, -⟩
    rcases hindexed.setOuter_of_join? hx side outer with ⟨c, changes, hc, hd, heq⟩
    rw [he, Except.ok.injEq] at heq
    have hquery : e.query = changes.foldl (·.setFlag outer) q := by
      rw [heq, query_each_flipOuter]
    have hframe : e.query = { q with joins := e.query.joins } := by
      rw [hquery]
      exact foldl_setFlag_frame outer changes q
    have hhome : ∀ i, e.query.home? i = q.home? i := fun i => by rw [hframe]; rfl
    have hjoinsOf : e.query.joinsOf c = q.joinsOf c := by rw [hframe]; rfl
    have hjoins := hindexed.join?_changed hd
    have hset := fun k => hindexed.agree_changed hd (k := k)
    rw [← hquery] at hjoins hset
    refine ⟨x, c, hx, hc, hframe, hjoins, hset, hindexed.nodup_joinsOf c, ?_, ?_⟩
    · rw [heq]
      exact hindexed.notices_changed hd
    · have hagree : ∀ k ∈ e.query.joinsOf c, e.query.flagDiffers c outer k = false := by
        intro k hk
        rw [hjoinsOf] at hk
        rcases hset k hk with ⟨y, s, hy, hs, hflag⟩
        rw [hwell.indexed.flagDiffers_eq hy ((hhome _).trans hs), hflag, bne_self_eq_false]
      obtain ⟨x', hx', hcolumn⟩ :
          ∃ x', e.query.join? j = some x' ∧ x'.column side = x.column side :=
        ⟨_, (hjoins j).trans (congrArg _ hx), Join.column_withOuterOn x _ outer side⟩
      have hc' : e.query.home? (x'.column side) = some c := by rw [hcolumn, hhome, hc]
      rw [perform, hwell.indexed.setOuter_of_agree hx' hc' hagree]
      rfl

/-- The first table is on the left of one of its joins and on the right of the other. Set on the
second join, its flag goes in both, and the flags of the other table stay. -/
theorem twiceJoined_setOuter :
    twiceJoined.Reachable ∧
      ∃ e, twiceJoined.perform (.setOuter (.ofCount 9) .right false) = .ok (.done, e) ∧
        e.query.join? (.ofCount 8) = some { left := .ofCount 6, right := .ofCount 7 } ∧
        e.query.join? (.ofCount 9) = some { left := .ofCount 7, right := .ofCount 6 } ∧
        e.notices.length = 2 ∧
        e.query.perform (.setOuter (.ofCount 9) .right false) = .ok (.done, .start e.query) := by
  have hjoin : twiceJoined.join? (.ofCount 9) =
      some { left := .ofCount 7, right := .ofCount 6, rightOuter := true } := by decide +kernel
  have hexact := twiceJoined_reachable.setOuter_exact (.ofCount 9) .right false
  rcases hexact.1 _ hjoin with ⟨e, he⟩
  rcases hexact.2 _ e he with ⟨x, c, hx, hc, -, hjoins, -, -, hnotices, hagain⟩
  have hx' := hjoin.symm.trans hx
  cases hx'
  have hc' : twiceJoined.home? (.ofCount 6) = some (.ofCount 4) := by decide +kernel
  have hctwo := hc'.symm.trans hc
  cases hctwo
  refine ⟨twiceJoined_reachable, e, he, ?_, ?_, ?_, hagain⟩
  · rw [hjoins]
    decide +kernel
  · rw [hjoins]
    decide +kernel
  · rw [← hnotices.length_eq]
    decide +kernel

end LiveSelect.Query
