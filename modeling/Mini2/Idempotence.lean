import Mini2.FollowSubmit

/-!
Submitting and forwarding again: nobody notices, as long as no node gets the request back that has
dropped it and no two prefetchers ask one owner at the same time. Both can happen, and then a node
keeps the request, or rows are lost.
-/

namespace Mini2.Idempotence

open Mini2.Proto Mini2.Net Mini2.Request Mini2.Producer Mini2.Gather Mini2.GatherShape Mini2.Runs
open Mini2.Finish Mini2.Forwarded Mini2.ExactlyOnce Mini2.Traces Mini2.Course Mini2.Resubmit
open Mini2.Follow Mini2.FollowSteps Mini2.FollowSubmit

variable {N Query Row : Type} [DecidableEq N] {c : Config N Query Row} {q : Query}
  {x x' : ReSys N Row} {v : Single N}

/-- **A step with others around is a step of the one that stands for all**, several, or none. -/
theorem followed_step {a : ReAct N} (hown : (c.eligible q).Nodup) (hr : WithinTtl c q)
    (hreach : Reach (step c q) (fun _ a => AllAnswered a) (init N Row) (v.on x.sys))
    (h : Follows c q x v) (hok : Answered a) (hharm : Harmless c q x a)
    (hst : reStep c q x a = some x') : Followed c q x' := by
  unfold reStep at hst
  rw [if_neg (by simp [h.once])] at hst
  cases a with
  | call =>
    obtain rfl := Option.some.inj hst
    exact followed_call hreach h
  | submit j a =>
    simp only at hst
    split at hst
    next hj =>
      obtain ⟨s', hs', rfl⟩ := Option.map_eq_some_iff.mp hst
      have hfresh : a = .register → ¬ Dropped (x.sys.node c.gateway) := by
        rintro rfl
        exact hharm.1
      rw [decide_eq_false fun hd => hfresh hd.1 hd.2]
      exact followed_submit hreach h hj hown hr hok hfresh hs'
    next => cases hst
  | again f n ttl =>
    simp only at hst
    split at hst
    next p hp =>
      split at hst
      next =>
        obtain rfl := Option.some.inj hst
        exact followed_again hreach h (List.mem_of_getElem? hp) rfl
      next => cases hst
    next => cases hst
  | forward f =>
    obtain ⟨s', hs', rfl⟩ := Option.map_eq_some_iff.mp hst
    exact followed_forward hr hreach h hharm.1 hs'
  | produce n a =>
    obtain ⟨e, he, rfl⟩ := Option.map_eq_some_iff.mp hst
    exact followed_produce hreach h he
  | prefetch j k a =>
    obtain ⟨s', hs', rfl⟩ := Option.map_eq_some_iff.mp hst
    refine followed_prefetch hreach h hr ?_ ?_ hs'
    · rintro code rfl
      exact hok
    · rintro rfl
      exact hharm.2
  | pull i a =>
    obtain ⟨s', hs', rfl⟩ := Option.map_eq_some_iff.mp hst
    exact followed_pull hreach h hs'
  | fetch a =>
    simp only [reFetchStep] at hst
    split at hst
    next =>
      split at hst
      next hf =>
        split at hst
        next hj =>
          obtain rfl := Option.some.inj hst
          exact followed_finish hreach h hf hj
        next => cases hst
      next => cases hst
    next hfin =>
      obtain ⟨s', hs', rfl⟩ := Option.map_eq_some_iff.mp hst
      by_cases hd : ∃ m, a = .drain m
      · obtain ⟨m, rfl⟩ := hd
        exact followed_drain hown hr hreach h hs'
      · exact followed_fetch hreach h (fun m hm => hd ⟨m, hm⟩) hfin hs'

/-- **Every run with repetitions is followed by one without.** -/
theorem followed_of_reach (hown : (c.eligible q).Nodup) (hr : WithinTtl c q)
    (h : Reach (reStep c q) (fun x a => Answered a ∧ Harmless c q x a) (reInit N Row) x) :
    Followed c q x := by
  refine h.invariant (I := Followed c q) ⟨.init N, .init, follows_init⟩ ?_
  rintro x a x' - ⟨v, hreach, hv⟩ ⟨hok, hharm⟩ hst
  exact followed_step hown hr hreach hv hok hharm hst

lemma returned_of_allReturned
    (hreach : Reach (step c q) (fun _ a => AllAnswered a) (init N Row) (v.on x.sys))
    (h : Follows c q x v) (hfin : x.sys.finished ≠ none) (hret : AllReturned x) :
    Returned (v.on x.sys) := by
  have hidle : v.submit ≠ .idle := ((ended_of_reach hreach).gone (.inl hfin)).2
  obtain ⟨j, hj, hb⟩ := h.tracks.ahead.resolve_left hidle
  have hp := (h.tracks.begun.resolve_left hidle).1
  have hsub : v.submit = .returned := by
    have hb' := h.tracks.behind j
    rcases hret.submit j hj with hs | hs <;> rw [hs] at hb hb'
    · exact eq_returned (Nat.le_antisymm (phase_le _) (hb'.elim Nat.le_of_lt fun hb => hb.1.le))
    · -- a call that is refused has begun nothing
      have hle : phase v.submit ≤ 0 := hb.elim Nat.le_of_lt fun hb => hb.1.le
      omega
  refine ⟨.inl hsub, hret.fetch, ?_, hret.pull⟩
  rw [List.all_eq_true]
  intro p hp
  obtain ⟨f, hf⟩ := List.getElem?_of_mem hp
  cases hstage : p.stage with
  | answered code => rfl
  | «at» n ttl =>
    obtain ⟨k, a, hs⟩ := pending_of_reach (fun _ _ ha => ha.forwardsAnswered) hreach f p n ttl hf
      hstage
    have hs : v.submit = .awaiting k a f := hs
    rw [hsub] at hs
    cases hs

/-- **Repetitions change nothing**, for owners that are listed once, at most eight hops away and
not empty, if every call is answered, no node registers the request that has dropped it, and no
prefetcher asks an owner that another one is asking. -/
theorem idempotent (c : Config N Query Row) (q : Query) (hown : (c.eligible q).Nodup)
    (hr : WithinTtl c q) (hrows : HaveRows c q) : Idempotent c q (Harmless c q) := by
  intro hall x hx hfin
  obtain ⟨v, hreach, hv⟩ := followed_of_reach hown hr hx
  have hperm := log_perm (s := v.on x.sys) hown hr (fun _ _ => id) hreach hall (.inl hfin)
  refine ⟨hperm, fun hret => ?_⟩
  exact noTrace_of_haveRows (s := v.on x.sys) hreach hfin
    (returned_of_allReturned hreach hv hfin hret) hrows

/-! ### Runs along a chain of two -/

/-- The owner next to the gateway has one row. -/
def oneRow : Config ℕ Unit ℕ := chainConfig 2 [1] fun o => if o = 1 then 1 else 0

lemma mem_oneRow {o : ℕ} (h : (oneRow.shard o).matchRows () ≠ []) : o ∈ oneRow.eligible () := by
  by_contra hne
  have ho : o ≠ 1 := fun ho => hne (List.mem_singleton.mpr ho)
  simp [oneRow, chainConfig, Shard.matchRows, ho] at h

/-- What the `j`-th call does, as if it were the only one. -/
def ofCall (j : ℕ) : Act ℕ → Option (ReAct ℕ)
  | .submit a => some (.submit j a)
  | .forward f => some (.forward f)
  | .produce n a => some (.produce n a)
  | .prefetch k a => some (.prefetch j k a)
  | .pull i a => some (.pull i a)
  | .fetch a => some (.fetch a)
  | .cancelQuery => none
  | .cancel _ _ => none

/-- The second `SubmitQuery`, whose forward is the `f`-th. -/
def submittedAgain (f : ℕ) : List (ReAct ℕ) :=
  [.submit 1 .register, .submit 1 .mark, .submit 1 .next, .forward f, .submit 1 .answered,
    .submit 1 .next, .submit 1 .spawn, .submit 1 .spawn]

/-- The query is submitted twice, a forward comes twice, and the prefetchers take turns. -/
def repeated : List (ReAct ℕ) :=
  [.call, .call] ++ (submitted 1).filterMap (ofCall 0) ++ [.again 0 1 8, .forward 1] ++
    submittedAgain 2 ++ (produced 1 1).filterMap (ofCall 0) ++
    [.prefetch 0 0 .start, .prefetch 0 0 .issue] ++ (servedCall 0 10).filterMap (ofCall 0) ++
    [.prefetch 1 0 .start, .prefetch 0 0 .receive] ++ fetched.filterMap (ofCall 0) ++
    [.prefetch 1 0 .issue] ++ (servedCall 1 10).filterMap (ofCall 0) ++
    [.prefetch 1 0 .receive, .prefetch 0 0 .issue] ++
    (nothingProduced ++ fetchedLast).filterMap (ofCall 0)

theorem idempotent_repeated :
    ∃ x, Reach (reStep oneRow ())
        (fun x a => Answered a ∧ Harmless oneRow () x a) (reInit ℕ ℕ) x ∧
      (x.sys.log.map Prod.snd).Perm [0] ∧ NoTrace oneRow x.sys := by
  have hrun : (run (reStep oneRow ())
      (fun x a => Answered a ∧ Harmless oneRow () x a)
      (reInit ℕ ℕ) repeated).map (fun x => (x.sys.finished, decide (AllReturned x))) =
      some (some (1, 1), true) := by decide +kernel
  obtain ⟨x, hs, heq⟩ := Option.map_eq_some_iff.mp hrun
  obtain ⟨hfin, hret⟩ := Prod.mk.inj heq
  have hreach := reach_of_run .init hs
  have hone : ∀ o ∈ oneRow.overlay.dataOwners, o = 1 := fun o ho => List.mem_singleton.mp ho
  have hroute : Routes oneRow.overlay 1 1 0 := ⟨1, by decide, rfl⟩
  obtain ⟨hperm, hno⟩ := idempotent oneRow () (by decide)
    (fun o ho _ => ⟨1, by decide, hone o ho ▸ hroute⟩)
    (fun o ho _ _ _ => by rw [hone o ho]; decide)
    (fun o ho => mem_oneRow ho) x hreach (by simp [hfin])
  exact ⟨x, hreach, hperm, hno (of_decide_eq_true hret)⟩

/-- A forward comes again when everything is over. -/
def late : List (ReAct ℕ) :=
  .call :: served.filterMap (ofCall 0) ++ [.again 0 1 8, .forward 1]

/-- Two prefetchers ask at the same time, and the one that is told that there are no more rows is
heard before the one that has got them. -/
def overlapping : List (ReAct ℕ) :=
  [.call, .call] ++ (submitted 1).filterMap (ofCall 0) ++ submittedAgain 1 ++
    (produced 1 1).filterMap (ofCall 0) ++
    [.prefetch 0 0 .start, .prefetch 0 0 .issue, .prefetch 1 0 .start, .prefetch 1 0 .issue] ++
    (servedCall 0 10 ++ servedCall 1 10).filterMap (ofCall 0) ++ [.prefetch 1 0 .receive] ++
    (nothingProduced ++ fetched).filterMap (ofCall 0) ++
    [.fetch .count, .fetch .erase, .prefetch 0 0 .receive, .prefetch 0 0 .issue, .fetch .finish]

lemma idempotent_mono {G G' : ReSys N Row → ReAct N → Prop} (h : Idempotent c q G)
    (hG : ∀ x a, G' x a → G x a) : Idempotent c q G' := fun hall x hx =>
  h hall x (hx.mono fun x a hg => ⟨hg.1, hG x a hg.2⟩)

/-- **Neither condition can be left out**: a `ForwardQuery` that comes late leaves the request
behind, and two prefetchers at a time lose rows. -/
theorem not_idempotent : ¬ Idempotent oneRow () (fun _ _ => True) ∧
    ¬ Idempotent oneRow () (Fresh oneRow) ∧
    ¬ Idempotent oneRow () (Alone oneRow ()) := by
  have hlate : (run (reStep oneRow ())
      (fun x a => Answered a ∧ Alone oneRow () x a)
      (reInit ℕ ℕ) late).map (fun x => (x.sys.finished, (x.sys.node 1).table,
        decide (AllReturned x))) = some (some (1, 1), some 1, true) := by decide +kernel
  have hover : (run (reStep oneRow ())
      (fun x a => Answered a ∧ Fresh oneRow x a)
      (reInit ℕ ℕ) overlapping).map (fun x => (x.sys.finished, x.sys.log)) =
      some (some (1, 1), []) := by decide +kernel
  have hfresh : ¬ Idempotent oneRow () (Fresh oneRow) := by
    intro h
    obtain ⟨x, hs, heq⟩ := Option.map_eq_some_iff.mp hover
    obtain ⟨hfin, hlog⟩ := Prod.mk.inj heq
    have hperm := (h (fun o ho => mem_oneRow ho) x (reach_of_run .init hs) (by simp [hfin])).1
    rw [hlog] at hperm
    exact absurd hperm (by decide)
  refine ⟨fun h => hfresh (idempotent_mono h fun _ _ _ => trivial), hfresh, fun h => ?_⟩
  obtain ⟨x, hs, heq⟩ := Option.map_eq_some_iff.mp hlate
  simp only [Prod.mk.injEq, decide_eq_true_eq] at heq
  obtain ⟨hfin, htable, hret⟩ := heq
  have hno := (h (fun o ho => mem_oneRow ho) x (reach_of_run .init hs) (by simp [hfin])).2 hret
  have hgone := (hno 1 (.inr (by decide))).1
  rw [htable] at hgone
  cases hgone

end Mini2.Idempotence
