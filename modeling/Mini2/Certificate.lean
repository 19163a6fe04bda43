import Mini2.Delivery

/-!
What `owners_hit` and `owners_eligible` certify when they agree. `owners_responded` holds the
owners that have answered at least once, so an owner can be in it and fail afterwards.
-/

namespace Mini2.Certificate

open Mini2.Proto Mini2.Net Mini2.Request Mini2.Gather Mini2.GatherSteps Mini2.GatherShape
open Mini2.RoundRobin Mini2.Runs Mini2.Lane Mini2.SelfLane Mini2.Finish Mini2.Delivery

variable {N Query Row : Type}

def Answered (pull : List (PullCall N Row)) (o : N) : Prop :=
  ∃ (i : ℕ) (out : List Row) (isLast : Bool), pull[i]? = some ⟨o, .replied .ok out isLast⟩

lemma Answered.append {pull : List (PullCall N Row)} {o : N} (h : Answered pull o)
    (p : PullCall N Row) : Answered (pull ++ [p]) o := by
  obtain ⟨i, out, isLast, hi⟩ := h
  refine ⟨i, out, isLast, ?_⟩
  rw [List.getElem?_append_left (List.getElem?_eq_some_iff.mp hi).1, hi]

lemma Answered.set {pull : List (PullCall N Row)} {o o' : N} (h : Answered pull o) {i : ℕ}
    {stage : PullStage N Row} (hi : pull[i]? = some ⟨o', stage⟩)
    (hs : ∀ code out isLast, stage ≠ .replied code out isLast) (p : PullCall N Row) :
    Answered (pull.set i p) o := by
  obtain ⟨j, out, isLast, hj⟩ := h
  refine ⟨j, out, isLast, ?_⟩
  have hij : i ≠ j := by
    rintro rfl
    have := congrArg PullCall.stage (Option.some.inj (hi.symm.trans hj))
    exact hs _ _ _ this
  rw [List.getElem?_set_ne hij, hj]

variable [DecidableEq N] {c : Config N Query Row} {q : Query} {s s' : Sys N Row} {a : Act N}

lemma answered_step (hst : Steps c q s a s') {o : N} (h : Answered s.pull o) :
    Answered s'.pull o := by
  cases hst with
  | submit hst => cases hst <;> exact h
  | forward hst => cases hst <;> exact h
  | produce => exact h
  | prefetch hst =>
    cases hst with
    | issue => exact h.append _
    | _ => exact h
  | pull hst =>
    obtain ⟨o', stage, stage', hp, hs, hset⟩ := pulls_set hst
    rw [hset]
    exact h.set hp hs _
  | fetch hst => cases hst <;> exact h
  | cancelQuery => exact h
  | cancel hst =>
    rw [cancels_frame hst]
    exact h

/-- The owners counted as hit have answered, or are the gateway. -/
def HitsAnswered (c : Config N Query Row) (s : Sys N Row) : Prop :=
  ∀ o ∈ s.gate.ownersResponded, o = c.gateway ∨ Answered s.pull o

lemma hitsAnswered_step (hsh : Threads c q s) (h : HitsAnswered c s) (hst : Steps c q s a s') :
    HitsAnswered c s' := by
  have hold : s'.gate.ownersResponded = s.gate.ownersResponded → HitsAnswered c s' :=
    fun heq o ho => (h o (heq ▸ ho)).imp_right (answered_step hst)
  have hst' := hst
  cases hst with
  | submit hst =>
    cases hst with
    | mark =>
      intro o ho
      simp only [Sys.marked] at ho
      split at ho
      · rcases Finset.mem_insert.mp ho with rfl | ho
        · exact .inl rfl
        · exact (h o ho).imp_right (answered_step hst')
      · exact (h o ho).imp_right (answered_step hst')
    | _ => exact hold rfl
  | forward hst => cases hst <;> exact hold rfl
  | produce => exact hold rfl
  | prefetch hst =>
    cases hst with
    | @receive o o' i out isLast hk ht hp =>
      intro o'' ho
      rcases Finset.mem_insert.mp ho with rfl | ho
      · -- the answer the prefetcher has got
        obtain ⟨o₁, stage, hk', hp'⟩ := hsh.pulling _ i ht
        obtain rfl : o'' = o₁ := Option.some.inj (hk.symm.trans hk')
        obtain rfl : o' = o'' := congrArg PullCall.owner (Option.some.inj (hp.symm.trans hp'))
        exact .inr ⟨i, out, isLast, hp⟩
      · exact (h o'' ho).imp_right (answered_step hst')
    | _ => exact hold rfl
  | pull hst => exact hold (by rw [pulls_frame hst])
  | fetch hst => cases hst <;> exact hold rfl
  | cancelQuery => exact hold rfl
  | cancel hst => exact hold (by rw [cancels_frame hst])

lemma hitsAnswered_of_reach {G : Sys N Row → Act N → Prop}
    (h : Reach (step c q) G (init N Row) s) : HitsAnswered c s := by
  refine h.invariant (I := HitsAnswered c) ?_ fun s a s' hr hi _ hst =>
    hitsAnswered_step (shape_of_reach hr).threads hi (steps_of_step hst)
  intro o ho
  exact absurd ho (Finset.notMem_empty o)

/-- When the counts agree, every row of every eligible owner has been delivered. -/
def CountsCertify (c : Config N Query Row) (q : Query) : Prop :=
  ∀ s, Reach (step c q) (fun _ a => a ≠ .cancelQuery) (init N Row) s →
    ∀ n, s.finished = some (n, n) → ∀ o ∈ c.eligible q, Delivered c q s o

/-- **Counts that agree certify that every eligible owner has answered**, and for the owners
whose calls fail by their deadline only and lose no rows that the answer is complete. -/
theorem countsAgree (c : Config N Query Row) (q : Query) {s : Sys N Row}
    (h : Reach (step c q) (fun _ a => a ≠ .cancelQuery) (init N Row) s) {n : ℕ}
    (hf : s.finished = some (n, n)) :
    (∀ o ∈ c.eligible q, o = c.gateway ∨ Answered s.pull o) ∧
    ∀ o ∈ c.eligible q,
      (o = c.gateway ∨ Reach (step c q) (fun s a => a ≠ .cancelQuery ∧ KeepsRows c q o s a)
        (init N Row) s) → Delivered c q s o := by
  have hclosing := closing_of_reach h
  have hc : Closed s := .inl (by simp [hf])
  obtain ⟨hall, hnodup⟩ := hclosing.count n (.inr (.inr hf))
  refine ⟨fun o ho => ?_, fun o ho hgood => ?_⟩
  · by_cases hg : o = c.gateway
    · exact .inl hg
    · exact hitsAnswered_of_reach h o (hall o ho hg)
  · by_cases hg : o = c.gateway
    · exact hg ▸ delivered_self (fun _ _ ha => ha) h hc (hg ▸ ho)
    · have hgood := hgood.resolve_left hg
      obtain ⟨k, hk⟩ := List.getElem?_of_mem ho
      have hl : IsLane c q o k := ⟨hnodup.resolve_right fun hself => hg (hself o ho), hk, hg⟩
      have hs : Sound c q o False (lane o k s) :=
        sound_of_reach hl (fun hF => hF.elim) (fun _ _ ha => ha.1) (fun _ _ _ ha => ha.2)
          (fun hF => hF.elim) (fun hF => hF.elim) hgood
      exact delivered_of_sound hl hs hclosing hc (.inr (hall o ho hg))

/-- A call fails by its deadline before the owner has made a row. -/
def slowOwner : List (Act ℕ) :=
  submitted 1 ++ [.prefetch 0 .start, .prefetch 0 .issue, .prefetch 0 (.failed .deadlineExceeded),
    .prefetch 0 .issue] ++ servedCall 0 10 ++ produced 1 2 ++ servedCall 1 10 ++
    [.prefetch 0 .receive] ++ fetched ++ [.prefetch 0 .issue] ++ servedCall 2 10 ++
    [.prefetch 0 .receive] ++ nothingProduced ++ fetchedLast

theorem countsAgree_slowOwner :
    ∃ s, Reach (step twoRows ()) (fun _ a => a ≠ .cancelQuery) (init ℕ ℕ) s ∧
      s.finished = some (1, 1) ∧ (∀ o ∈ twoRows.eligible (), o = 0 ∨ Answered s.pull o) ∧
      Delivered twoRows () s 1 := by
  have hrun : (run (step twoRows ()) (fun s a => a ≠ .cancelQuery ∧ KeepsRows twoRows () 1 s a)
      (init ℕ ℕ) slowOwner).map (fun s => s.finished) = some (some (1, 1)) := by decide +kernel
  obtain ⟨s, hs, hfin⟩ := Option.map_eq_some_iff.mp hrun
  have hgood := reach_of_run .init hs
  have hreach : Reach (step twoRows ()) (fun _ a => a ≠ .cancelQuery) (init ℕ ℕ) s :=
    hgood.mono fun _ _ ha => ha.1
  obtain ⟨hanswered, hdel⟩ := countsAgree twoRows () hreach hfin
  exact ⟨s, hreach, hfin, hanswered, hdel 1 (by decide) (.inr hgood)⟩

/-- The owner answers one call with a row, and the next call fails. -/
def diesMidstream : List (Act ℕ) :=
  submitted 1 ++ produced 1 2 ++ [.prefetch 0 .start, .prefetch 0 .issue] ++ servedCall 0 1 ++
    [.prefetch 0 .receive] ++ fetched ++
    [.prefetch 0 .issue, .prefetch 0 (.failed .unavailable)] ++ nothingProduced ++ fetchedLast

/-- **An owner that fails after its first answer** still counts as hit, and its other rows are
missing. -/
theorem not_countsCertify_diesMidstream : ¬ CountsCertify twoRows () := by
  intro h
  have hrun : (run (step twoRows ()) (fun _ a => a ≠ .cancelQuery) (init ℕ ℕ) diesMidstream).map
      (fun s => (s.finished, itemsOf s.log 1)) = some (some (1, 1), [0]) := by decide +kernel
  obtain ⟨s, hs, heq⟩ := Option.map_eq_some_iff.mp hrun
  obtain ⟨hfin, hlog⟩ := Prod.mk.inj heq
  have hlen := (h s (reach_of_run .init hs) 1 hfin 1 (by decide)).length_le
  rw [hlog] at hlen
  revert hlen
  decide

end Mini2.Certificate
