import Mini2.Course
import Mini2.Progress
import Mini2.PyClient

/-!
Where a request stands, when every call is answered: the gateway has it until its stream ends, a
prefetcher returns only when its owner is through or the stream has ended, and every node that has
the request is scheduled to produce for it.
-/

namespace Mini2.Standing

open Mini2.Proto Mini2.Net Mini2.Request Mini2.Producer Mini2.Gather Mini2.GatherSteps
open Mini2.GatherShape Mini2.Runs Mini2.Lane Mini2.Finish Mini2.Forwarded Mini2.Course
open Mini2.ExactlyOnce Mini2.PyClient Mini2.Progress

variable {N Query Row : Type} [DecidableEq N] {c : Config N Query Row} {q : Query}
  {s s' : Sys N Row} {a : Act N}

/-! ### The gateway has the request -/

/-- The gateway has the request, unless it has not been submitted or its stream has ended. -/
def Knows (c : Config N Query Row) (s : Sys N Row) : Prop :=
  s.submit = .idle ∨ s.submit = .failed ∨ (s.node c.gateway).table ≠ none ∨ s.finished ≠ none ∨
    ∃ hit eligible, s.fetch = .joining hit eligible

lemma knows_step (ha : AllAnswered a) (hsh : Shape c q s) (hcancel : s.cancel = [])
    (hst : Steps c q s a s') (h : Knows c s) : Knows c s' := by
  have hsame : s'.submit = s.submit → (s'.node c.gateway).table = (s.node c.gateway).table →
      s'.finished = s.finished → s'.fetch = s.fetch → Knows c s' := by
    intro hsub ht hfin hf
    unfold Knows at h ⊢
    rwa [hsub, ht, hfin, hf]
  cases hst with
  | @submit act _ hst =>
    have hgoes : act ≠ .register → s.submit ≠ .idle ∧ s.submit ≠ .failed := by
      cases hst <;> simp_all
    by_cases hact : act = .register
    · subst hact
      cases hst with
      | register =>
        refine .inr (.inr (.inl ?_))
        show ((s.setNode c.gateway _).node c.gateway).table ≠ none
        rw [setNode_self]
        exact registerRequest_table _ _ _ _
      | refuse => exact .inr (.inl rfl)
      | retry _ _ _ ha => rcases ha with ⟨ha, -⟩ | ha <;> cases ha
      | dead _ _ _ ha => rcases ha with ⟨ha, -⟩ | ha <;> cases ha
    · obtain ⟨hidle, hfailed⟩ := hgoes hact
      have hold := (h.resolve_left hidle).resolve_left hfailed
      cases hst with
      | register => exact absurd rfl hact
      | refuse => exact absurd rfl hact
      | _ => exact .inr (.inr hold)
  | forward hst =>
    cases hst with
    | @register o r ttl hf =>
      have hne := (hsh.threads.fwd _ (List.mem_of_getElem? hf)).2
      exact hsame rfl (congrArg Entry.table (setNode_ne s hne.symm _)) rfl rfl
    | _ => exact hsame rfl rfl rfl rfl
  | @produce n a e hst =>
    refine hsame rfl ?_ rfl rfl
    by_cases hn : c.gateway = n
    · subst hn
      rw [setNode_self]
      exact (prodStep_spec (hsh.entries c.gateway) hst).2.table
    · rw [setNode_ne _ hn]
  | prefetch hst => cases hst <;> exact hsame rfl rfl rfl rfl
  | pull hst =>
    obtain ⟨o, stage, stage', hp, -⟩ := pulls_set hst
    have hne := (hsh.threads.pull _ (List.mem_of_getElem? hp)).2
    have hnode := pulls_node hst hp hne.symm
    refine hsame ?_ (by rw [hnode]) ?_ ?_ <;> rw [pulls_frame hst]
  | fetch hst =>
    -- a stream that has not ended
    have hopen : (∀ hit eligible, s.fetch ≠ .joining hit eligible) → s'.submit = s.submit →
        (s'.node c.gateway).table = (s.node c.gateway).table → s'.finished = s.finished →
        Knows c s' := by
      intro hf hsub ht hfin
      rcases h with h | h | h | h | ⟨hit, eligible, h⟩
      · exact .inl (hsub.trans h)
      · exact .inr (.inl (hsub.trans h))
      · exact .inr (.inr (.inl (ht ▸ h)))
      · exact .inr (.inr (.inr (.inl (hfin ▸ h))))
      · exact absurd h (hf hit eligible)
    cases hst with
    | start hf => exact hopen (by simp [hf]) rfl rfl rfl
    | drain maxRows hf =>
      have htable : ((drainStep c s maxRows).node c.gateway).table =
          (s.node c.gateway).table := by
        unfold drainStep
        simp [Entry.setObj]
      exact hopen (by simp [hf]) rfl htable rfl
    | count hf => exact hopen (by simp [hf]) rfl rfl rfl
    | erase => exact .inr (.inr (.inr (.inr ⟨_, _, rfl⟩)))
    | erased => exact .inr (.inr (.inr (.inl (Option.some_ne_none _))))
    | finish => exact .inr (.inr (.inr (.inl (Option.some_ne_none _))))
  | cancelQuery => exact ha.elim
  | cancel hst => exact absurd hcancel (cancel_ne_nil hst)

lemma knows_of_reach (h : Reach (step c q) (fun _ a => AllAnswered a) (init N Row) s) :
    Knows c s := by
  refine h.invariant (I := Knows c) (.inl rfl) fun s a s' hr hi ha hst => ?_
  have hcancel := cancel_eq_nil (G := fun _ a => AllAnswered a)
    (by rintro _ _ hg rfl; exact hg) hr
  exact knows_step ha (shape_of_reach hr) hcancel (steps_of_step hst) hi

/-! ### Why a prefetcher returns -/

structure Stands (c : Config N Query Row) (q : Query) (s : Sys N Row) : Prop where
  returned : ∀ k o, (c.eligible q)[k]? = some o → s.thread k = .returned →
    s.gate.prefetchDone o = true ∨ s.gate.prefetchStop = true
  stopped : s.gate.prefetchStop = true → Closed s
  joining : ∀ hit eligible, s.fetch = .joining hit eligible → s.gate.prefetchStop = true
  dropping : ∀ p ∈ s.pull, ∀ out, p.stage = .dropping out → (s.node p.owner).table = none
  scheduled : ∀ n, (s.node n).table ≠ none → 0 < (s.node n).scheduled

lemma flags_mono (hnil : s.cancel = []) (hst : Steps c q s a s') :
    (∀ o, s.gate.prefetchDone o = true → s'.gate.prefetchDone o = true) ∧
      (s.gate.prefetchStop = true → s'.gate.prefetchStop = true) := by
  have hset : ∀ o' o, s.gate.prefetchDone o = true →
      Function.update s.gate.prefetchDone o' true o = true := by
    intro o' o h
    by_cases ho : o = o'
    · rw [ho, Function.update_self]
    · rwa [Function.update_of_ne ho]
  cases hst with
  | submit hst => cases hst <;> exact ⟨fun _ => id, id⟩
  | forward hst => cases hst <;> exact ⟨fun _ => id, id⟩
  | produce => exact ⟨fun _ => id, id⟩
  | prefetch hst =>
    cases hst with
    | @receive o _ _ _ isLast =>
      cases isLast with
      | true => exact ⟨hset o, id⟩
      | false => exact ⟨fun _ => id, id⟩
    | @noHop o => exact ⟨hset o, id⟩
    | @refused o => exact ⟨hset o, id⟩
    | @failed o => exact ⟨hset o, id⟩
    | _ => exact ⟨fun _ => id, id⟩
  | pull hst =>
    rw [pulls_frame hst]
    exact ⟨fun _ => id, id⟩
  | fetch hst =>
    cases hst with
    | erase => exact ⟨fun _ => id, fun _ => rfl⟩
    | _ => exact ⟨fun _ => id, id⟩
  | cancelQuery => exact ⟨fun _ => id, id⟩
  | cancel hst => exact absurd hnil (cancel_ne_nil hst)

lemma reason_of_issue {k : ℕ} {o : N} (h : prefetchStep c q s k .issue = some s')
    (hk : (c.eligible q)[k]? = some o) (ht : s'.thread k = .returned) :
    s.gate.prefetchStop = true ∨ (s.self c).cancelled = true ∨ s.gate.prefetchDone o = true := by
  unfold prefetchStep at h
  rw [hk] at h
  dsimp only at h
  split at h
  next heq => cases heq
  next =>
    split at h
    next hstop => exact hstop.imp_right .inl
    next =>
      split at h
      next =>
        split at h
        next hd => exact .inr (.inr hd)
        next =>
          split at h
          next => cases h
          next =>
            obtain rfl := Option.some.inj h
            rw [show (_ : Sys N Row).thread k = .pulling s.pull.length from
              setThread_self s k _] at ht
            cases ht
      next => cases h
  next heq => cases heq
  next heq => cases heq
  next => cases h

lemma returned_step (h : Stands c q s) (hnil : s.cancel = []) (hself : (s.self c).cancelled = false)
    (hst : step c q s a = some s') {k : ℕ} {o : N} (hk : (c.eligible q)[k]? = some o)
    (ht : s'.thread k = .returned) :
    s'.gate.prefetchDone o = true ∨ s'.gate.prefetchStop = true := by
  have hcases := steps_of_step hst
  obtain ⟨hdone, hstop⟩ := flags_mono hnil hcases
  have hold : s'.thread k = s.thread k →
      s'.gate.prefetchDone o = true ∨ s'.gate.prefetchStop = true := fun heq =>
    (h.returned k o hk (heq ▸ ht)).imp (hdone o) hstop
  cases hcases with
  | submit hcases =>
    cases hcases with
    | @spawn k' =>
      by_cases hkk : k = k'
      · subst hkk
        rw [show (_ : Sys N Row).thread k = .starting from setThread_self s k _] at ht
        cases ht
      · exact hold (setThread_ne s hkk _)
    | _ => exact hold rfl
  | forward hcases => cases hcases <;> exact hold rfl
  | produce => exact hold rfl
  | @prefetch k' act _ hcases =>
    by_cases hkk : k = k'
    · subst hkk
      -- the prefetcher itself has moved on
      have hfail : ∀ {o' : N}, (c.eligible q)[k]? = some o' →
          (s.failThread k o').gate.prefetchDone o = true := by
        intro o' hk'
        obtain rfl : o' = o := Option.some.inj (hk'.symm.trans hk)
        exact Function.update_self ..
      have hgoes : ∀ {pc : ThreadPc}, (s.setThread k pc).thread k = .returned → pc = .returned :=
        fun ht => (setThread_self s k _).symm.trans ht
      cases hcases with
      | start => cases hgoes ht
      | noHop hk' => exact .inl (hfail hk')
      | stop =>
        rcases reason_of_issue hst hk ht with hs | hs | hs
        · exact .inr hs
        · rw [hself] at hs
          cases hs
        · exact .inl hs
      | issue => cases hgoes ht
      | @receive o' _ _ _ isLast hk' =>
        obtain rfl : o' = o := Option.some.inj (hk'.symm.trans hk)
        cases isLast with
        | true => exact .inl (Function.update_self ..)
        | false => cases hgoes ht
      | expired => cases hgoes ht
      | refused hk' => exact .inl (hfail hk')
      | timeout => cases hgoes ht
      | failed hk' => exact .inl (hfail hk')
    · refine hold ?_
      cases hcases <;> exact setThread_ne s hkk _
  | pull hcases => exact hold (by rw [pulls_frame hcases])
  | fetch hcases => cases hcases <;> exact hold rfl
  | cancelQuery => exact hold rfl
  | cancel hcases => exact absurd hnil (cancel_ne_nil hcases)

lemma closed_mono (hend : Ended c s) (hst : Steps c q s a s') (h : Closed s) : Closed s' := by
  obtain ⟨-, hkeep, hopen⟩ := closed_or_open hend hst
  exact hkeep (fun maxRows ha => hopen maxRows ha h) h

lemma stopped_step (h : Stands c q s) (hend : Ended c s) (hnil : s.cancel = [])
    (hst : Steps c q s a s') :
    (s'.gate.prefetchStop = true → Closed s') ∧
      ∀ hit eligible, s'.fetch = .joining hit eligible → s'.gate.prefetchStop = true := by
  have hold : s'.gate.prefetchStop = s.gate.prefetchStop →
      (∀ hit eligible, s'.fetch = .joining hit eligible → s.fetch = .joining hit eligible) →
      (s'.gate.prefetchStop = true → Closed s') ∧
        ∀ hit eligible, s'.fetch = .joining hit eligible → s'.gate.prefetchStop = true := by
    intro hs hf
    rw [hs]
    exact ⟨fun hstop => closed_mono hend hst (h.stopped hstop), fun hit eligible hj =>
      h.joining hit eligible (hf hit eligible hj)⟩
  cases hst with
  | submit hst => cases hst <;> exact hold rfl fun _ _ => id
  | forward hst => cases hst <;> exact hold rfl fun _ _ => id
  | produce => exact hold rfl fun _ _ => id
  | prefetch hst => cases hst <;> exact hold rfl fun _ _ => id
  | pull hst =>
    refine hold ?_ ?_ <;> rw [pulls_frame hst]
    exact fun _ _ => id
  | fetch hst =>
    cases hst with
    | start => exact hold rfl nofun
    | drain =>
      refine hold rfl fun hit eligible hj => ?_
      dsimp only at hj
      split at hj <;> cases hj
    | count => exact hold rfl nofun
    | erase => exact ⟨fun _ => .inr ⟨by simp, by simp⟩,
        fun _ _ _ => rfl⟩
    | erased => exact hold rfl nofun
    | finish => exact hold rfl nofun
  | cancelQuery => exact hold rfl fun _ _ => id
  | cancel hst => exact absurd hnil (cancel_ne_nil hst)

/-! ### Who is scheduled -/

lemma unregistered (htold : Told c q s) (hpend : Pending s) (hpull : s.pull ≠ []) {f : ℕ} {n : N}
    {r : Bool} {ttl : ℕ} : s.fwd[f]? ≠ some ⟨n, r, .at n ttl⟩ := by
  intro hf
  obtain ⟨k, attempt, hs⟩ := hpend f _ n ttl hf rfl
  exact hpull (htold.quiet (by rw [hs]; rfl))

lemma dropping_step (h : Stands c q s) (hsh : Shape c q s) (htold : Told c q s)
    (hpend : Pending s) (hst : Steps c q s a s') :
    ∀ p ∈ s'.pull, ∀ out, p.stage = .dropping out → (s'.node p.owner).table = none := by
  have hold : ∀ p ∈ s.pull, ∀ out, p.stage = .dropping out →
      (s'.node p.owner).table = none := by
    intro p hp out hstage
    have hpull : s.pull ≠ [] := List.ne_nil_of_mem hp
    exact table_eq_none hst hsh.entries (fun _ => (hsh.threads.pull p hp).2)
      (fun f _ r ttl => unregistered htold hpend hpull) (h.dropping p hp out hstage)
  cases hst with
  | submit hst => cases hst <;> exact hold
  | forward hst => cases hst <;> exact hold
  | produce => exact hold
  | prefetch hst =>
    cases hst with
    | issue =>
      intro p hp out hstage
      rcases List.mem_append.mp hp with hp | hp
      · exact hold p hp out hstage
      · obtain rfl := List.mem_singleton.mp hp
        cases hstage
    | _ => exact hold
  | @pull i act _ hst =>
    have hset : ∀ {o : N} {stage' : PullStage N Row}, s'.pull = s.pull.set i ⟨o, stage'⟩ →
        (∀ out, stage' = .dropping out → (s'.node o).table = none) →
        ∀ p ∈ s'.pull, ∀ out, p.stage = .dropping out → (s'.node p.owner).table = none := by
      intro o stage' hset hnew p hp out hstage
      rw [hset] at hp
      rcases List.mem_or_eq_of_mem_set hp with hp | rfl
      · exact hold p hp out hstage
      · exact hnew out hstage
    cases hst with
    | @erase o =>
      refine hset rfl fun _ _ => ?_
      show ((s.setNode o _).node o).table = none
      rw [setNode_self]
      rfl
    | _ => exact hset rfl nofun
  | fetch hst => cases hst <;> exact hold
  | cancelQuery => exact hold
  | cancel hst =>
    rw [cancels_frame hst] at hold ⊢
    exact hold

lemma scheduled_step (h : Stands c q s) (hsh : Shape c q s) (hnil : s.cancel = [])
    (hst : Steps c q s a s') (n : N) (ht : (s'.node n).table ≠ none) :
    0 < (s'.node n).scheduled := by
  have hset : ∀ {m : N} {e : Entry Row}, s'.node = Function.update s.node m e →
      (e.table ≠ none → 0 < e.scheduled) → 0 < (s'.node n).scheduled := by
    intro m e hnode he
    rw [hnode] at ht ⊢
    by_cases hn : n = m
    · subst hn
      rw [Function.update_self] at ht ⊢
      exact he ht
    · rw [Function.update_of_ne hn] at ht ⊢
      exact h.scheduled n ht
  have hold : s'.node = s.node → 0 < (s'.node n).scheduled := by
    intro hnode
    rw [hnode] at ht ⊢
    exact h.scheduled n ht
  have hregister : ∀ m, (registerRequest (c.shard m) q 1 (s.node m)).table ≠ none →
      0 < (registerRequest (c.shard m) q 1 (s.node m)).scheduled := by
    intro m _
    unfold registerRequest
    split
    next g hm => exact h.scheduled m (by simp [hm])
    next => exact Nat.succ_pos _
  cases hst with
  | submit hst =>
    cases hst with
    | register => exact hset rfl (hregister c.gateway)
    | _ => exact hold rfl
  | forward hst =>
    cases hst with
    | @register o => exact hset rfl (hregister o)
    | _ => exact hold rfl
  | @produce m act e' hst =>
    obtain ⟨-, hmakes⟩ := prodStep_spec (hsh.entries m) hst
    refine hset rfl fun he => ?_
    rw [hmakes.scheduled]
    exact h.scheduled m (hmakes.table ▸ he)
  | prefetch hst => cases hst <;> exact hold rfl
  | pull hst =>
    cases hst with
    | @pop o => exact hset rfl fun he => h.scheduled o he
    | last => exact hset rfl fun he => absurd rfl he
    | erase => exact hset rfl fun he => absurd rfl he
    | @unschedule o out hp =>
      have hnone := h.dropping _ (List.mem_of_getElem? hp) out rfl
      exact hset rfl fun he => absurd hnone he
    | _ => exact hold rfl
  | fetch hst =>
    cases hst with
    | drain => exact hset rfl fun he => h.scheduled c.gateway he
    | erase => exact hset rfl fun he => absurd rfl he
    | erased => exact hset rfl fun he => absurd rfl he
    | _ => exact hold rfl
  | cancelQuery => exact hold rfl
  | cancel hst => exact absurd hnil (cancel_ne_nil hst)

theorem stands_of_reach (h : Reach (step c q) (fun _ a => AllAnswered a) (init N Row) s) :
    Stands c q s := by
  refine h.invariant ⟨fun k o _ ht => ?_, fun hs => ?_, fun hit eligible hj => ?_, fun p hp => ?_,
    fun n hn => ?_⟩ fun s a s' hr hi _ hst => ?_
  · cases ht
  · cases hs
  · cases hj
  · cases hp
  · exact absurd rfl hn
  · have hnil : s.cancel = [] := cancel_eq_nil (notCancelled fun _ _ => id) hr
    have hself := uncancelled_of_reach (notCancelled fun _ _ => id) hr c.gateway 0
    have hfw : ∀ (s : Sys N Row) (a : Act N), AllAnswered a → ForwardsAnswered a :=
      fun _ _ ha => ha.forwardsAnswered
    have hsh := shape_of_reach hr
    have hcases := steps_of_step hst
    obtain ⟨hstop, hjoin⟩ := stopped_step hi (ended_of_reach hr) hnil hcases
    exact
      { returned := fun k o hk => returned_step hi hnil hself hst hk
        stopped := hstop
        joining := hjoin
        dropping := dropping_step hi hsh (told_of_reach hfw hr) (pending_of_reach hfw hr) hcases
        scheduled := scheduled_step hi hsh hnil hcases }

end Mini2.Standing
