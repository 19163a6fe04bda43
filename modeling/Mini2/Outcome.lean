import Mini2.ExactlyOnce

/-!
What becomes of an owner when every call is answered. One that is near is asked until its rows
are over and has dropped the request then; but an owner without rows answers that it does not
know the request, and is taken to be done while it still has it.
-/

namespace Mini2.Outcome

open Mini2.Proto Mini2.Net Mini2.Request Mini2.Producer Mini2.Gather Mini2.GatherSteps
open Mini2.GatherShape Mini2.RoundRobin Mini2.Runs Mini2.Finish Mini2.Forwarded
open Mini2.ExactlyOnce

variable {N Query Row : Type} [DecidableEq N]

/-- The owner has rows to serve a call from, of whatever query. -/
def Serves (c : Config N Query Row) (o : N) : Prop :=
  serves (c.overlay.impl o) (c.shard o) = true

instance (c : Config N Query Row) (o : N) : Decidable (Serves c o) :=
  inferInstanceAs (Decidable (_ = _))

/-- What a call says of its owner's entry `e`. -/
def CallOk (c : Config N Query Row) (o : N) (e : Entry Row) : PullStage N Row → Prop
  | .at n => Near c o → Leads c.overlay o n
  | .found _ => 0 < e.gens ∧ Serves c o
  | .popped _ _ => 0 < e.gens ∧ Serves c o
  | .loaded _ _ _ => 0 < e.gens ∧ Serves c o
  | .decided _ _ _ => 0 < e.gens ∧ Serves c o
  | .dropping _ => 0 < e.gens ∧ Serves c o ∧ e.table = none
  | .replied code _ isLast => (code = .ok → 0 < e.gens ∧ Serves c o) ∧
      (code ≠ .ok → Near c o → Serves c o → e.table = none) ∧ (isLast = true → e.table = none)

/-- The owner has been registered, and has dropped the request again if it has rows. -/
def Over (c : Config N Query Row) (o : N) (e : Entry Row) : Prop :=
  0 < e.gens ∧ (Serves c o → e.table = none)

structure Fate (c : Config N Query Row) (q : Query) (o : N) (s : Sys N Row) : Prop where
  calls : ∀ p ∈ s.pull, p.owner = o → CallOk c o (s.node o) p.stage
  responded : o ∈ s.gate.ownersResponded → 0 < (s.node o).gens ∧ Serves c o
  kept : ¬ Serves c o → 0 < (s.node o).gens → (s.node o).table ≠ none
  prefetchDone : s.gate.prefetchDone o = true →
    s.submit.early = false ∧ (Near c o → Over c o (s.node o))
  done : o ∈ c.eligible q → s.gate.clientProducersDone o = true → Near c o →
    s.submit.early = false ∧ Over c o (s.node o)

variable {c : Config N Query Row} {q : Query} {s s' : Sys N Row} {a : Act N} {o : N}
  {e e' : Entry Row} {stage stage' : PullStage N Row}

lemma leads_of_near {hop : N} (hne : o ≠ c.gateway) (hn : c.overlay.nextHop c.gateway o = .ok hop)
    (h : Near c o) : Leads c.overlay o hop := by
  obtain ⟨j, -, hroute⟩ := h
  cases j with
  | zero => exact absurd hroute.symm hne
  | succ j =>
    obtain ⟨nh, htoward, hroute⟩ := hroute
    obtain rfl : nh = hop := Except.ok.inj ((toward_hop_iff.mp htoward).2.1.symm.trans hn)
    exact ⟨j, hroute⟩

lemma CallOk.mono (h : CallOk c o e stage) (hg : e.gens ≤ e'.gens)
    (ht : e.table = none → e'.table = none) : CallOk c o e' stage := by
  cases stage with
  | «at» n => exact h
  | found g => exact ⟨h.1.trans_le hg, h.2⟩
  | popped g out => exact ⟨h.1.trans_le hg, h.2⟩
  | loaded g out d => exact ⟨h.1.trans_le hg, h.2⟩
  | decided g out isLast => exact ⟨h.1.trans_le hg, h.2⟩
  | dropping out => exact ⟨h.1.trans_le hg, h.2.1, ht h.2.2⟩
  | replied code out isLast =>
    exact ⟨fun hc => ⟨(h.1 hc).1.trans_le hg, (h.1 hc).2⟩,
      fun hc hn hs => ht (h.2.1 hc hn hs), fun hl => ht (h.2.2 hl)⟩

lemma Over.mono (h : Over c o e) (hg : e.gens ≤ e'.gens) (ht : e.table = none → e'.table = none) :
    Over c o e' :=
  ⟨h.1.trans_le hg, fun hs => ht (h.2 hs)⟩

/-! ### The calls -/

lemma calls_setPull {i : ℕ} {o' : N} (hpull : s'.pull = s.pull.set i ⟨o', stage'⟩)
    (hold : ∀ p ∈ s.pull, p.owner = o → CallOk c o e' p.stage)
    (hnew : o' = o → CallOk c o e' stage') :
    ∀ p ∈ s'.pull, p.owner = o → CallOk c o e' p.stage := by
  intro p hp ho
  rw [hpull] at hp
  rcases List.mem_or_eq_of_mem_set hp with hp | rfl
  · exact hold p hp ho
  · exact hnew ho

lemma calls_step (hne : o ≠ c.gateway) (hg : (s.node o).gens ≤ (s'.node o).gens)
    (ht : s.pull ≠ [] → (s.node o).table = none → (s'.node o).table = none)
    (hok : EntryOk (c.shard o) q (s.node o)) (hst : Steps c q s a s') (h : Fate c q o s) :
    ∀ p ∈ s'.pull, p.owner = o → CallOk c o (s'.node o) p.stage := by
  have hold : ∀ p ∈ s.pull, p.owner = o → CallOk c o (s'.node o) p.stage := fun p hp ho =>
    (h.calls p hp ho).mono hg (ht (List.ne_nil_of_mem hp))
  have hcall : ∀ {i : ℕ} {stage : PullStage N Row}, s.pull[i]? = some ⟨o, stage⟩ →
      CallOk c o (s'.node o) stage := fun hp => hold _ (List.mem_of_getElem? hp) rfl
  cases hst with
  | submit hst => cases hst <;> exact hold
  | forward hst => cases hst <;> exact hold
  | produce => exact hold
  | prefetch hst =>
    cases hst with
    | @issue o' hop _ _ _ _ hn =>
      intro p hp ho
      rcases List.mem_append.mp hp with hp | hp
      · exact hold p hp ho
      · obtain rfl := List.mem_singleton.mp hp
        obtain rfl : o' = o := ho
        exact leads_of_near hne hn
    | _ => exact hold
  | pull hst =>
    cases hst with
    | relay hp hn =>
      refine calls_setPull rfl hold fun ho hnear => ?_
      subst ho
      exact (leads_hop_iff hn).mp (hcall hp hnear)
    | noRoute hp hh hn hc =>
      refine calls_setPull rfl hold fun ho => ?_
      subst ho
      refine ⟨fun hc' => absurd hc' hc, fun _ hnear _ => ?_, nofun⟩
      exact absurd (hcall hp hnear) (not_leads hh hn)
    | missing hp hm =>
      refine calls_setPull rfl hold fun ho => ?_
      subst ho
      refine ⟨nofun, fun _ _ hs => hm.resolve_right fun hn => ?_, nofun⟩
      rw [Serves, hn] at hs
      cases hs
    | @found o' g hp htab hs =>
      refine calls_setPull rfl hold fun ho => ?_
      subst ho
      have hgen := hok.table g htab
      have hpos : 0 < (s.node o').gens := by omega
      exact ⟨hpos, hs⟩
    | pop hp =>
      refine calls_setPull rfl hold fun ho => ?_
      subst ho
      have hserved := hcall hp
      exact hserved
    | load hp =>
      refine calls_setPull rfl hold fun ho => ?_
      subst ho
      have hserved := hcall hp
      exact hserved
    | decide hp =>
      refine calls_setPull rfl hold fun ho => ?_
      subst ho
      have hserved := hcall hp
      exact hserved
    | more hp =>
      refine calls_setPull rfl hold fun ho => ?_
      subst ho
      exact ⟨fun _ => hcall hp, fun hc => absurd rfl hc, nofun⟩
    | @last o' g out hp =>
      refine calls_setPull rfl hold fun ho => ?_
      subst ho
      have htab : ((s.setNode o' (dropRequest (s.node o'))).node o').table = none := by
        rw [setNode_self]
        rfl
      exact ⟨fun _ => hcall hp, fun hc => absurd rfl hc, fun _ => htab⟩
    | @erase o' g out hp =>
      refine calls_setPull rfl hold fun ho => ?_
      subst ho
      have htab : ((s.setNode o' (s.node o').erase).node o').table = none := by
        rw [setNode_self]
        rfl
      have hserved : 0 < _ ∧ Serves c o' := hcall hp
      exact ⟨hserved.1, hserved.2, htab⟩
    | unschedule hp =>
      refine calls_setPull rfl hold fun ho => ?_
      subst ho
      obtain ⟨hpos, hs, htab⟩ := hcall hp
      exact ⟨fun _ => ⟨hpos, hs⟩, fun hc => absurd rfl hc, fun _ => htab⟩
  | fetch hst => cases hst <;> exact hold
  | cancelQuery => exact hold
  | cancel hst =>
    have hframe := cancels_frame hst
    have hpull : s'.pull = s.pull := by rw [hframe]
    rwa [hpull]

/-! ### The entry -/

/-- A request that has been registered stays, where there are no rows to serve. -/
lemma kept_step (hne : o ≠ c.gateway) (hnil : s.cancel = []) (hsh : Shape c q s)
    (hst : Steps c q s a s') (h : Fate c q o s) (hs : ¬ Serves c o)
    (hpos : 0 < (s'.node o).gens) : (s'.node o).table ≠ none := by
  have hold : s'.node o = s.node o → (s'.node o).table ≠ none := by
    intro hnode
    rw [hnode] at hpos ⊢
    exact h.kept hs hpos
  cases hst with
  | submit hst =>
    cases hst with
    | register => exact hold (setNode_ne s hne _)
    | _ => exact hold rfl
  | forward hst =>
    cases hst with
    | @register o' =>
      by_cases ho : o = o'
      · subst ho
        have hreg := registerRequest_table (c.shard o) q 1 (s.node o)
        simpa [Sys.setFwd] using hreg
      · exact hold (setNode_ne s ho _)
    | _ => exact hold rfl
  | @produce n act e' hst =>
    by_cases hn : o = n
    · subst hn
      have hmakes := (prodStep_spec (hsh.entries o) hst).2
      rw [setNode_self] at hpos ⊢
      rw [hmakes.gens] at hpos
      rw [hmakes.table]
      exact h.kept hs hpos
    · exact hold (setNode_ne s hn _)
  | prefetch hst => cases hst <;> exact hold rfl
  | pull hst =>
    -- a call that has got as far as the rows is one of an owner that serves
    have hserved : ∀ {i : ℕ} {o' : N} {stage : PullStage N Row}, s.pull[i]? = some ⟨o', stage⟩ →
        (CallOk c o' (s.node o') stage → Serves c o') → o ≠ o' := by
      rintro i o' stage hp hcall rfl
      exact hs (hcall (h.calls _ (List.mem_of_getElem? hp) rfl))
    cases hst with
    | pop hp => exact hold (setNode_ne s (hserved hp And.right) _)
    | last hp => exact hold (setNode_ne s (hserved hp And.right) _)
    | erase hp => exact hold (setNode_ne s (hserved hp And.right) _)
    | unschedule hp => exact hold (setNode_ne s (hserved hp fun hc => hc.2.1) _)
    | _ => exact hold rfl
  | fetch hst =>
    cases hst with
    | drain => exact hold (setNode_ne s hne _)
    | erase => exact hold (setNode_ne s hne _)
    | erased => exact hold (setNode_ne s hne _)
    | _ => exact hold rfl
  | cancelQuery => exact hold rfl
  | cancel hst => exact absurd hnil (cancel_ne_nil hst)

/-! ### The flags of the gateway -/

omit [DecidableEq N] in
lemma spawned_of_thread {k : ℕ} (hsh : Threads c q s) (ht : s.thread k ≠ .absent) :
    s.submit.early = false := by
  by_contra he
  exact ht (hsh.absent (Bool.eq_true_of_not_eq_false he) k)

lemma late_step (hst : Steps c q s a s') (he : s.submit.early = false) :
    s'.submit.early = false := by
  by_cases ha : ∃ act, a = .submit act
  · obtain ⟨act, rfl⟩ := ha
    have hpc : ∀ {pc}, s.submit = pc → pc.early = true → s'.submit.early = false := by
      intro pc hs hpc
      rw [hs, hpc] at he
      cases he
    cases hst with
    | submit hst =>
      cases hst with
      | spawnEnd => rfl
      | skip => rfl
      | spawn => rfl
      | register hs => exact hpc hs rfl
      | refuse hs => exact hpc hs rfl
      | mark hs => exact hpc hs rfl
      | loopEnd hs => exact hpc hs rfl
      | itself hs => exact hpc hs rfl
      | throws hs => exact hpc hs rfl
      | call hs => exact hpc hs rfl
      | delivered hs => exact hpc hs rfl
      | retry hs => exact hpc hs rfl
      | dead hs => exact hpc hs rfl
      | relayFailed hs => exact hpc hs rfl
  · rw [submit_eq hst fun act ha' => ha ⟨act, ha'⟩]
    exact he

/-- What a prefetcher that gives its owner up, or gets the last chunk, leaves behind. -/
lemma over_of_thread {k : ℕ} (hsh : Threads c q s) (htold : Told c q s)
    (hk : (c.eligible q)[k]? = some o) (hne : o ≠ c.gateway) (ht : s.thread k ≠ .absent)
    (hover : Near c o → Serves c o → (s.node o).table = none) :
    s.submit.early = false ∧ (Near c o → Over c o (s.node o)) :=
  ⟨spawned_of_thread hsh ht, fun hn => ⟨registered_of_thread hsh htold hk hne ht hn, hover hn⟩⟩

lemma flags_prefetch {k : ℕ} {act : PrefetchAct} (hne : o ≠ c.gateway)
    (ha : AllAnswered (.prefetch k act : Act N)) (hsh : Threads c q s) (htold : Told c q s)
    (hst : Prefetches c q s k act s') (h : Fate c q o s) :
    (s'.gate.prefetchDone o = true →
      s.submit.early = false ∧ (Near c o → Over c o (s.node o))) ∧
    (s'.gate.clientProducersDone o = true → s.gate.clientProducersDone o = true ∨
      s.submit.early = false ∧ (Near c o → Over c o (s.node o))) := by
  -- the prefetcher of owner `o'` gives it up
  have hfail : ∀ {o' : N}, (c.eligible q)[k]? = some o' → s.thread k ≠ .absent →
      (o' = o → Near c o → Serves c o → (s.node o).table = none) →
      (Function.update s.gate.prefetchDone o' true o = true →
        s.submit.early = false ∧ (Near c o → Over c o (s.node o))) ∧
      (Function.update s.gate.clientProducersDone o' true o = true →
        s.gate.clientProducersDone o = true ∨
          s.submit.early = false ∧ (Near c o → Over c o (s.node o))) := by
    intro o' hk ht hover
    by_cases ho : o = o'
    · subst ho
      have hthread := over_of_thread hsh htold hk hne ht (hover rfl)
      exact ⟨fun _ => hthread, fun _ => .inr hthread⟩
    · rw [Function.update_of_ne ho, Function.update_of_ne ho]
      exact ⟨h.prefetchDone, .inl⟩
  cases hst with
  | start => exact ⟨h.prefetchDone, .inl⟩
  | @noHop o' err hk ht hn =>
    refine hfail hk (by simp [ht]) fun ho hnear _ => ?_
    subst ho
    -- there is a first hop to an owner that is near
    obtain ⟨j, -, hroute⟩ := hnear
    cases j with
    | zero => exact absurd hroute.symm hne
    | succ j =>
      obtain ⟨nh, htoward, -⟩ := hroute
      rw [(toward_hop_iff.mp htoward).2.1] at hn
      cases hn
  | stop => exact ⟨h.prefetchDone, .inl⟩
  | issue => exact ⟨h.prefetchDone, .inl⟩
  | @receive o' o'' i out isLast hk ht hp =>
    refine ⟨fun hd => ?_, .inl⟩
    by_cases hl : isLast = true ∧ o = o'
    · obtain ⟨rfl, rfl⟩ := hl
      obtain ⟨o₁, stage, hk', hp'⟩ := hsh.pulling k i ht
      obtain rfl : o = o₁ := Option.some.inj (hk.symm.trans hk')
      obtain rfl : o'' = o := congrArg PullCall.owner (Option.some.inj (hp.symm.trans hp'))
      have hcall := h.calls _ (List.mem_of_getElem? hp) rfl
      exact over_of_thread hsh htold hk hne (by simp [ht]) fun _ _ => hcall.2.2 rfl
    · refine h.prefetchDone ?_
      simp only [Sys.gotChunk] at hd
      split at hd
      next hlast =>
        rwa [Function.update_of_ne fun ho => hl ⟨hlast, ho⟩] at hd
      next => exact hd
  | expired => exact ⟨h.prefetchDone, .inl⟩
  | @refused o' o'' i code out isLast hk ht hp hc =>
    refine hfail hk (by simp [ht]) fun ho hnear hs => ?_
    subst ho
    obtain ⟨o₁, stage, hk', hp'⟩ := hsh.pulling k i ht
    obtain rfl : o' = o₁ := Option.some.inj (hk.symm.trans hk')
    obtain rfl : o'' = o' := congrArg PullCall.owner (Option.some.inj (hp.symm.trans hp'))
    exact (h.calls _ (List.mem_of_getElem? hp) rfl).2.1 hc hnear hs
  | timeout => exact ha.elim
  | failed => exact ha.elim

lemma responded_step (hne : o ≠ c.gateway) (hsh : Threads c q s) (hst : Steps c q s a s')
    (h : Fate c q o s) (ho : o ∈ s'.gate.ownersResponded) :
    0 < (s.node o).gens ∧ Serves c o := by
  cases hst with
  | submit hst =>
    cases hst with
    | mark =>
      refine h.responded ?_
      simp only [Sys.marked] at ho
      split at ho
      next => exact (Finset.mem_insert.mp ho).resolve_left hne
      next => exact ho
    | _ => exact h.responded ho
  | forward hst => cases hst <;> exact h.responded ho
  | produce => exact h.responded ho
  | prefetch hst =>
    cases hst with
    | @receive o' o'' i out isLast hk ht hp =>
      rcases Finset.mem_insert.mp ho with rfl | ho
      · obtain ⟨o₁, stage, hk', hp'⟩ := hsh.pulling _ i ht
        obtain rfl : o = o₁ := Option.some.inj (hk.symm.trans hk')
        obtain rfl : o'' = o := congrArg PullCall.owner (Option.some.inj (hp.symm.trans hp'))
        exact (h.calls _ (List.mem_of_getElem? hp) rfl).1 rfl
      · exact h.responded ho
    | _ => exact h.responded ho
  | pull hst =>
    rw [pulls_frame hst] at ho
    exact h.responded ho
  | fetch hst => cases hst <;> exact h.responded ho
  | cancelQuery => exact h.responded ho
  | cancel hst =>
    rw [cancels_frame hst] at ho
    exact h.responded ho

/-- The flags change when a prefetcher is through, when `SubmitQuery` gives up an owner it has
not reached, and when `FetchChunk` has drained an owner that is done. -/
lemma flags_step (hne : o ≠ c.gateway) (ha : AllAnswered a) (hsh : Threads c q s)
    (htold : Told c q s) (hst : Steps c q s a s') (h : Fate c q o s) :
    (s'.gate.prefetchDone o = true →
      s.submit.early = false ∧ (Near c o → Over c o (s.node o))) ∧
    (o ∈ c.eligible q → s'.gate.clientProducersDone o = true → Near c o →
      s.submit.early = false ∧ Over c o (s.node o)) := by
  have hold : s'.gate.prefetchDone = s.gate.prefetchDone →
      s'.gate.clientProducersDone = s.gate.clientProducersDone →
      (s'.gate.prefetchDone o = true →
        s.submit.early = false ∧ (Near c o → Over c o (s.node o))) ∧
      (o ∈ c.eligible q → s'.gate.clientProducersDone o = true → Near c o →
        s.submit.early = false ∧ Over c o (s.node o)) := by
    intro hp hd
    rw [hp, hd]
    exact ⟨h.prefetchDone, h.done⟩
  cases hst with
  | submit hst =>
    have hpre : s'.gate.prefetchDone = s.gate.prefetchDone := by cases hst <;> rfl
    rw [hpre]
    refine ⟨h.prefetchDone, fun he hd hn => h.done he ?_ hn⟩
    exact kept_of_told htold ha.forwardsAnswered hst he hn hd
  | forward hst => cases hst <;> exact hold rfl rfl
  | produce => exact hold rfl rfl
  | prefetch hst =>
    obtain ⟨hp, hd⟩ := flags_prefetch hne ha hsh htold hst h
    refine ⟨hp, fun he hdone hn => ?_⟩
    rcases hd hdone with hdone | ⟨hlate, hover⟩
    · exact h.done he hdone hn
    · exact ⟨hlate, hover hn⟩
  | pull hst => refine hold ?_ ?_ <;> rw [pulls_frame hst]
  | fetch hst =>
    cases hst with
    | drain =>
      refine ⟨h.prefetchDone, fun he hd hn => ?_⟩
      have hown := (c.eligible_sublist q).subset he
      simp only [drainStep, if_neg hne, if_pos hown, Bool.or_eq_true, Bool.and_eq_true] at hd
      rcases hd with hd | ⟨hp, -⟩
      · exact h.done he hd hn
      · obtain ⟨hlate, hover⟩ := h.prefetchDone hp
        exact ⟨hlate, hover hn⟩
    | _ => exact hold rfl rfl
  | cancelQuery => exact hold rfl rfl
  | cancel hst => refine hold ?_ ?_ <;> rw [cancels_frame hst]

lemma fate_step (hne : o ≠ c.gateway) (ha : AllAnswered a) (hnil : s.cancel = [])
    (hsh : Shape c q s) (htold : Told c q s) (hpend : Pending s) (hst : Steps c q s a s')
    (h : Fate c q o s) : Fate c q o s' := by
  have hg : (s.node o).gens ≤ (s'.node o).gens := (node_move hst o).gens_le (hsh.entries o)
  -- nothing is registered once the prefetchers are there
  have htab : s.submit.early = false → (s.node o).table = none → (s'.node o).table = none := by
    intro he ht
    refine table_eq_none hst hsh.entries (fun _ => hne) (fun f _ r ttl hf => ?_) ht
    obtain ⟨k, attempt, hs⟩ := hpend f _ o ttl hf rfl
    rw [hs] at he
    cases he
  have hlate : s.pull ≠ [] → s.submit.early = false := fun hp => by
    by_contra he
    exact hp (htold.quiet (Bool.eq_true_of_not_eq_false he))
  obtain ⟨hpd, hd⟩ := flags_step hne ha hsh.threads htold hst h
  refine ⟨?_, fun ho => ?_, kept_step hne hnil hsh hst h, fun hp => ?_, fun he hdone hn => ?_⟩
  · exact calls_step hne hg (fun hp => htab (hlate hp)) (hsh.entries o) hst h
  · obtain ⟨hpos, hs⟩ := responded_step hne hsh.threads hst h ho
    exact ⟨hpos.trans_le hg, hs⟩
  · obtain ⟨he, hover⟩ := hpd hp
    exact ⟨late_step hst he, fun hn => (hover hn).mono hg (htab he)⟩
  · obtain ⟨he, hover⟩ := hd he hdone hn
    exact ⟨late_step hst he, hover.mono hg (htab he)⟩

omit [DecidableEq N] in
lemma notCancelling : ∀ (_ : Sys N Row) (a : Act N), AllAnswered a → a ≠ .cancelQuery := by
  rintro - a ha rfl
  exact ha

/-- **What becomes of an owner** in every run in which every call is answered. -/
theorem fate_of_reach (hne : o ≠ c.gateway)
    (h : Reach (step c q) (fun _ a => AllAnswered a) (init N Row) s) : Fate c q o s := by
  refine h.invariant (I := Fate c q o) ⟨?_, ?_, ?_, ?_, ?_⟩ fun s a s' hr hi ha hst => ?_
  · intro p hp
    cases hp
  · exact fun ho => absurd ho (Finset.notMem_empty o)
  · exact fun _ hpos => absurd hpos (Nat.lt_irrefl 0)
  · exact fun hp => by cases hp
  · exact fun _ hd => by cases hd
  · have hfw : ∀ (s : Sys N Row) (a : Act N), AllAnswered a → ForwardsAnswered a :=
      fun _ _ ha => ha.forwardsAnswered
    exact fate_step hne ha (cancel_eq_nil notCancelling hr) (shape_of_reach hr)
      (told_of_reach hfw hr) (pending_of_reach hfw hr) (steps_of_step hst) hi

/-- At the end of the stream an owner that is near has been registered, and has dropped the
request exactly if it has rows. -/
theorem over_of_closed (hne : o ≠ c.gateway) (ho : o ∈ c.eligible q)
    (h : Reach (step c q) (fun _ a => AllAnswered a) (init N Row) s) (hc : Closed s)
    (hn : Near c o) : 0 < (s.node o).gens ∧ ((s.node o).table = none ↔ Serves c o) := by
  have hfate := fate_of_reach hne h
  have hown := (c.eligible_sublist q).subset ho
  have hdone := (closing_of_reach h).remote hc o hown hne
  obtain ⟨-, hpos, hover⟩ := hfate.done ho hdone hn
  refine ⟨hpos, fun ht => ?_, hover⟩
  by_contra hs
  exact hfate.kept hs hpos ht

end Mini2.Outcome
