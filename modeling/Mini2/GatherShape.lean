import Mini2.GatherSteps
import Mini2.Lib.Runs

/-!
What holds of a request in every state, whatever fails and whoever cancels: the entries of the
nodes are in order, and the prefetchers, the calls and the slots belong to eligible owners.
-/

namespace Mini2.GatherShape

open Mini2.Proto Mini2.Net Mini2.Request Mini2.Producer Mini2.Gather Mini2.GatherSteps
open Mini2.RoundRobin

variable {N Query Row : Type} [DecidableEq N]

/-! ### The entries -/

/-- What a step can do to the entry of a node. -/
inductive NodeMove (c : Config N Query Row) (q : Query) (n : N) (e : Entry Row) :
    Entry Row → Prop
  | same : NodeMove c q n e e
  | register : NodeMove c q n e (registerRequest (c.shard n) q 1 e)
  | produce {a : ProdAct} {e' : Entry Row}
      (h : prodStep (c.shard n) (c.overlay.impl n) c.overlay.maxRows e a = some e') :
      NodeMove c q n e e'
  | touch {g : ℕ} {st : RequestState Row} (h : SameCourse (e.obj g) st) :
      NodeMove c q n e (e.setObj g st)
  | drop {e' : Entry Row} (h : Removes e e') : NodeMove c q n e e'

variable {c : Config N Query Row} {q : Query} {s s' : Sys N Row} {a : Act N}

lemma setNode_move {n m : N} {e : Entry Row} (h : NodeMove c q m (s.node m) e) :
    NodeMove c q n (s.node n) ((s.setNode m e).node n) := by
  by_cases hn : n = m
  · subst hn
    simpa [Sys.setNode] using h
  · simpa [Sys.setNode, hn] using NodeMove.same

lemma node_move (h : Steps c q s a s') (n : N) : NodeMove c q n (s.node n) (s'.node n) := by
  cases h with
  | submit h =>
    cases h with
    | register => exact setNode_move .register
    | _ => exact .same
  | forward h =>
    cases h with
    | register => exact setNode_move .register
    | _ => exact .same
  | produce h => exact setNode_move (.produce h)
  | prefetch h => cases h <;> exact .same
  | pull h =>
    cases h with
    | pop => exact setNode_move (.touch ⟨rfl, rfl, rfl⟩)
    | last => exact setNode_move (.drop .drop)
    | erase => exact setNode_move (.drop .erase)
    | unschedule => exact setNode_move (.drop .unschedule)
    | _ => exact .same
  | fetch h =>
    cases h with
    | drain => exact setNode_move (.touch ⟨rfl, rfl, rfl⟩)
    | erase => exact setNode_move (.drop .drop)
    | erased => exact setNode_move (.drop .drop)
    | _ => exact .same
  | cancelQuery => exact .same
  | cancel h =>
    cases h with
    | flag => split <;> exact setNode_move (.touch ⟨rfl, rfl, rfl⟩)
    | clear => split <;> exact setNode_move (.touch ⟨rfl, rfl, rfl⟩)
    | dropJoin => exact setNode_move (.drop .drop)
    | drop => exact setNode_move (.drop .drop)
    | erase => exact setNode_move (.drop .erase)
    | unschedule => exact setNode_move (.drop .unschedule)
    | _ => exact .same

lemma NodeMove.ok {n : N} {e e' : Entry Row} (h : NodeMove c q n e e')
    (he : EntryOk (c.shard n) q e) : EntryOk (c.shard n) q e' := by
  cases h with
  | same => exact he
  | register => exact he.register 1
  | produce h => exact (prodStep_spec he h).1
  | touch h => exact he.setObj h
  | drop h => exact he.removes h

lemma NodeMove.gens_le {n : N} {e e' : Entry Row} (h : NodeMove c q n e e')
    (he : EntryOk (c.shard n) q e) : e.gens ≤ e'.gens := by
  cases h with
  | same => exact le_rfl
  | register => exact register_gens_le
  | produce h => exact (prodStep_spec he h).2.gens.ge
  | touch h => exact le_rfl
  | drop h => exact (removes_obj h).1.ge

def EntriesOk (c : Config N Query Row) (q : Query) (s : Sys N Row) : Prop :=
  ∀ n, EntryOk (c.shard n) q (s.node n)

lemma entriesOk_step (h : Steps c q s a s') (hs : EntriesOk c q s) : EntriesOk c q s' :=
  fun n => (node_move h n).ok (hs n)

/-! ### The threads and the calls -/

/-- The prefetchers are those `SubmitQuery` has spawned, each waits for a call of its own
owner, and every call is for an eligible owner behind the gateway. -/
structure Threads (c : Config N Query Row) (q : Query) (s : Sys N Row) : Prop where
  spawned : ∀ k, s.thread k ≠ .absent →
    s.submit = .returned ∨ ∃ k', s.submit = .spawning k' ∧ k < k'
  owner : ∀ k, s.thread k ≠ .absent → ∃ o, (c.eligible q)[k]? = some o ∧ o ≠ c.gateway
  pulling : ∀ k i, s.thread k = .pulling i →
    ∃ o stage, (c.eligible q)[k]? = some o ∧ s.pull[i]? = some ⟨o, stage⟩
  pull : ∀ p ∈ s.pull, p.owner ∈ c.eligible q ∧ p.owner ≠ c.gateway
  fwd : ∀ p ∈ s.fwd, p.owner ∈ c.eligible q ∧ p.owner ≠ c.gateway
  responded : ∀ o ∈ s.gate.ownersResponded, o ∈ c.eligible q

omit [DecidableEq N] in
lemma Threads.absent (h : Threads c q s) (he : s.submit.early = true) (k : ℕ) :
    s.thread k = .absent := by
  by_contra hk
  rcases h.spawned k hk with h' | ⟨k', h', -⟩ <;> simp [h', SubmitPc.early] at he

omit [DecidableEq N] in
/-- The thread that `SubmitQuery` is about to spawn, or to skip, is not there yet. -/
lemma Threads.absent_of_spawning (h : Threads c q s) {k : ℕ} (hs : s.submit = .spawning k) :
    s.thread k = .absent := by
  by_contra hk
  rcases h.spawned k hk with h' | ⟨k', h', hlt⟩
  · rw [hs] at h'
    cases h'
  · rw [hs] at h'
    cases h'
    omega

omit [DecidableEq N] in
lemma Threads.setFetch (h : Threads c q s) (pc : FetchPc) : Threads c q { s with fetch := pc } :=
  ⟨h.spawned, h.owner, h.pulling, h.pull, h.fwd, h.responded⟩

omit [DecidableEq N] in
lemma threads_init : Threads c q (init N Row) := by
  constructor <;> simp [init]

omit [DecidableEq N] in
lemma Threads.submit (h : Threads c q s) (hthread : s'.thread = s.thread)
    (hpull : s'.pull = s.pull)
    (hspawn : (∀ k, s.thread k = .absent) ∨ s'.submit = .returned ∨
      ∃ k, s.submit = .spawning k ∧ s'.submit = .spawning (k + 1))
    (hfwd : ∀ p ∈ s'.fwd, p.owner ∈ c.eligible q ∧ p.owner ≠ c.gateway)
    (hresp : ∀ o ∈ s'.gate.ownersResponded, o ∈ c.eligible q) : Threads c q s' := by
  refine ⟨fun k hk => ?_, fun k hk => h.owner k (hthread ▸ hk), fun k i hk => ?_, hpull ▸ h.pull,
    hfwd, hresp⟩
  · rw [hthread] at hk
    rcases hspawn with habs | hret | ⟨j, hj, hj'⟩
    · exact absurd (habs k) hk
    · exact .inl hret
    · refine .inr ⟨j + 1, hj', ?_⟩
      rcases h.spawned k hk with h' | ⟨k', h', hlt⟩
      · rw [hj] at h'
        cases h'
      · rw [hj] at h'
        cases h'
        omega
  · rw [hthread] at hk
    rw [hpull]
    exact h.pulling k i hk

lemma threads_submit {act : SubmitAct} (hst : Submits c q s act s') (h : Threads c q s) :
    Threads c q s' := by
  have habs : ∀ {pc}, s.submit = pc → pc.early = true → ∀ k, s.thread k = .absent :=
    fun hs he => h.absent (hs ▸ he)
  cases hst with
  | register hs => exact h.submit rfl rfl (.inl (habs hs rfl)) h.fwd h.responded
  | refuse hs => exact h.submit rfl rfl (.inl (habs hs rfl)) h.fwd h.responded
  | mark hs =>
    refine h.submit rfl rfl (.inl (habs hs rfl)) h.fwd fun o ho => ?_
    simp only [Sys.marked] at ho
    split at ho
    next hg =>
      rcases Finset.mem_insert.mp ho with rfl | ho
      · exact hg
      · exact h.responded o ho
    next => exact h.responded o ho
  | loopEnd hs => exact h.submit rfl rfl (.inl (habs hs rfl)) h.fwd h.responded
  | itself hs => exact h.submit rfl rfl (.inl (habs hs rfl)) h.fwd h.responded
  | throws hs => exact h.submit rfl rfl (.inl (habs hs rfl)) h.fwd h.responded
  | @call k a o hop hs hk ho =>
    refine h.submit rfl rfl (.inl (habs hs rfl)) (fun p hp => ?_) h.responded
    rcases List.mem_append.mp hp with hp | hp
    · exact h.fwd p hp
    · obtain rfl := List.mem_singleton.mp hp
      exact ⟨List.mem_of_getElem? hk, ho⟩
  | delivered hs => exact h.submit rfl rfl (.inl (habs hs rfl)) h.fwd h.responded
  | retry hs => exact h.submit rfl rfl (.inl (habs hs rfl)) h.fwd h.responded
  | dead hs => exact h.submit rfl rfl (.inl (habs hs rfl)) h.fwd h.responded
  | relayFailed hs =>
    exact h.submit rfl rfl (.inl (habs hs rfl)) h.fwd h.responded
  | spawnEnd hs => exact h.submit rfl rfl (.inr (.inl rfl)) h.fwd h.responded
  | @skip k o hs => exact h.submit rfl rfl (.inr (.inr ⟨k, hs, rfl⟩)) h.fwd h.responded
  | @spawn k o hs hk ho =>
    refine ⟨fun k' hk' => .inr ⟨k + 1, rfl, ?_⟩, fun k' hk' => ?_, fun k' i hk' => ?_, h.pull,
      h.fwd, h.responded⟩
    · by_cases hkk : k' = k
      · omega
      · rw [setThread_ne s hkk] at hk'
        rcases h.spawned k' hk' with h' | ⟨k'', h', hlt⟩
        · rw [hs] at h'
          cases h'
        · rw [hs] at h'
          cases h'
          omega
    · by_cases hkk : k' = k
      · exact ⟨o, hkk ▸ hk, ho⟩
      · rw [setThread_ne s hkk] at hk'
        exact h.owner k' hk'
    · by_cases hkk : k' = k
      · simp [Sys.setThread, hkk] at hk'
      · rw [setThread_ne s hkk] at hk'
        exact h.pulling k' i hk'

omit [DecidableEq N] in
lemma Threads.setThread (h : Threads c q s) {k : ℕ} {pc : ThreadPc} (hk : s.thread k ≠ .absent)
    (hpc : ∀ i, pc ≠ .pulling i) (hthread : s'.thread = (s.setThread k pc).thread)
    (hsub : s'.submit = s.submit) (hpull : s'.pull = s.pull) (hfwd : s'.fwd = s.fwd)
    (hresp : ∀ o ∈ s'.gate.ownersResponded, o ∈ c.eligible q) : Threads c q s' := by
  have hpre : ∀ k', s'.thread k' ≠ .absent → s.thread k' ≠ .absent := by
    intro k' hk'
    by_cases hkk : k' = k
    · exact hkk ▸ hk
    · rwa [hthread, setThread_ne s hkk] at hk'
  refine ⟨fun k' hk' => ?_, fun k' hk' => h.owner k' (hpre k' hk'), fun k' i hk' => ?_,
    hpull ▸ h.pull, hfwd ▸ h.fwd, hresp⟩
  · rw [hsub]
    exact h.spawned k' (hpre k' hk')
  · rw [hthread] at hk'
    by_cases hkk : k' = k
    · rw [hkk, setThread_self] at hk'
      exact absurd hk' (hpc i)
    · rw [setThread_ne s hkk] at hk'
      rw [hpull]
      exact h.pulling k' i hk'

lemma threads_prefetch {k : ℕ} {act : PrefetchAct} (hst : Prefetches c q s k act s')
    (h : Threads c q s) : Threads c q s' := by
  cases hst with
  | start hk ht => exact h.setThread (by simp [ht]) (by simp) rfl rfl rfl rfl h.responded
  | noHop hk ht => exact h.setThread (by simp [ht]) (by simp) rfl rfl rfl rfl h.responded
  | stop hk ht => exact h.setThread (by simp [ht]) (by simp) rfl rfl rfl rfl h.responded
  | expired hk ht => exact h.setThread (by simp [ht]) (by simp) rfl rfl rfl rfl h.responded
  | refused hk ht => exact h.setThread (by simp [ht]) (by simp) rfl rfl rfl rfl h.responded
  | timeout hk ht => exact h.setThread (by simp [ht]) (by simp) rfl rfl rfl rfl h.responded
  | failed hk ht => exact h.setThread (by simp [ht]) (by simp) rfl rfl rfl rfl h.responded
  | @receive o o' i out isLast hk ht =>
    refine h.setThread (by simp [ht]) ?_ rfl rfl rfl rfl fun o'' ho => ?_
    · intro i
      split <;> simp
    · rcases Finset.mem_insert.mp ho with rfl | ho
      · exact List.mem_of_getElem? hk
      · exact h.responded o'' ho
  | @issue o hop hk ht =>
    have hne : s.thread k ≠ .absent := by simp [ht]
    obtain ⟨o', hk', hog⟩ := h.owner k hne
    obtain rfl : o = o' := Option.some.inj (hk.symm.trans hk')
    have hpre : ∀ k', (s.setThread k (.pulling s.pull.length)).thread k' ≠ .absent →
        s.thread k' ≠ .absent := by
      intro k' hk'
      by_cases hkk : k' = k
      · exact hkk ▸ hne
      · rwa [setThread_ne s hkk] at hk'
    refine ⟨fun k' hk' => h.spawned k' (hpre k' hk'), fun k' hk' => h.owner k' (hpre k' hk'),
      fun k' i hk' => ?_, fun p hp => ?_, h.fwd, h.responded⟩
    · by_cases hkk : k' = k
      · rw [hkk] at hk'
        obtain rfl : s.pull.length = i := by simpa [Sys.setThread] using hk'
        exact ⟨o, .at hop, hkk ▸ hk, by simp⟩
      · rw [setThread_ne s hkk] at hk'
        obtain ⟨o'', stage, ho, hp⟩ := h.pulling k' i hk'
        refine ⟨o'', stage, ho, ?_⟩
        show (s.pull ++ _)[i]? = _
        rw [List.getElem?_append_left (List.getElem?_eq_some_iff.mp hp).1, hp]
    · rcases List.mem_append.mp hp with hp | hp
      · exact h.pull p hp
      · obtain rfl := List.mem_singleton.mp hp
        exact ⟨List.mem_of_getElem? hk, hog⟩

omit [DecidableEq N] in
lemma Threads.setPull (h : Threads c q s) {i : ℕ} {o : N} {stage stage' : PullStage N Row}
    (hp : s.pull[i]? = some ⟨o, stage⟩) (hpull : s'.pull = s.pull.set i ⟨o, stage'⟩)
    (hthread : s'.thread = s.thread) (hsub : s'.submit = s.submit) (hfwd : s'.fwd = s.fwd)
    (hresp : s'.gate.ownersResponded = s.gate.ownersResponded) : Threads c q s' := by
  refine ⟨hthread ▸ hsub ▸ h.spawned, hthread ▸ h.owner, fun k j hk => ?_, fun p hp' => ?_,
    hfwd ▸ h.fwd, hresp ▸ h.responded⟩
  · rw [hthread] at hk
    obtain ⟨o', st, ho, hj⟩ := h.pulling k j hk
    rw [hpull]
    by_cases hij : i = j
    · subst hij
      obtain rfl : o = o' := congrArg PullCall.owner (Option.some.inj (hp.symm.trans hj))
      exact ⟨o, stage', ho, by rw [List.getElem?_set_self (List.getElem?_eq_some_iff.mp hj).1]⟩
    · exact ⟨o', st, ho, by rw [List.getElem?_set_ne hij, hj]⟩
  · rw [hpull] at hp'
    rcases List.mem_or_eq_of_mem_set hp' with hp' | rfl
    · exact h.pull p hp'
    · exact h.pull ⟨o, stage⟩ (List.mem_of_getElem? hp)

lemma threads_pull {i : ℕ} {act : PullAct} (hst : Pulls c s i act s') (h : Threads c q s) :
    Threads c q s' := by
  obtain ⟨o, stage, stage', hp, -, hset⟩ := pulls_set hst
  have hframe := pulls_frame hst
  refine h.setPull hp hset ?_ ?_ ?_ ?_ <;> rw [hframe]

lemma threads_forward {f : ℕ} (hst : Forwards c q s f s') (h : Threads c q s) :
    Threads c q s' := by
  have key : ∀ {o r stage p'}, s.fwd[f]? = some ⟨o, r, stage⟩ → p'.owner = o →
      s'.fwd = s.fwd.set f p' → ∀ p ∈ s'.fwd, p.owner ∈ c.eligible q ∧ p.owner ≠ c.gateway := by
    intro o r stage p' hf ho hset p hp
    rw [hset] at hp
    rcases List.mem_or_eq_of_mem_set hp with hp | rfl
    · exact h.fwd p hp
    · rw [ho]
      exact h.fwd _ (List.mem_of_getElem? hf)
  cases hst with
  | expired hf => exact ⟨h.spawned, h.owner, h.pulling, h.pull, key hf rfl rfl, h.responded⟩
  | register hf => exact ⟨h.spawned, h.owner, h.pulling, h.pull, key hf rfl rfl, h.responded⟩
  | noRoute hf => exact ⟨h.spawned, h.owner, h.pulling, h.pull, key hf rfl rfl, h.responded⟩
  | relay hf => exact ⟨h.spawned, h.owner, h.pulling, h.pull, key hf rfl rfl, h.responded⟩

lemma threads_step (hst : Steps c q s a s') (h : Threads c q s) : Threads c q s' := by
  cases hst with
  | submit hst => exact threads_submit hst h
  | forward hst => exact threads_forward hst h
  | produce hst => exact ⟨h.spawned, h.owner, h.pulling, h.pull, h.fwd, h.responded⟩
  | prefetch hst => exact threads_prefetch hst h
  | pull hst => exact threads_pull hst h
  | fetch hst =>
    cases hst <;> exact ⟨h.spawned, h.owner, h.pulling, h.pull, h.fwd, h.responded⟩
  | cancelQuery => exact ⟨h.spawned, h.owner, h.pulling, h.pull, h.fwd, h.responded⟩
  | cancel hst =>
    rw [cancels_frame hst]
    exact ⟨h.spawned, h.owner, h.pulling, h.pull, h.fwd, h.responded⟩

/-! ### The rows on the way to the client -/

lemma drain_slot (s : Sys N Row) (maxRows : ℤ) {o : N} (ho : o ≠ c.gateway) :
    s.gate.prefetchBuf o = itemsOf (drain maxRows (sources c) (s.slots c)).taken o ++
      (drainStep c s maxRows).gate.prefetchBuf o := by
  have h := drain_conserves maxRows (sources c) (s.slots c) o
  simpa [drainStep, Sys.slots, ho] using h.symm

lemma drain_self (s : Sys N Row) (maxRows : ℤ) :
    (s.self c).matched = itemsOf (drain maxRows (sources c) (s.slots c)).taken c.gateway ++
      ((drainStep c s maxRows).self c).matched := by
  have h := drain_conserves maxRows (sources c) (s.slots c) c.gateway
  simpa [drainStep, Sys.slots, Sys.self, Entry.setObj, Sys.setNode] using h.symm

/-- The counter counts the rows that were sent, and rows come from the gateway and from
eligible owners only. -/
structure Ledger (c : Config N Query Row) (q : Query) (s : Sys N Row) : Prop where
  total : s.gate.totalMatched = s.log.length
  foreign : ∀ o, o ≠ c.gateway → o ∉ c.eligible q →
    s.gate.prefetchBuf o = [] ∧ itemsOf s.log o = []

lemma ledger_init : Ledger c q (init N Row) := ⟨rfl, fun _ _ _ => ⟨rfl, rfl⟩⟩

lemma ledger_step (hst : Steps c q s a s') (h : Ledger c q s) : Ledger c q s' := by
  cases hst with
  | submit hst => cases hst <;> exact ⟨h.total, h.foreign⟩
  | forward hst => cases hst <;> exact ⟨h.total, h.foreign⟩
  | produce hst => exact ⟨h.total, h.foreign⟩
  | prefetch hst =>
    cases hst with
    | @receive o o' i out isLast hk =>
      refine ⟨h.total, fun o'' hg he => ⟨?_, (h.foreign o'' hg he).2⟩⟩
      have hne : o'' ≠ o := fun heq => he (heq ▸ List.mem_of_getElem? hk)
      simpa [Sys.gotChunk, hne] using (h.foreign o'' hg he).1
    | _ => exact ⟨h.total, h.foreign⟩
  | pull hst =>
    rw [pulls_frame hst]
    exact ⟨h.total, h.foreign⟩
  | fetch hst =>
    cases hst with
    | drain maxRows =>
      refine ⟨by simp [drainStep, h.total], fun o hg he => ?_⟩
      obtain ⟨hbuf, hlog⟩ := h.foreign o hg he
      have hslot := drain_slot s maxRows hg
      rw [hbuf, eq_comm, List.append_eq_nil_iff] at hslot
      exact ⟨hslot.2, by simp [drainStep, hlog, hslot.1]⟩
    | _ => exact ⟨h.total, h.foreign⟩
  | cancelQuery => exact ⟨h.total, h.foreign⟩
  | cancel hst =>
    cases hst with
    | flag => split <;> exact ⟨h.total, h.foreign⟩
    | clear =>
      split
      · exact ⟨h.total, fun o hg he => ⟨rfl, (h.foreign o hg he).2⟩⟩
      · exact ⟨h.total, h.foreign⟩
    | _ => exact ⟨h.total, h.foreign⟩

/-! ### The gateway registers once -/

/-- The gateway's state of the request is the one `SubmitQuery` has made. -/
structure SelfOnce (c : Config N Query Row) (s : Sys N Row) : Prop where
  le : (s.node c.gateway).gens ≤ 1
  idle : s.submit = .idle → (s.node c.gateway).gens = 0

omit [DecidableEq N] in
lemma selfOnce_init : SelfOnce c (init N Row) := ⟨Nat.zero_le 1, fun _ => rfl⟩

omit [DecidableEq N] in
lemma SelfOnce.setFetch (h : SelfOnce c s) (pc : FetchPc) : SelfOnce c { s with fetch := pc } :=
  ⟨h.le, h.idle⟩

/-- Only a registration adds a state, or brings the request back into the table. -/
lemma unregistered_step (hst : Steps c q s a s') (hok : EntriesOk c q s) {n : N}
    (hsub : a = .submit .register → n ≠ c.gateway)
    (hfwd : ∀ f, a = .forward f → ∀ r ttl, s.fwd[f]? ≠ some ⟨n, r, .at n ttl⟩) :
    (s'.node n).gens = (s.node n).gens ∧
      ((s'.node n).table = (s.node n).table ∨ (s'.node n).table = none) := by
  have hset : ∀ {m : N} {e : Entry Row}, e.gens = (s.node m).gens →
      (e.table = (s.node m).table ∨ e.table = none) →
      ((s.setNode m e).node n).gens = (s.node n).gens ∧
        (((s.setNode m e).node n).table = (s.node n).table ∨
          ((s.setNode m e).node n).table = none) := by
    intro m e he ht
    by_cases hn : n = m
    · subst hn
      simpa using ⟨he, ht⟩
    · rw [setNode_ne s hn]
      exact ⟨rfl, .inl rfl⟩
  have hother : ∀ {m : N} {e : Entry Row}, n ≠ m →
      ((s.setNode m e).node n).gens = (s.node n).gens ∧
        (((s.setNode m e).node n).table = (s.node n).table ∨
          ((s.setNode m e).node n).table = none) := by
    intro m e hn
    rw [setNode_ne s hn]
    exact ⟨rfl, .inl rfl⟩
  cases hst with
  | submit hst =>
    cases hst with
    | register => exact hother (hsub rfl)
    | _ => exact ⟨rfl, .inl rfl⟩
  | @forward f s' hst =>
    cases hst with
    | @register o r ttl hf =>
      refine hother (m := o) fun hn => ?_
      subst hn
      exact absurd hf (hfwd f rfl r ttl)
    | _ => exact ⟨rfl, .inl rfl⟩
  | @produce m act e' hst =>
    have hmakes := (prodStep_spec (hok m) hst).2
    exact hset hmakes.gens (.inl hmakes.table)
  | prefetch hst => cases hst <;> exact ⟨rfl, .inl rfl⟩
  | pull hst =>
    cases hst with
    | pop => exact hset rfl (.inl rfl)
    | last => exact hset rfl (.inr rfl)
    | erase => exact hset rfl (.inr rfl)
    | unschedule => exact hset rfl (.inl rfl)
    | _ => exact ⟨rfl, .inl rfl⟩
  | fetch hst =>
    cases hst with
    | drain => exact hset rfl (.inl rfl)
    | erase => exact hset rfl (.inr rfl)
    | erased => exact hset rfl (.inr rfl)
    | _ => exact ⟨rfl, .inl rfl⟩
  | cancelQuery => exact ⟨rfl, .inl rfl⟩
  | cancel hst =>
    cases hst with
    | flag => split <;> exact hset rfl (.inl rfl)
    | clear => split <;> exact hset rfl (.inl rfl)
    | dropJoin => exact hset rfl (.inr rfl)
    | drop => exact hset rfl (.inr rfl)
    | erase => exact hset rfl (.inr rfl)
    | unschedule => exact hset rfl (.inl rfl)
    | _ => exact ⟨rfl, .inl rfl⟩

lemma gens_eq (hst : Steps c q s a s') (hok : EntriesOk c q s) {n : N}
    (hsub : a = .submit .register → n ≠ c.gateway)
    (hfwd : ∀ f, a = .forward f → ∀ r ttl, s.fwd[f]? ≠ some ⟨n, r, .at n ttl⟩) :
    (s'.node n).gens = (s.node n).gens := (unregistered_step hst hok hsub hfwd).1

lemma table_eq_none (hst : Steps c q s a s') (hok : EntriesOk c q s) {n : N}
    (hsub : a = .submit .register → n ≠ c.gateway)
    (hfwd : ∀ f, a = .forward f → ∀ r ttl, s.fwd[f]? ≠ some ⟨n, r, .at n ttl⟩)
    (h : (s.node n).table = none) : (s'.node n).table = none := by
  rcases (unregistered_step hst hok hsub hfwd).2 with ht | ht
  · exact ht.trans h
  · exact ht

lemma submit_eq (hst : Steps c q s a s') (h : ∀ act, a ≠ .submit act) : s'.submit = s.submit := by
  cases hst with
  | @submit act s' hst => exact absurd rfl (h act)
  | forward hst => cases hst <;> rfl
  | produce hst => rfl
  | prefetch hst => cases hst <;> rfl
  | pull hst => rw [pulls_frame hst]
  | fetch hst => cases hst <;> rfl
  | cancelQuery => rfl
  | cancel hst => rw [cancels_frame hst]

lemma cancel_eq (hst : Steps c q s a s') (hq : a ≠ .cancelQuery)
    (hc : ∀ j act, a ≠ .cancel j act) : s'.cancel = s.cancel := by
  cases hst with
  | submit hst => cases hst <;> rfl
  | forward hst => cases hst <;> rfl
  | produce hst => rfl
  | prefetch hst => cases hst <;> rfl
  | pull hst => rw [pulls_frame hst]
  | fetch hst => cases hst <;> rfl
  | cancelQuery => exact absurd rfl hq
  | @cancel j act s' hst => exact absurd rfl (hc j act)

lemma submit_ne_idle (hst : Steps c q s a s') (h : s.submit ≠ .idle) : s'.submit ≠ .idle := by
  by_cases ha : ∃ act, a = .submit act
  · obtain ⟨act, rfl⟩ := ha
    cases hst with
    | submit hst => cases hst <;> simp
  · rw [submit_eq hst fun act ha' => ha ⟨act, ha'⟩]
    exact h

lemma selfOnce_step (hst : Steps c q s a s') (hok : EntriesOk c q s) (ht : Threads c q s)
    (h : SelfOnce c s) : SelfOnce c s' := by
  have hfwd : ∀ f, a = .forward f → ∀ r ttl,
      s.fwd[f]? ≠ some ⟨c.gateway, r, .at c.gateway ttl⟩ := fun f _ r ttl hf =>
    (ht.fwd _ (List.mem_of_getElem? hf)).2 rfl
  by_cases ha : a = .submit .register
  · subst ha
    cases hst with
    | submit hst =>
      cases hst with
      | register hs =>
        have h0 := h.idle hs
        refine ⟨?_, fun h' => by cases h'⟩
        simp only [setNode_self, registerRequest]
        split
        · omega
        · simp only
          omega
      | refuse hs => exact ⟨h.le, fun h' => by cases h'⟩
      | retry _ _ _ ha => rcases ha with ⟨h', -⟩ | h' <;> cases h'
      | dead _ _ _ ha => rcases ha with ⟨h', -⟩ | h' <;> cases h'
  · have hg := gens_eq hst hok (n := c.gateway) (fun h' => absurd h' ha) hfwd
    refine ⟨hg ▸ h.le, fun h' => ?_⟩
    by_cases hi : s.submit = .idle
    · rw [hg]
      exact h.idle hi
    · exact absurd h' (submit_ne_idle hst hi)

/-! ### All of it -/

structure Shape (c : Config N Query Row) (q : Query) (s : Sys N Row) : Prop where
  entries : EntriesOk c q s
  threads : Threads c q s
  ledger : Ledger c q s
  selfOnce : SelfOnce c s

/-- **Every state of a request is in shape**, whatever the guard lets through. -/
theorem shape_of_reach {G : Sys N Row → Act N → Prop}
    (h : Runs.Reach (step c q) G (init N Row) s) : Shape c q s := by
  refine h.invariant ⟨fun _ => entryOk_empty, threads_init, ledger_init, selfOnce_init⟩ ?_
  intro s a s' _ h _ hst
  have hst := steps_of_step hst
  exact ⟨entriesOk_step hst h.entries, threads_step hst h.threads, ledger_step hst h.ledger,
    selfOnce_step hst h.entries h.threads h.selfOnce⟩

lemma cancel_eq_nil {G : Sys N Row → Act N → Prop} (hG : ∀ s a, G s a → a ≠ .cancelQuery)
    (h : Runs.Reach (step c q) G (init N Row) s) : s.cancel = [] := by
  refine h.invariant (I := fun s => s.cancel = []) rfl fun s a s' _ hi hg hst => ?_
  have hst := steps_of_step hst
  by_cases ha : ∃ j act, a = .cancel j act
  · obtain ⟨j, act, rfl⟩ := ha
    cases hst with
    | cancel hst => exact absurd hi (cancel_ne_nil hst)
  · rw [cancel_eq hst (hG s a hg) fun j act ha' => ha ⟨j, act, ha'⟩]
    exact hi

end Mini2.GatherShape
