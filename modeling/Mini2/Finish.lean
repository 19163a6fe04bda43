import Mini2.SelfLane

/-!
What `FetchChunk` relies on when it ends a stream: the flags of the owners it has seen, and
the two counts it reports.
-/

namespace Mini2.Finish

open Mini2.Net Mini2.Request Mini2.Producer Mini2.Gather Mini2.GatherSteps Mini2.GatherShape
open Mini2.RoundRobin Mini2.Lane Mini2.SelfLane

variable {N Query Row : Type}

/-- `FetchChunk` has seen that every owner is done. -/
def Closed (s : Sys N Row) : Prop :=
  s.finished ≠ none ∨ s.fetch ≠ .idle ∧ s.fetch ≠ .entered

/-- `FetchChunk` has counted, or reported, `hit` of `eligible` owners. -/
def Announces (s : Sys N Row) (hit eligible : ℕ) : Prop :=
  s.fetch = .counted hit eligible ∨ s.fetch = .joining hit eligible ∨
    s.finished = some (hit, eligible)

/-- The gateway has made and drained all its rows. -/
def SelfOver (c : Config N Query Row) (s : Sys N Row) : Prop :=
  0 < (s.node c.gateway).gens ∧ ((s.node c.gateway).obj 0).doneProducing = true ∧
    ((s.node c.gateway).obj 0).matched = []

/-- `SubmitQuery` has not marked the owners yet. -/
def Unmarked (s : Sys N Row) : Prop := s.submit = .idle ∨ s.submit = .registered

structure Closing (c : Config N Query Row) (q : Query) (s : Sys N Row) : Prop where
  unmarked : Unmarked s → ∀ o, o ≠ c.gateway →
    s.gate.clientProducersDone o = false ∧ s.gate.prefetchDone o = false
  marked : 0 < (s.node c.gateway).gens → ¬ Unmarked s →
    s.gate.eligibleOwners = (c.eligible q).length
  remote : Closed s → ∀ o ∈ c.overlay.dataOwners, o ≠ c.gateway →
    s.gate.clientProducersDone o = true
  selfDone : s.gate.clientProducersDone c.gateway = true → c.gateway ∉ c.eligible q ∨ SelfOver c s
  self : Closed s → c.gateway ∈ c.overlay.dataOwners → c.gateway ∉ c.eligible q ∨ SelfOver c s
  count : ∀ n, Announces s n n →
    (∀ o ∈ c.eligible q, o ≠ c.gateway → o ∈ s.gate.ownersResponded) ∧
      ((c.eligible q).Nodup ∨ ∀ o ∈ c.eligible q, o = c.gateway)

variable [DecidableEq N] {c : Config N Query Row} {q : Query} {s s' : Sys N Row} {a : Act N}

omit [DecidableEq N] in
lemma Unmarked.early (h : Unmarked s) : s.submit.early = true := by
  rcases h with h | h <;> rw [h] <;> rfl

lemma selfOver_step (hsh : Shape c q s) (hstart : Started c s) (hst : Steps c q s a s')
    (h : SelfOver c s) : SelfOver c s' := by
  unfold SelfOver at h ⊢
  rcases self_step hsh hstart hst with ⟨hnode, -⟩ | hself
  · rw [hnode]
    exact h
  · have hg := selfGrows (hsh.entries c.gateway) hself
    exact ⟨h.1.trans_le hg.gens, hg.done 0 h.1 h.2.1, hg.drained 0 h.1 h.2.1 h.2.2⟩

/-- Only `SubmitQuery` takes back that an owner is done, when it marks them. -/
lemma done_mono (ha : a ≠ .submit .mark) (hst : Steps c q s a s') {o : N}
    (h : s.gate.clientProducersDone o = true) : s'.gate.clientProducersDone o = true := by
  have hmark : ∀ o', Function.update s.gate.clientProducersDone o' true o = true := by
    intro o'
    by_cases ho : o = o'
    · rw [ho, Function.update_self]
    · rwa [Function.update_of_ne ho]
  cases hst with
  | submit hst =>
    cases hst with
    | mark => exact absurd rfl ha
    | dead => exact hmark _
    | _ => exact h
  | forward hst => cases hst <;> exact h
  | produce => exact h
  | prefetch hst =>
    cases hst with
    | noHop => exact hmark _
    | refused => exact hmark _
    | failed => exact hmark _
    | _ => exact h
  | pull hst =>
    rw [pulls_frame hst]
    exact h
  | fetch hst =>
    cases hst with
    | drain =>
      simp only [drainStep, h, Bool.true_or]
      split
      · rfl
      · split <;> rfl
    | _ => exact h
  | cancelQuery => exact h
  | cancel hst =>
    rw [cancels_frame hst]
    exact h

lemma unmarked_step (hsh : Shape c q s) (h : Closing c q s) (hst : Steps c q s a s')
    (hu : Unmarked s') (o : N) (ho : o ≠ c.gateway) :
    s'.gate.clientProducersDone o = false ∧ s'.gate.prefetchDone o = false := by
  have hold : s'.submit = s.submit → s'.gate.clientProducersDone = s.gate.clientProducersDone →
      s'.gate.prefetchDone = s.gate.prefetchDone →
      s'.gate.clientProducersDone o = false ∧ s'.gate.prefetchDone o = false := by
    intro hs hc hp
    rw [hc, hp]
    exact h.unmarked (by rwa [Unmarked, ← hs]) o ho
  -- there is no prefetcher yet
  have habs : ∀ {k : ℕ} {pc : ThreadPc}, s.thread k = pc → pc ≠ .absent →
      s'.submit = s.submit → False := fun ht hpc hs =>
    hpc (ht ▸ hsh.threads.absent (hs ▸ hu.early) _)
  cases hst with
  | submit hst =>
    cases hst with
    | register hi => exact h.unmarked (.inl hi) o ho
    | _ => rcases hu with hu | hu <;> cases hu
  | forward hst => cases hst <;> exact hold rfl rfl rfl
  | produce => exact hold rfl rfl rfl
  | prefetch hst => cases hst <;> exact (habs (by assumption) (by simp) rfl).elim
  | pull hst => refine hold ?_ ?_ ?_ <;> rw [pulls_frame hst]
  | fetch hst =>
    cases hst with
    | drain =>
      obtain ⟨hd, hp⟩ := h.unmarked hu o ho
      refine ⟨?_, hp⟩
      simp only [drainStep, if_neg ho, hd, hp]
      split <;> rfl
    | _ => exact hold rfl rfl rfl
  | cancelQuery => exact hold rfl rfl rfl
  | cancel hst => refine hold ?_ ?_ ?_ <;> rw [cancels_frame hst]

lemma marked_step (hsh : Shape c q s) (h : Closing c q s) (hst : Steps c q s a s')
    (hg' : 0 < (s'.node c.gateway).gens) (hu : ¬ Unmarked s') :
    s'.gate.eligibleOwners = (c.eligible q).length := by
  have hfwd : ∀ f, a = .forward f → ∀ r ttl,
      s.fwd[f]? ≠ some ⟨c.gateway, r, .at c.gateway ttl⟩ := fun f _ r ttl hf =>
    (hsh.threads.fwd _ (List.mem_of_getElem? hf)).2 rfl
  have hold : a ≠ .submit .register → ¬ Unmarked s →
      s'.gate.eligibleOwners = s.gate.eligibleOwners →
      s'.gate.eligibleOwners = (c.eligible q).length := by
    intro ha hu he
    rw [gens_eq hst hsh.entries (fun h' => absurd h' ha) hfwd] at hg'
    exact he.trans (h.marked hg' hu)
  have hpc : ∀ {pc}, s.submit = pc → pc ≠ .idle → pc ≠ .registered → ¬ Unmarked s := by
    rintro pc rfl h1 h2 (h' | h')
    · exact h1 h'
    · exact h2 h'
  cases hst with
  | submit hst =>
    cases hst with
    | register => exact absurd (.inr rfl) hu
    | refuse hi =>
      have hg : 0 < (s.node c.gateway).gens := hg'
      exact absurd (hsh.selfOnce.idle hi) (by omega)
    | mark => rfl
    | retry hs _ _ ha =>
      refine hold ?_ (hpc hs (by simp) (by simp)) rfl
      rcases ha with ⟨rfl, -⟩ | rfl <;> simp
    | dead hs _ _ ha =>
      refine hold ?_ (hpc hs (by simp) (by simp)) rfl
      rcases ha with ⟨rfl, -⟩ | rfl <;> simp
    | _ => exact hold (by simp) (hpc (by assumption) (by simp) (by simp)) rfl
  | forward hst => cases hst <;> exact hold (by simp) hu rfl
  | produce => exact hold (by simp) hu rfl
  | prefetch hst => cases hst <;> exact hold (by simp) hu rfl
  | pull hst =>
    rw [pulls_frame hst] at hu
    exact hold (by simp) hu (by rw [pulls_frame hst])
  | fetch hst => cases hst <;> exact hold (by simp) hu rfl
  | cancelQuery => exact hold (by simp) hu rfl
  | cancel hst =>
    rw [cancels_frame hst] at hu
    exact hold (by simp) hu (by rw [cancels_frame hst])

lemma selfDone_step (hsh : Shape c q s) (hstart : Started c s) (h : Closing c q s)
    (hst : Steps c q s a s') (hd : s'.gate.clientProducersDone c.gateway = true) :
    c.gateway ∉ c.eligible q ∨ SelfOver c s' := by
  have hold : s.gate.clientProducersDone c.gateway = true →
      c.gateway ∉ c.eligible q ∨ SelfOver c s' := fun hd' =>
    (h.selfDone hd').imp_right (selfOver_step hsh hstart hst)
  -- the other owners are not the gateway
  have hremote : ∀ {o : N}, o ≠ c.gateway →
      Function.update s.gate.clientProducersDone o true c.gateway = true →
      c.gateway ∉ c.eligible q ∨ SelfOver c s' := by
    intro o ho hd'
    rw [Function.update_of_ne ho.symm] at hd'
    exact hold hd'
  have hthread : ∀ {k : ℕ} {o : N} {pc : ThreadPc}, (c.eligible q)[k]? = some o →
      s.thread k = pc → pc ≠ .absent → o ≠ c.gateway := by
    intro k o pc hk ht hpc
    obtain ⟨o', hk', ho⟩ := hsh.threads.owner k (ht ▸ hpc)
    exact Option.some.inj (hk.symm.trans hk') ▸ ho
  cases hst with
  | submit hst =>
    cases hst with
    | mark =>
      simp only [Sys.marked] at hd
      split at hd
      · exact .inl (by simpa using hd)
      · exact hold hd
    | dead _ hf => exact hremote (hsh.threads.fwd _ (List.mem_of_getElem? hf)).2 hd
    | _ => exact hold hd
  | forward hst => cases hst <;> exact hold hd
  | produce => exact hold hd
  | prefetch hst =>
    cases hst with
    | noHop hk ht => exact hremote (hthread hk ht (by simp)) hd
    | refused hk ht => exact hremote (hthread hk ht (by simp)) hd
    | failed hk ht => exact hremote (hthread hk ht (by simp)) hd
    | _ => exact hold hd
  | pull hst =>
    rw [pulls_frame hst] at hd
    exact hold hd
  | fetch hst =>
    cases hst with
    | drain maxRows hf =>
      simp only [drainStep, if_pos, Bool.or_eq_true, Bool.and_eq_true, List.isEmpty_iff] at hd
      rcases hd with hd | ⟨hdone, hm⟩
      · exact hold hd
      · refine .inr ⟨?_, ?_, ?_⟩
        · have hg : ((drainStep c s maxRows).node c.gateway).gens = (s.node c.gateway).gens := by
            simp [drainStep, Entry.setObj]
          exact hg ▸ hstart (by simp [hf])
        · simpa [drainStep, Entry.setObj] using hdone
        · simpa [drainStep, Entry.setObj] using hm
    | _ => exact hold hd
  | cancelQuery => exact hold hd
  | cancel hst =>
    rw [cancels_frame hst] at hd
    exact hold hd

/-- `FetchChunk` ends a stream only after a drain that has left every owner done. -/
lemma closed_step (hst : Steps c q s a s') (hc : Closed s') :
    Closed s ∨ s'.allDone c = true := by
  have hold : s'.fetch = s.fetch → s'.finished = s.finished → Closed s ∨ s'.allDone c = true := by
    intro hf hfin
    rw [Closed, hf, hfin] at hc
    exact .inl hc
  cases hst with
  | submit hst => cases hst <;> exact hold rfl rfl
  | forward hst => cases hst <;> exact hold rfl rfl
  | produce => exact hold rfl rfl
  | prefetch hst => cases hst <;> exact hold rfl rfl
  | pull hst => exact hold (by rw [pulls_frame hst]) (by rw [pulls_frame hst])
  | fetch hst =>
    cases hst with
    | start hf => exact .inl (hc.imp_right fun h' => absurd rfl h'.2)
    | drain maxRows hf =>
      by_cases hd : (drainStep c s maxRows).allDone c = true
      · exact .inr hd
      · refine .inl (hc.imp_right fun h' => ?_)
        simp [hd] at h'
    | count hf => exact .inl (.inr (by simp [hf]))
    | erase hf => exact .inl (.inr (by simp [hf]))
    | erased hf => exact .inl (.inr (by simp [hf]))
    | finish hf => exact .inl (.inr (by simp [hf]))
  | cancelQuery => exact hold rfl rfl
  | cancel hst => exact hold (by rw [cancels_frame hst]) (by rw [cancels_frame hst])

lemma remote_step (h : Closing c q s) (hst : Steps c q s a s') (hc : Closed s') :
    ∀ o ∈ c.overlay.dataOwners, o ≠ c.gateway → s'.gate.clientProducersDone o = true := by
  intro o ho hne
  rcases closed_step hst hc with hc | hd
  · have hdone := h.remote hc o ho hne
    by_cases ha : a = .submit .mark
    · -- before the owners are marked none of those behind the gateway is done
      subst ha
      cases hst with
      | submit hst =>
        cases hst with
        | mark hr =>
          rw [(h.unmarked (.inr hr) o hne).1] at hdone
          cases hdone
        | retry _ _ _ ha => rcases ha with ⟨ha, -⟩ | ha <;> cases ha
        | dead _ _ _ ha => rcases ha with ⟨ha, -⟩ | ha <;> cases ha
    · exact done_mono ha hst hdone
  · exact List.all_eq_true.mp hd o ho

lemma self_closed_step (hsh : Shape c q s) (hstart : Started c s) (h : Closing c q s)
    (hst : Steps c q s a s') (hc : Closed s') (hown : c.gateway ∈ c.overlay.dataOwners) :
    c.gateway ∉ c.eligible q ∨ SelfOver c s' := by
  rcases closed_step hst hc with hc | hd
  · exact (h.self hc hown).imp_right (selfOver_step hsh hstart hst)
  · exact selfDone_step hsh hstart h hst (List.all_eq_true.mp hd _ hown)

/-! ### The two counts -/

lemma responded_mono (hst : Steps c q s a s') {o : N} (h : o ∈ s.gate.ownersResponded) :
    o ∈ s'.gate.ownersResponded := by
  cases hst with
  | submit hst =>
    cases hst with
    | mark =>
      simp only [Sys.marked]
      split
      · exact Finset.mem_insert_of_mem h
      · exact h
    | _ => exact h
  | forward hst => cases hst <;> exact h
  | produce => exact h
  | prefetch hst =>
    cases hst with
    | receive => exact Finset.mem_insert_of_mem h
    | _ => exact h
  | pull hst =>
    rw [pulls_frame hst]
    exact h
  | fetch hst => cases hst <;> exact h
  | cancelQuery => exact h
  | cancel hst =>
    rw [cancels_frame hst]
    exact h

lemma announces_step (hst : Steps c q s a s') {hit eligible : ℕ}
    (h : Announces s' hit eligible) : Announces s hit eligible ∨ s.fetch = .drained ∧
      s.gate.ownersResponded.card = hit ∧ s.gate.eligibleOwners = eligible := by
  have hold : s'.fetch = s.fetch → s'.finished = s.finished → Announces s hit eligible := by
    intro hf hfin
    rwa [Announces, hf, hfin] at h
  cases hst with
  | submit hst => cases hst <;> exact .inl (hold rfl rfl)
  | forward hst => cases hst <;> exact .inl (hold rfl rfl)
  | produce => exact .inl (hold rfl rfl)
  | prefetch hst => cases hst <;> exact .inl (hold rfl rfl)
  | pull hst => exact .inl (hold (by rw [pulls_frame hst]) (by rw [pulls_frame hst]))
  | fetch hst =>
    cases hst with
    | start =>
      rcases h with h | h | h
      · cases h
      · cases h
      · exact .inl (.inr (.inr h))
    | drain maxRows =>
      rcases h with h | h | h
      · simp only at h
        split at h <;> cases h
      · simp only at h
        split at h <;> cases h
      · exact .inl (.inr (.inr h))
    | count hf =>
      rcases h with h | h | h
      · simp only [FetchPc.counted.injEq] at h
        exact .inr ⟨hf, h⟩
      · cases h
      · exact .inl (.inr (.inr h))
    | erase hf =>
      rcases h with h | h | h
      · cases h
      · simp only [FetchPc.joining.injEq] at h
        exact .inl (.inl (by rw [hf, h.1, h.2]))
      · exact .inl (.inr (.inr h))
    | erased hf =>
      rcases h with h | h | h
      · cases h
      · cases h
      · simp only [Option.some.injEq, Prod.mk.injEq] at h
        exact .inl (.inl (by rw [hf, h.1, h.2]))
    | finish hf =>
      rcases h with h | h | h
      · cases h
      · cases h
      · simp only [Option.some.injEq, Prod.mk.injEq] at h
        exact .inl (.inr (.inl (by rw [hf, h.1, h.2])))
  | cancelQuery => exact .inl (hold rfl rfl)
  | cancel hst => exact .inl (hold (by rw [cancels_frame hst]) (by rw [cancels_frame hst]))

/-- As many distinct members of a list as it is long are all of them, and none is listed
twice. -/
lemma eq_of_card_eq_length {l : List N} {S : Finset N} (hS : ∀ o ∈ S, o ∈ l)
    (hc : S.card = l.length) : (∀ o ∈ l, o ∈ S) ∧ l.Nodup := by
  have hsub : S ⊆ l.toFinset := fun o ho => List.mem_toFinset.mpr (hS o ho)
  have hle : l.toFinset.card ≤ S.card := hc ▸ l.toFinset_card_le
  have heq : S = l.toFinset := Finset.eq_of_subset_of_card_le hsub hle
  refine ⟨fun o ho => heq ▸ List.mem_toFinset.mpr ho, ?_⟩
  rw [heq, List.card_toFinset] at hc
  exact List.dedup_eq_self.mp (l.dedup_sublist.eq_of_length hc)

/-- Counts that agree are those of a request whose owners have all responded. -/
lemma count_step (hsh : Shape c q s) (hstart : Started c s) (h : Closing c q s)
    (hst : Steps c q s a s') (n : ℕ) (hn : Announces s' n n) :
    (∀ o ∈ c.eligible q, o ≠ c.gateway → o ∈ s'.gate.ownersResponded) ∧
      ((c.eligible q).Nodup ∨ ∀ o ∈ c.eligible q, o = c.gateway) := by
  suffices hs : (∀ o ∈ c.eligible q, o ≠ c.gateway → o ∈ s.gate.ownersResponded) ∧
      ((c.eligible q).Nodup ∨ ∀ o ∈ c.eligible q, o = c.gateway) from
    ⟨fun o ho hne => responded_mono hst (hs.1 o ho hne), hs.2⟩
  rcases announces_step hst hn with hn | ⟨hf, hhit, helig⟩
  · exact h.count n hn
  · by_cases hu : Unmarked s
    · -- the stream can end before the owners are marked, where all of them are the gateway
      have hall : ∀ o ∈ c.eligible q, o = c.gateway := by
        intro o ho
        by_contra hne
        have hown := (c.eligible_sublist q).subset ho
        have hdone := h.remote (.inr (by simp [hf])) o hown hne
        rw [(h.unmarked hu o hne).1] at hdone
        cases hdone
      exact ⟨fun o ho hne => absurd (hall o ho) hne, .inr hall⟩
    · have hmarked := h.marked (hstart (by simp [hf])) hu
      have hcard : s.gate.ownersResponded.card = (c.eligible q).length := calc
        s.gate.ownersResponded.card = n := hhit
        _ = s.gate.eligibleOwners := helig.symm
        _ = (c.eligible q).length := hmarked
      obtain ⟨hall, hnodup⟩ := eq_of_card_eq_length hsh.threads.responded hcard
      exact ⟨fun o ho _ => hall o ho, .inl hnodup⟩

omit [DecidableEq N] in
lemma closing_init : Closing c q (init N Row) where
  unmarked _ _ _ := ⟨rfl, rfl⟩
  marked hg := absurd hg (Nat.lt_irrefl 0)
  remote hc := by rcases hc with hc | ⟨hc, -⟩ <;> exact absurd rfl hc
  selfDone hd := by cases hd
  self hc := by rcases hc with hc | ⟨hc, -⟩ <;> exact absurd rfl hc
  count n hn := by rcases hn with hn | hn | hn <;> cases hn

/-- **The flags that end a stream mean what they say** in every run, whatever fails. -/
theorem closing_of_reach {G : Sys N Row → Act N → Prop}
    (h : Runs.Reach (step c q) G (init N Row) s) : Closing c q s := by
  refine h.invariant closing_init fun s a s' hr hi _ hst => ?_
  have hsh := shape_of_reach hr
  have hstart := started_of_reach hr
  have hst := steps_of_step hst
  exact
    { unmarked := unmarked_step hsh hi hst
      marked := marked_step hsh hi hst
      remote := remote_step hi hst
      selfDone := selfDone_step hsh hstart hi hst
      self := self_closed_step hsh hstart hi hst
      count := count_step hsh hstart hi hst }

/-! ### After the end -/

/-- A stream that has ended is over: the gateway has not got the request any more, and
`FetchChunk` finds it no more. -/
structure Ended (c : Config N Query Row) (s : Sys N Row) : Prop where
  idle : s.finished ≠ none → s.fetch = .idle
  gone : (s.finished ≠ none ∨ ∃ hit eligible, s.fetch = .joining hit eligible) →
    (s.node c.gateway).table = none ∧ s.submit ≠ .idle

lemma ended_step (hsh : Shape c q s) (hstart : Started c s) (hst : Steps c q s a s')
    (h : Ended c s) : Ended c s' := by
  -- the gateway does not register again
  have hgone : (s.node c.gateway).table = none ∧ s.submit ≠ .idle →
      (s'.node c.gateway).table = none ∧ s'.submit ≠ .idle := by
    rintro ⟨ht, hi⟩
    refine ⟨table_eq_none hst hsh.entries ?_ ?_ ht, submit_ne_idle hst hi⟩
    · rintro rfl
      cases hst with
      | submit hst =>
        cases hst with
        | register hs => exact absurd hs hi
        | refuse hs => exact absurd hs hi
        | retry _ _ _ ha => rcases ha with ⟨ha, -⟩ | ha <;> cases ha
        | dead _ _ _ ha => rcases ha with ⟨ha, -⟩ | ha <;> cases ha
    · intro f _ r ttl hf
      exact (hsh.threads.fwd _ (List.mem_of_getElem? hf)).2 rfl
  have hold : s'.fetch = s.fetch → s'.finished = s.finished → Ended c s' := by
    intro hf hfin
    refine ⟨fun hne => hf.trans (h.idle (hfin ▸ hne)), fun hend => hgone (h.gone ?_)⟩
    rwa [hf, hfin] at hend
  have hsub : s.fetch ≠ .idle → s.submit ≠ .idle := fun hf hi => by
    have hpos := hstart hf
    have hzero := hsh.selfOnce.idle hi
    omega
  cases hst with
  | submit hst => cases hst <;> exact hold rfl rfl
  | forward hst => cases hst <;> exact hold rfl rfl
  | produce => exact hold rfl rfl
  | prefetch hst => cases hst <;> exact hold rfl rfl
  | pull hst => exact hold (by rw [pulls_frame hst]) (by rw [pulls_frame hst])
  | fetch hst =>
    have hopen : s.fetch ≠ .idle → s.finished = none := fun hf => by
      by_contra hne
      exact hf (h.idle hne)
    cases hst with
    | start hf ht =>
      have hnone : s.finished = none := by
        by_contra hne
        rw [(h.gone (.inl hne)).1] at ht
        cases ht
      exact ⟨fun hne => absurd hnone hne, fun hend => by simp [hnone] at hend⟩
    | drain maxRows hf =>
      have hnone := hopen (by simp [hf])
      refine ⟨fun hne => absurd hnone hne, fun hend => ?_⟩
      rcases hend with hne | ⟨hit, eligible, hj⟩
      · exact absurd hnone hne
      · simp only at hj
        split at hj <;> cases hj
    | count hf =>
      have hnone := hopen (by simp [hf])
      exact ⟨fun hne => absurd hnone hne, fun hend => by simp [hnone] at hend⟩
    | erase hf =>
      have hnone := hopen (by simp [hf])
      exact ⟨fun hne => absurd hnone hne, fun _ =>
        ⟨congrArg Entry.table (setNode_self s c.gateway _), hsub (by simp [hf])⟩⟩
    | erased hf =>
      exact ⟨fun _ => rfl, fun _ =>
        ⟨congrArg Entry.table (setNode_self s c.gateway _), hsub (by simp [hf])⟩⟩
    | finish hf => exact ⟨fun _ => rfl, fun _ => h.gone (.inr ⟨_, _, hf⟩)⟩
  | cancelQuery => exact hold rfl rfl
  | cancel hst => exact hold (by rw [cancels_frame hst]) (by rw [cancels_frame hst])

theorem ended_of_reach {G : Sys N Row → Act N → Prop}
    (h : Runs.Reach (step c q) G (init N Row) s) : Ended c s := by
  refine h.invariant (I := Ended c) ⟨fun _ => rfl, fun hend => by simp [init] at hend⟩ ?_
  intro s a s' hr hi _ hst
  exact ended_step (shape_of_reach hr) (started_of_reach hr) (steps_of_step hst) hi

end Mini2.Finish
