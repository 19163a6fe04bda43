import Mathlib.Algebra.BigOperators.Group.Finset.Basic
import Mini2.LaneOnce

/-!
The rows of an owner that have been made are in its buffer, on their way in a call, in its slot
or with the client, each at one of these places. Any number of prefetchers may work for the
owner; each waits for a call of its own.
-/

namespace Mini2.Budget

open Mini2.Proto Mini2.Net Mini2.Request Mini2.Producer Mini2.Gather Mini2.GatherSteps
open Mini2.GatherShape Mini2.RoundRobin Mini2.Runs Mini2.Lane

variable {N Query Row : Type}

/-! ### Calls on their way -/

/-- The rows of the call that prefetcher `k` waits for. -/
def carried (s : Sys N Row) (k : ℕ) : ℕ :=
  match s.thread k with
  | .pulling i => ((s.pull[i]?).map fun p => (stageRows p.stage).length).getD 0
  | _ => 0

/-- No two prefetchers wait for one call. -/
def Apart (s : Sys N Row) : Prop :=
  ∀ k k' i, s.thread k = .pulling i → s.thread k' = .pulling i → k = k'

variable [DecidableEq N]

/-- The rows on their way in the calls for an owner. -/
def onTheWay (c : Config N Query Row) (q : Query) (s : Sys N Row) (o : N) : ℕ :=
  ∑ k ∈ Finset.range (c.eligible q).length,
    if (c.eligible q)[k]? = some o then carried s k else 0

variable {c : Config N Query Row} {q : Query} {s s' : Sys N Row} {a : Act N} {o : N}

lemma onTheWay_congr (h : ∀ k, (c.eligible q)[k]? = some o → carried s' k = carried s k) :
    onTheWay c q s' o = onTheWay c q s o := by
  refine Finset.sum_congr rfl fun k _ => ?_
  split
  next hk => exact h k hk
  next => rfl

lemma onTheWay_update {k : ℕ} (hk : (c.eligible q)[k]? = some o)
    (h : ∀ k' ≠ k, carried s' k' = carried s k') :
    onTheWay c q s' o + carried s k = onTheWay c q s o + carried s' k := by
  have hmem : k ∈ Finset.range (c.eligible q).length :=
    Finset.mem_range.mpr (List.getElem?_eq_some_iff.mp hk).1
  have hrest : ∀ k' ∈ (Finset.range (c.eligible q).length).erase k,
      (if (c.eligible q)[k']? = some o then carried s' k' else 0) =
        if (c.eligible q)[k']? = some o then carried s k' else 0 := fun k' hk' => by
    rw [h k' (Finset.ne_of_mem_erase hk')]
  have hnew := Finset.add_sum_erase _
    (fun k' => if (c.eligible q)[k']? = some o then carried s' k' else 0) hmem
  have hold := Finset.add_sum_erase _
    (fun k' => if (c.eligible q)[k']? = some o then carried s k' else 0) hmem
  rw [Finset.sum_congr rfl hrest] at hnew
  simp only [hk, if_true] at hnew hold
  unfold onTheWay
  omega

omit [DecidableEq N] in
lemma carried_setPull {i : ℕ} {p p' : PullCall N Row} (hp : s.pull[i]? = some p)
    (hthread : s'.thread = s.thread) (hpull : s'.pull = s.pull.set i p') (k : ℕ) :
    carried s' k =
      if s.thread k = .pulling i then (stageRows p'.stage).length else carried s k := by
  have hlt := (List.getElem?_eq_some_iff.mp hp).1
  unfold carried
  rw [hthread, hpull]
  cases ht : s.thread k with
  | pulling j =>
    by_cases hij : i = j
    · subst hij
      simp [hlt]
    · simp [List.getElem?_set_ne hij, Ne.symm hij]
  | _ => simp

omit [DecidableEq N] in
lemma carried_update {k k' : ℕ} {pc : ThreadPc} (hsh : Threads c q s)
    (hthread : s'.thread = Function.update s.thread k pc)
    (hpull : ∀ i < s.pull.length, s'.pull[i]? = s.pull[i]?) (hk : k' ≠ k) :
    carried s' k' = carried s k' := by
  unfold carried
  rw [hthread, Function.update_of_ne hk]
  cases ht : s.thread k' with
  | pulling i =>
    obtain ⟨o, stage, -, hi⟩ := hsh.pulling k' i ht
    simp only
    rw [hpull i (List.getElem?_eq_some_iff.mp hi).1]
  | _ => rfl

/-! ### Each waits for a call of its own -/

omit [DecidableEq N] in
lemma Apart.update (h : Apart s) {k : ℕ} {pc : ThreadPc}
    (hthread : s'.thread = Function.update s.thread k pc)
    (hpc : ∀ i, pc = .pulling i → ∀ k', s.thread k' ≠ .pulling i) : Apart s' := by
  intro k₁ k₂ i h1 h2
  rw [hthread] at h1 h2
  by_cases hk1 : k₁ = k
  · by_cases hk2 : k₂ = k
    · rw [hk1, hk2]
    · rw [hk1, Function.update_self] at h1
      rw [Function.update_of_ne hk2] at h2
      exact absurd h2 (hpc i h1 k₂)
  · rw [Function.update_of_ne hk1] at h1
    by_cases hk2 : k₂ = k
    · rw [hk2, Function.update_self] at h2
      exact absurd h1 (hpc i h2 k₁)
    · rw [Function.update_of_ne hk2] at h2
      exact h k₁ k₂ i h1 h2

lemma apart_step (hsh : Threads c q s) (hst : Steps c q s a s') (h : Apart s) : Apart s' := by
  cases hst with
  | submit hst =>
    cases hst with
    | spawn => exact h.update rfl (by simp)
    | _ => exact h
  | forward hst => cases hst <;> exact h
  | produce => exact h
  | @prefetch k act s' hst =>
    cases hst with
    | issue =>
      refine h.update rfl fun i hi k' hk' => ?_
      obtain rfl := ThreadPc.pulling.inj hi
      obtain ⟨o, stage, -, hp⟩ := hsh.pulling k' _ hk'
      exact absurd (List.getElem?_eq_some_iff.mp hp).1 (Nat.lt_irrefl _)
    | @receive o o' i out isLast =>
      refine h.update rfl fun i hi => ?_
      split at hi <;> cases hi
    | _ => exact h.update rfl (by simp)
  | pull hst =>
    rw [pulls_frame hst]
    exact h
  | fetch hst => cases hst <;> exact h
  | cancelQuery => exact h
  | cancel hst =>
    rw [cancels_frame hst]
    exact h

lemma apart_of_reach {G : Sys N Row → Act N → Prop} (h : Reach (step c q) G (init N Row) s) :
    Apart s :=
  h.invariant (I := Apart) (fun _ _ _ h1 => by cases h1) fun _ _ _ hr hi _ hst =>
    apart_step (shape_of_reach hr).threads (steps_of_step hst) hi

/-! ### The rows of an owner -/

/-- The rows that are on their way to the client, or there. -/
def out (c : Config N Query Row) (q : Query) (s : Sys N Row) (o : N) : ℕ :=
  (itemsOf s.log o).length + (s.gate.prefetchBuf o).length + onTheWay c q s o

/-- The owner registers the request once, and the rows that are out, and those in its buffer,
are no more than it has made. -/
structure Accounts (c : Config N Query Row) (q : Query) (o : N) (s : Sys N Row) : Prop where
  once : (s.node o).gens ≤ 1
  kept : 0 < (s.node o).gens → (s.node o).table = none →
    ∃ p ∈ s.pull, p.owner = o ∧ served p.stage = true
  found : ∀ i g : ℕ, s.pull[i]? = some ⟨o, .found g⟩ → g = 0 ∧ 0 < (s.node o).gens
  unmade : (s.node o).gens = 0 → out c q s o = 0
  rows : 0 < (s.node o).gens →
    out c q s o + ((s.node o).obj 0).matched.length ≤ made (s.node o) 0

/-- A step that leaves the entry and the calls of the owner alone, and puts no row out. -/
lemma Accounts.frame (h : Accounts c q o s) (hnode : s'.node o = s.node o)
    (hpull : s'.pull = s.pull) (hout : out c q s' o ≤ out c q s o) : Accounts c q o s' where
  once := hnode ▸ h.once
  kept := by
    rw [hnode, hpull]
    exact h.kept
  found := by
    rw [hnode, hpull]
    exact h.found
  unmade h0 := by
    have := h.unmade (hnode ▸ h0)
    omega
  rows hpos := by
    have hrows := h.rows (hnode ▸ hpos)
    rw [hnode]
    omega

lemma out_le_of_thread {k : ℕ} {pc : ThreadPc} (hsh : Threads c q s)
    (hthread : s'.thread = Function.update s.thread k pc)
    (hpull : ∀ i < s.pull.length, s'.pull[i]? = s.pull[i]?)
    (hlog : s'.log = s.log) (hslot : s'.gate.prefetchBuf o = s.gate.prefetchBuf o)
    (hk : carried s' k = 0) : out c q s' o ≤ out c q s o := by
  have hothers : ∀ k' ≠ k, carried s' k' = carried s k' := fun k' hk' =>
    carried_update hsh hthread hpull hk'
  unfold out
  rw [hlog, hslot]
  by_cases ho : (c.eligible q)[k]? = some o
  · have hsum : onTheWay c q s' o + carried s k = onTheWay c q s o + carried s' k :=
      onTheWay_update ho hothers
    omega
  · refine Nat.add_le_add_left (Nat.le_of_eq (onTheWay_congr fun k' hk' => hothers k' ?_)) _
    rintro rfl
    exact ho hk'

lemma accounts_prefetch {k : ℕ} {act : PrefetchAct} (hsh : Shape c q s)
    (hst : Prefetches c q s k act s') (h : Accounts c q o s) : Accounts c q o s' := by
  have hidle : ∀ {t : Sys N Row} {pc : ThreadPc}, t.thread = Function.update s.thread k pc →
      t.pull = s.pull → t.log = s.log → t.gate.prefetchBuf o = s.gate.prefetchBuf o →
      (∀ i, pc ≠ .pulling i) → out c q t o ≤ out c q s o := by
    intro t pc hthread hpull hlog hslot hpc
    refine out_le_of_thread hsh.threads hthread (fun i _ => by rw [hpull]) hlog hslot ?_
    unfold carried
    rw [hthread, Function.update_self]
    cases pc with
    | pulling i => exact absurd rfl (hpc i)
    | _ => rfl
  cases hst with
  | start => exact h.frame rfl rfl (hidle rfl rfl rfl rfl (by simp))
  | noHop => exact h.frame rfl rfl (hidle rfl rfl rfl rfl (by simp))
  | stop => exact h.frame rfl rfl (hidle rfl rfl rfl rfl (by simp))
  | expired => exact h.frame rfl rfl (hidle rfl rfl rfl rfl (by simp))
  | refused => exact h.frame rfl rfl (hidle rfl rfl rfl rfl (by simp))
  | timeout => exact h.frame rfl rfl (hidle rfl rfl rfl rfl (by simp))
  | failed => exact h.frame rfl rfl (hidle rfl rfl rfl rfl (by simp))
  | @issue o' hop hk =>
    have hissue : out c q { s.setThread k (.pulling s.pull.length) with
        pull := s.pull ++ [⟨o', .at hop⟩] } o ≤ out c q s o := by
      refine out_le_of_thread hsh.threads rfl (fun i hi => ?_) rfl rfl ?_
      · exact List.getElem?_append_left hi
      · simp [carried, Sys.setThread, stageRows]
    refine ⟨h.once, fun hpos ht => ?_, fun i g hi => ?_, fun h0 => ?_, fun hpos => ?_⟩
    · obtain ⟨p, hp, hrest⟩ := h.kept hpos ht
      exact ⟨p, List.mem_append_left _ hp, hrest⟩
    · rw [getElem?_snoc] at hi
      split at hi
      next => cases hi
      next => exact h.found i g hi
    · have hzero := h.unmade h0
      exact Nat.eq_zero_of_le_zero (hissue.trans hzero.le)
    · have hrows := h.rows hpos
      exact (Nat.add_le_add_right hissue _).trans hrows
  | @receive o' o'' i rows isLast hk ht hp =>
    have hnew : carried (s.gotChunk k o' rows isLast) k = 0 := by
      unfold carried Sys.gotChunk
      rw [setThread_self]
      cases isLast <;> rfl
    refine h.frame rfl rfl ?_
    by_cases ho : o = o'
    · -- the rows of the call go into the slot
      subst ho
      have hold : carried s k = rows.length := by simp [carried, ht, hp, stageRows]
      have hsum : onTheWay c q (s.gotChunk k o rows isLast) o + carried s k =
          onTheWay c q s o + carried (s.gotChunk k o rows isLast) k :=
        onTheWay_update hk fun k' hk' => carried_update hsh.threads rfl (fun _ _ => rfl) hk'
      have hslot : ((s.gotChunk k o rows isLast).gate.prefetchBuf o).length =
          (s.gate.prefetchBuf o).length + rows.length := by simp [Sys.gotChunk]
      have hlog : (s.gotChunk k o rows isLast).log = s.log := rfl
      unfold out
      rw [hslot, hlog]
      omega
    · exact out_le_of_thread hsh.threads rfl (fun _ _ => rfl) rfl
        (Function.update_of_ne ho _ _) hnew

/-! ### Calls that move on -/

lemma onTheWay_setPull {i : ℕ} {o' : N} {stage stage' : PullStage N Row} (hsh : Threads c q s)
    (hapart : Apart s) (hp : s.pull[i]? = some ⟨o', stage⟩) (hthread : s'.thread = s.thread)
    (hpull : s'.pull = s.pull.set i ⟨o', stage'⟩) {n : ℕ}
    (hn : (stageRows stage').length = (stageRows stage).length + n) :
    onTheWay c q s' o ≤ onTheWay c q s o + if o' = o then n else 0 := by
  have hcarried := carried_setPull hp hthread hpull
  by_cases hw : ∃ k, s.thread k = .pulling i
  · obtain ⟨k, hk⟩ := hw
    obtain ⟨o'', st, hown, hp'⟩ := hsh.pulling k i hk
    obtain rfl : o' = o'' := congrArg PullCall.owner (Option.some.inj (hp.symm.trans hp'))
    have hothers : ∀ k' ≠ k, carried s' k' = carried s k' := fun k' hk' => by
      rw [hcarried, if_neg fun ht => hk' (hapart k' k i ht hk)]
    by_cases ho : o' = o
    · subst ho
      have hnew : carried s' k = (stageRows stage').length := by rw [hcarried, if_pos hk]
      have hold : carried s k = (stageRows stage).length := by simp [carried, hk, hp]
      have hsum : onTheWay c q s' o' + carried s k = onTheWay c q s o' + carried s' k :=
        onTheWay_update hown hothers
      rw [if_pos rfl]
      omega
    · rw [if_neg ho, Nat.add_zero]
      refine Nat.le_of_eq (onTheWay_congr fun k' hk' => hothers k' ?_)
      rintro rfl
      exact ho (Option.some.inj (hown.symm.trans hk'))
  · refine (Nat.le_of_eq (onTheWay_congr fun k _ => ?_)).trans (Nat.le_add_right _ _)
    rw [hcarried, if_neg fun ht => hw ⟨k, ht⟩]

omit [DecidableEq N] in
lemma served_setPull {i : ℕ} {o' : N} {stage stage' : PullStage N Row}
    (hp : s.pull[i]? = some ⟨o', stage⟩) (hpull : s'.pull = s.pull.set i ⟨o', stage'⟩)
    (hserved : served stage = true → served stage' = true)
    (h : ∃ p ∈ s.pull, p.owner = o ∧ served p.stage = true) :
    ∃ p ∈ s'.pull, p.owner = o ∧ served p.stage = true := by
  obtain ⟨p, hmem, ho, hs⟩ := h
  obtain ⟨j, hj⟩ := List.getElem?_of_mem hmem
  by_cases hij : i = j
  · subst hij
    obtain rfl := Option.some.inj (hp.symm.trans hj)
    refine ⟨⟨o', stage'⟩, ?_, ho, hserved hs⟩
    rw [hpull]
    exact List.mem_iff_getElem?.mpr
      ⟨i, List.getElem?_set_self (List.getElem?_eq_some_iff.mp hp).1⟩
  · refine ⟨p, ?_, ho, hs⟩
    rw [hpull]
    exact List.mem_iff_getElem?.mpr ⟨j, by rw [List.getElem?_set_ne hij, hj]⟩

lemma Accounts.take (h : Accounts c q o s) (hsh : Shape c q s) (hapart : Apart s) {i n : ℕ}
    {o' : N} {stage stage' : PullStage N Row} {e : Entry Row}
    (hp : s.pull[i]? = some ⟨o', stage⟩) (hserved : served stage = true → served stage' = true)
    (hrows : (stageRows stage').length = (stageRows stage).length + n)
    (hfound : ∀ g, stage' = .found g → (s.node o').table = some g)
    (hgens : e.gens = (s.node o').gens) (hmade : made e 0 = made (s.node o') 0)
    (htable : e.table = (s.node o').table ∨ served stage' = true)
    (hbuf : o' = o → (n = 0 ∨ 0 < (s.node o').gens) ∧
      (e.obj 0).matched.length + n ≤ ((s.node o').obj 0).matched.length) :
    Accounts c q o ((s.setNode o' e).setPull i ⟨o', stage'⟩) := by
  have hthread : ((s.setNode o' e).setPull i ⟨o', stage'⟩).thread = s.thread := rfl
  have hway := onTheWay_setPull (o := o) hsh.threads hapart hp hthread rfl hrows
  have hle : out c q ((s.setNode o' e).setPull i ⟨o', stage'⟩) o ≤
      out c q s o + if o' = o then n else 0 := by
    have hadd := Nat.add_le_add_left hway
      ((itemsOf s.log o).length + (s.gate.prefetchBuf o).length)
    rwa [← Nat.add_assoc] at hadd
  have hlt := (List.getElem?_eq_some_iff.mp hp).1
  have hself : (s.pull.set i ⟨o', stage'⟩)[i]? = some ⟨o', stage'⟩ := List.getElem?_set_self hlt
  have hnode : ((s.setNode o' e).setPull i ⟨o', stage'⟩).node o =
      if o' = o then e else s.node o := by
    by_cases ho : o' = o
    · subst ho
      simp [Sys.setPull]
    · rw [if_neg ho]
      exact setNode_ne s (Ne.symm ho) e
  have hgens' : (((s.setNode o' e).setPull i ⟨o', stage'⟩).node o).gens = (s.node o).gens := by
    rw [hnode]
    split
    next ho => exact hgens.trans (congrArg _ (congrArg s.node ho))
    next => rfl
  refine ⟨hgens' ▸ h.once, fun hpos ht => ?_, fun j g hj => ?_, fun h0 => ?_, fun hpos => ?_⟩
  · rw [hgens'] at hpos
    rw [hnode] at ht
    split at ht
    next ho =>
      subst ho
      rcases htable with htable | hserved'
      · exact served_setPull hp rfl hserved (h.kept hpos (htable ▸ ht))
      · exact ⟨_, List.mem_iff_getElem?.mpr ⟨i, hself⟩, rfl, hserved'⟩
    next => exact served_setPull hp rfl hserved (h.kept hpos ht)
  · rw [hgens']
    by_cases hij : i = j
    · subst hij
      obtain ⟨rfl, rfl⟩ := PullCall.mk.inj (Option.some.inj (hself.symm.trans hj))
      have htab := (hsh.entries o').table g (hfound g rfl)
      have hone := h.once
      omega
    · refine h.found j g ?_
      rw [← hj]
      exact (List.getElem?_set_ne hij).symm
  · rw [hgens'] at h0
    have hzero := h.unmade h0
    split at hle
    next ho =>
      have hn := (hbuf ho).1
      subst ho
      omega
    next => omega
  · rw [hgens'] at hpos
    have hold := h.rows hpos
    rw [hnode]
    split at hle
    next ho =>
      have hn := (hbuf ho).2
      subst ho
      rw [if_pos rfl, hmade]
      omega
    next ho =>
      rw [if_neg ho]
      omega

lemma Accounts.move (h : Accounts c q o s) (hsh : Shape c q s) (hapart : Apart s) {i : ℕ}
    {o' : N} {stage stage' : PullStage N Row} (hp : s.pull[i]? = some ⟨o', stage⟩)
    (hserved : served stage = true → served stage' = true)
    (hrows : (stageRows stage').length = (stageRows stage).length)
    (hfound : ∀ g, stage' = .found g → (s.node o').table = some g) :
    Accounts c q o (s.setPull i ⟨o', stage'⟩) := by
  have hsame : s.setNode o' (s.node o') = s := by simp [Sys.setNode]
  have htake := h.take hsh hapart (n := 0) hp hserved hrows hfound (e := s.node o') rfl rfl
    (.inl rfl) fun _ => ⟨.inl rfl, Nat.le_refl _⟩
  rwa [hsame] at htake

lemma accounts_pull {i : ℕ} {act : PullAct} (hsh : Shape c q s) (hapart : Apart s)
    (hst : Pulls c s i act s') (h : Accounts c q o s) : Accounts c q o s' := by
  cases hst with
  | relay hp => exact h.move hsh hapart hp (by simp [served]) rfl (by simp)
  | noRoute hp => exact h.move hsh hapart hp (by simp [served]) rfl (by simp)
  | missing hp => exact h.move hsh hapart hp (by simp [served]) rfl (by simp)
  | found hp ht =>
    refine h.move hsh hapart hp (by simp [served]) rfl fun g hg => ?_
    obtain rfl := PullStage.found.inj hg
    exact ht
  | @pop o' g hp maxRows =>
    refine h.take hsh hapart hp (fun _ => rfl) (Nat.zero_add _).symm (by simp) rfl
      (made_pop g _ 0) (.inl rfl) fun ho => ?_
    subst ho
    obtain ⟨rfl, hpos⟩ := h.found i g hp
    refine ⟨.inr hpos, ?_⟩
    rw [pop_matched, if_pos rfl]
    simp only [stageRows, List.length_drop, List.length_take]
    omega
  | load hp => exact h.move hsh hapart hp (fun _ => rfl) rfl (by simp)
  | decide hp => exact h.move hsh hapart hp (fun _ => rfl) rfl (by simp)
  | more hp => exact h.move hsh hapart hp (fun _ => rfl) rfl (by simp)
  | last hp =>
    exact h.take hsh hapart (n := 0) hp (fun _ => rfl) rfl (by simp) rfl rfl (.inr rfl)
      fun _ => ⟨.inl rfl, Nat.le_refl _⟩
  | erase hp =>
    exact h.take hsh hapart (n := 0) hp (fun _ => rfl) rfl (by simp) rfl rfl (.inr rfl)
      fun _ => ⟨.inl rfl, Nat.le_refl _⟩
  | unschedule hp =>
    exact h.take hsh hapart (n := 0) hp (fun _ => rfl) rfl (by simp) rfl rfl (.inl rfl)
      fun _ => ⟨.inl rfl, Nat.le_refl _⟩

/-! ### Every step -/

lemma accounts_register (hsh : Shape c q s) (h : Accounts c q o s)
    (hun : (s.node o).table = none → ∀ p ∈ s.pull, p.owner = o → served p.stage = false)
    (hnode : s'.node o = registerRequest (c.shard o) q 1 (s.node o)) (hpull : s'.pull = s.pull)
    (hout : out c q s' o = out c q s o) : Accounts c q o s' := by
  cases ht : (s.node o).table with
  | some g =>
    have hsame : registerRequest (c.shard o) q 1 (s.node o) = s.node o := by
      simp [registerRequest, ht]
    exact h.frame (hnode.trans hsame) hpull hout.le
  | none =>
    have h0 : (s.node o).gens = 0 := by
      by_contra hne
      obtain ⟨p, hp, ho, hserved⟩ := h.kept (Nat.pos_of_ne_zero hne) ht
      rw [hun ht p hp ho] at hserved
      cases hserved
    obtain ⟨hgens, hmade, hbuf⟩ := register_new (hsh.entries o) (w := 1) ht
    rw [h0] at hgens hmade hbuf
    refine ⟨?_, fun _ htab => ?_, fun i g hi => ?_, fun hz => ?_, fun _ => ?_⟩
    · rw [hnode]
      omega
    · rw [hnode] at htab
      exact absurd htab (registerRequest_table _ _ _ _)
    · rw [hpull] at hi
      have hpos := (h.found i g hi).2
      omega
    · rw [hnode] at hz
      omega
    · rw [hnode, hmade, hbuf, hout, h.unmade h0]
      exact Nat.le_refl _

lemma accounts_produce {act : ProdAct} {n : N} {e' : Entry Row} (hsh : Shape c q s)
    (hst : prodStep (c.shard n) (c.overlay.impl n) c.overlay.maxRows (s.node n) act = some e')
    (h : Accounts c q o s) : Accounts c q o (s.setNode n e') := by
  by_cases hn : n = o
  · subst hn
    have hm := (prodStep_spec (hsh.entries n) hst).2
    have hnode : (s.setNode n e').node n = e' := setNode_self s n e'
    have hout : out c q (s.setNode n e') n = out c q s n := rfl
    refine ⟨?_, fun hpos ht => ?_, fun i g hi => ?_, fun h0 => ?_, fun hpos => ?_⟩
    · rw [hnode, hm.gens]
      exact h.once
    · rw [hnode] at hpos ht
      rw [hm.gens] at hpos
      rw [hm.table] at ht
      exact h.kept hpos ht
    · rw [hnode, hm.gens]
      exact h.found i g hi
    · rw [hnode, hm.gens] at h0
      rw [hout]
      exact h.unmade h0
    · rw [hnode, hm.gens] at hpos
      have hrows := h.rows hpos
      rw [hnode, hout]
      rcases hm.made 0 hpos with ⟨hmade, hbuf⟩ | ⟨r, -, hmade, hbuf, -⟩
      · rw [hmade, hbuf]
        exact hrows
      · rw [hmade, hbuf, List.length_append, List.length_singleton]
        omega
  · exact h.frame (setNode_ne s (Ne.symm hn) e') rfl (Nat.le_refl _)

lemma accounts_step (hsh : Shape c q s) (hapart : Apart s) (ho : o ≠ c.gateway)
    (ht : Timely s a) (hnil : s.cancel = []) (hst : Steps c q s a s') (h : Accounts c q o s) :
    Accounts c q o s' := by
  cases hst with
  | submit hst =>
    cases hst with
    | register => exact h.frame (setNode_ne s ho _) rfl (Nat.le_refl _)
    | @spawn k o' hs hk =>
      refine h.frame rfl rfl (out_le_of_thread hsh.threads rfl (fun _ _ => rfl) rfl rfl ?_)
      simp [carried, Sys.setThread]
    | _ => exact h.frame rfl rfl (Nat.le_refl _)
  | forward hst =>
    cases hst with
    | @register o' r ttl hf httl =>
      by_cases hoo : o' = o
      · subst hoo
        exact accounts_register hsh h (ht _ hf (by simp [arrived, httl]))
          (setNode_self s o' _) rfl rfl
      · exact h.frame (setNode_ne s (Ne.symm hoo) _) rfl (Nat.le_refl _)
    | _ => exact h.frame rfl rfl (Nat.le_refl _)
  | produce hst => exact accounts_produce hsh hst h
  | prefetch hst => exact accounts_prefetch hsh hst h
  | pull hst => exact accounts_pull hsh hapart hst h
  | fetch hst =>
    cases hst with
    | drain maxRows =>
      refine h.frame (setNode_ne s ho _) rfl ?_
      have hslot := congrArg List.length (drain_slot (c := c) s maxRows ho)
      rw [List.length_append] at hslot
      have hlog : (itemsOf (drainStep c s maxRows).log o).length = (itemsOf s.log o).length +
          (itemsOf (drain maxRows (sources c) (s.slots c)).taken o).length := by
        simp [drainStep]
      show (itemsOf (drainStep c s maxRows).log o).length +
        ((drainStep c s maxRows).gate.prefetchBuf o).length + onTheWay c q s o ≤ _
      unfold out
      omega
    | erase => exact h.frame (setNode_ne s ho _) rfl (Nat.le_refl _)
    | erased => exact h.frame (setNode_ne s ho _) rfl (Nat.le_refl _)
    | _ => exact h.frame rfl rfl (Nat.le_refl _)
  | cancelQuery => exact h.frame rfl rfl (Nat.le_refl _)
  | cancel hst => exact absurd hnil (cancel_ne_nil hst)

/-- **The rows out of an owner's buffer are no more than it has made**, in every run without
cancellation in which no owner registers the request after it has begun to serve. -/
theorem accounts_of_reach {G : Sys N Row → Act N → Prop} (ho : o ≠ c.gateway)
    (hG : ∀ s a, G s a → Timely s a ∧ a ≠ .cancelQuery)
    (h : Reach (step c q) G (init N Row) s) : Accounts c q o s := by
  refine h.invariant (I := Accounts c q o) ?_ fun s a s' hr hi hg hst => ?_
  · refine ⟨Nat.zero_le _, fun hpos => absurd hpos (Nat.lt_irrefl 0), fun i g hi => ?_,
      fun _ => ?_, fun hpos => absurd hpos (Nat.lt_irrefl 0)⟩
    · simp [init] at hi
    · simp [out, onTheWay, carried, init]
  · exact accounts_step (shape_of_reach hr) (apart_of_reach hr) ho (hG s a hg).1
      (cancel_eq_nil (fun s a hg => (hG s a hg).2) hr) (steps_of_step hst) hi

/-- The client gets no more rows of an owner than it lists. -/
theorem log_le {G : Sys N Row → Act N → Prop} (ho : o ≠ c.gateway)
    (hG : ∀ s a, G s a → Timely s a ∧ a ≠ .cancelQuery)
    (h : Reach (step c q) G (init N Row) s) :
    (itemsOf s.log o).length ≤ ((c.shard o).matchRows q).length := by
  have hacc := accounts_of_reach ho hG h
  have hok := (shape_of_reach h).entries o
  rcases Nat.eq_zero_or_pos (s.node o).gens with h0 | hpos
  · have hout := hacc.unmade h0
    unfold out at hout
    omega
  · have hrows := hacc.rows hpos
    have hmade := hok.made_le hpos
    unfold out at hrows
    omega

end Mini2.Budget
