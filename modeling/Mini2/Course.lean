import Mini2.ExactlyOnce

/-!
How far `SubmitQuery` has come, when every call is answered and every owner is near, and what
follows from that for the owners, their flags and their prefetchers.
-/

namespace Mini2.Course

open Mini2.Proto Mini2.Net Mini2.Request Mini2.Producer Mini2.Gather Mini2.GatherSteps
open Mini2.GatherShape Mini2.Runs Mini2.Lane Mini2.Finish Mini2.Forwarded Mini2.Delivery
open Mini2.ExactlyOnce

variable {N Query Row : Type}

/-- The phases of `SubmitQuery`; a call that has failed never leaves the first one behind. -/
def phase : SubmitPc → ℕ
  | .idle => 0
  | .failed => 0
  | .registered => 1
  | .forwarding _ _ => 2
  | .awaiting _ _ _ => 2
  | .spawning _ => 3
  | .returned => 4

def spot : SubmitPc → ℕ
  | .forwarding k _ => 2 * k
  | .awaiting k _ _ => 2 * k + 1
  | .spawning k => k
  | _ => 0

/-- The `k`-th owner has been sent its forward. -/
def Asked (pc : SubmitPc) (k : ℕ) : Prop :=
  phase pc = 2 ∧ 2 * k + 1 ≤ spot pc ∨ 3 ≤ phase pc

/-- `SubmitQuery` has spawned the prefetcher of the `k`-th owner, or has passed it over. -/
def Passed (pc : SubmitPc) (k : ℕ) : Prop := phase pc = 3 ∧ k < spot pc ∨ phase pc = 4

structure OnCourse (c : Config N Query Row) (q : Query) (s : Sys N Row) : Prop where
  forwarding : ∀ k a, s.submit = .forwarding k a → k ≤ (c.eligible q).length
  spawning : ∀ k, s.submit = .spawning k → k ≤ (c.eligible q).length
  marked : 2 ≤ phase s.submit → s.gate.eligibleOwners = (c.eligible q).length ∧
    (c.gateway ∈ c.eligible q → c.gateway ∈ s.gate.ownersResponded) ∧
    ∀ o ∈ c.overlay.dataOwners, o ∉ c.eligible q → s.gate.clientProducersDone o = true
  promoted : ∀ o ∈ c.eligible q, o ≠ c.gateway → s.gate.clientProducersDone o = true →
    s.gate.prefetchDone o = true
  known : ∀ o, o ≠ c.gateway → 0 < (s.node o).gens →
    ∃ k, (c.eligible q)[k]? = some o ∧ Asked s.submit k
  spawned : ∀ k o, (c.eligible q)[k]? = some o → o ≠ c.gateway → Passed s.submit k →
    s.thread k ≠ .absent

variable [DecidableEq N] {c : Config N Query Row} {q : Query} {s s' : Sys N Row} {a : Act N}

omit [DecidableEq N] in
lemma onCourse_init : OnCourse c q (init N Row) where
  forwarding k a hs := by cases hs
  spawning k hs := by cases hs
  marked hp := absurd hp (by simp [init, phase])
  promoted o _ _ hd := by cases hd
  known o _ hpos := absurd hpos (Nat.lt_irrefl 0)
  spawned k o _ _ hp := by rcases hp with ⟨hp, -⟩ | hp <;> cases hp

/-! ### One step -/

lemma bounds_step (hok : AllAnswered a) (hst : Steps c q s a s') (h : OnCourse c q s)
    (hf : Forwarded.Forwards c q s) :
    (∀ k a, s'.submit = .forwarding k a → k ≤ (c.eligible q).length) ∧
      ∀ k, s'.submit = .spawning k → k ≤ (c.eligible q).length := by
  by_cases ha : ∃ act, a = .submit act
  · obtain ⟨act, rfl⟩ := ha
    have hnext : ∀ {k : ℕ} {o : N}, (c.eligible q)[k]? = some o → k + 1 ≤ (c.eligible q).length :=
      fun hk => (List.getElem?_eq_some_iff.mp hk).1
    have hawait : ∀ {k a f : ℕ}, s.submit = .awaiting k a f → k + 1 ≤ (c.eligible q).length := by
      intro k a f hs
      obtain ⟨p, -, hk⟩ := hf.awaiting k a f hs
      exact hnext hk
    cases hst with
    | submit hst =>
      cases hst with
      | itself _ hk => exact ⟨by simpa using hnext hk, by simp⟩
      | delivered hs => exact ⟨by simpa using hawait hs, by simp⟩
      | retry hs => exact ⟨by simpa using Nat.le_of_succ_le (hawait hs), by simp⟩
      | dead hs => exact ⟨by simpa using hawait hs, by simp⟩
      | relayFailed hs => exact ⟨by simpa using hawait hs, by simp⟩
      | skip _ hk => exact ⟨by simp, by simpa using hnext hk⟩
      | spawn _ hk => exact ⟨by simp, by simpa using hnext hk⟩
      | _ => exact ⟨by simp, by simp⟩
  · have hsub := submit_eq hst fun act ha' => ha ⟨act, ha'⟩
    rw [hsub]
    exact ⟨h.forwarding, h.spawning⟩

lemma marked_step (hst : Steps c q s a s') (h : OnCourse c q s) (hp : 2 ≤ phase s'.submit) :
    s'.gate.eligibleOwners = (c.eligible q).length ∧
      (c.gateway ∈ c.eligible q → c.gateway ∈ s'.gate.ownersResponded) ∧
      ∀ o ∈ c.overlay.dataOwners, o ∉ c.eligible q → s'.gate.clientProducersDone o = true := by
  by_cases hmark : a = .submit .mark
  · subst hmark
    cases hst with
    | submit hst =>
      cases hst with
      | mark =>
        refine ⟨rfl, fun hg => by simp [Sys.marked, hg], fun o ho he => ?_⟩
        simp [Sys.marked, ho, he]
      | retry _ _ _ ha => rcases ha with ⟨ha, -⟩ | ha <;> cases ha
      | dead _ _ _ ha => rcases ha with ⟨ha, -⟩ | ha <;> cases ha
  · have hold : 2 ≤ phase s.submit := by
      by_cases ha : ∃ act, a = .submit act
      · obtain ⟨act, rfl⟩ := ha
        cases hst with
        | submit hst =>
          cases hst with
          | register => simp [phase] at hp
          | refuse => simp [phase] at hp
          | throws => simp [phase] at hp
          | mark => exact absurd rfl hmark
          | loopEnd hs | itself hs | call hs | delivered hs | retry hs | dead hs
          | relayFailed hs | spawnEnd hs | skip hs | spawn hs => rw [hs]; simp [phase]
      · rwa [submit_eq hst fun act ha' => ha ⟨act, ha'⟩] at hp
    obtain ⟨hn, hg, hd⟩ := h.marked hold
    refine ⟨?_, fun he => responded_mono hst (hg he), fun o ho he => ?_⟩
    · rw [← hn]
      cases hst with
      | submit hst =>
        cases hst with
        | mark => exact absurd rfl hmark
        | _ => rfl
      | forward hst => cases hst <;> rfl
      | produce => rfl
      | prefetch hst => cases hst <;> rfl
      | pull hst => rw [pulls_frame hst]
      | fetch hst => cases hst <;> rfl
      | cancelQuery => rfl
      | cancel hst => rw [cancels_frame hst]
    · exact done_mono hmark hst (hd o ho he)

lemma promoted_step (hok : AllAnswered a) (hst : Steps c q s a s') (h : OnCourse c q s)
    (htold : Told c q s) {o : N} (ho : o ∈ c.eligible q) (hne : o ≠ c.gateway) (hn : Near c o)
    (hd : s'.gate.clientProducersDone o = true) : s'.gate.prefetchDone o = true := by
  have hold : s.gate.clientProducersDone o = true → s.gate.prefetchDone o = true :=
    h.promoted o ho hne
  cases hst with
  | submit hst =>
    have hkept := hold (kept_of_told htold hok.forwardsAnswered hst ho hn hd)
    cases hst <;> exact hkept
  | forward hst => cases hst <;> exact hold hd
  | produce => exact hold hd
  | prefetch hst =>
    have hfail : ∀ {o' : N} {k : ℕ}, (s.failThread k o').gate.clientProducersDone o = true →
        (s.failThread k o').gate.prefetchDone o = true := by
      intro o' k hd
      by_cases hoo : o = o'
      · subst hoo
        exact Function.update_self ..
      · have hd' : s.gate.clientProducersDone o = true := by
          rwa [show (s.failThread k o').gate.clientProducersDone o = _ from
            Function.update_of_ne hoo _ _] at hd
        exact (Function.update_of_ne hoo _ _).trans (hold hd')
    cases hst with
    | noHop => exact hfail hd
    | refused => exact hfail hd
    | failed => exact hfail hd
    | @receive o' o'' i out isLast =>
      have hp := hold hd
      simp only [Sys.gotChunk]
      split
      · by_cases hoo : o = o'
        · subst hoo
          exact Function.update_self ..
        · exact (Function.update_of_ne hoo _ _).trans hp
      · exact hp
    | _ => exact hold hd
  | pull hst =>
    rw [pulls_frame hst] at hd ⊢
    exact hold hd
  | fetch hst =>
    cases hst with
    | drain maxRows =>
      have hmem := (c.eligible_sublist q).subset ho
      simp only [drainStep, if_neg hne, if_pos hmem, Bool.or_eq_true, Bool.and_eq_true] at hd
      rcases hd with hd | ⟨hp, -⟩
      · exact hold hd
      · exact hp
    | _ => exact hold hd
  | cancelQuery => exact hold hd
  | cancel hst =>
    rw [cancels_frame hst] at hd ⊢
    exact hold hd

lemma hop_of_withinTtl (hr : WithinTtl c q) {o : N} (ho : o ∈ c.eligible q)
    (hne : o ≠ c.gateway) :
    ∃ hop, c.overlay.nextHop c.gateway o = .ok hop ∧ c.overlay.hasNode hop = true := by
  obtain ⟨h, -, hroute⟩ := hr o ho hne
  cases h with
  | zero => exact absurd hroute.symm hne
  | succ h =>
    obtain ⟨hop, htoward, -⟩ := hroute
    obtain ⟨-, hnext, -, hnode⟩ := toward_hop_iff.mp htoward
    exact ⟨hop, hnext, hnode⟩

lemma ok_of_answered (hf : Forwarded.Forwards c q s) {f : ℕ} {o : N} {r : Bool} {code : StatusCode}
    (h : s.fwd[f]? = some ⟨o, r, .answered code⟩) : code = .ok ∧ 0 < (s.node o).gens :=
  hf.arrives _ (List.mem_of_getElem? h)

lemma submit_forward {act : SubmitAct} (hr : WithinTtl c q)
    (hok : AllAnswered (.submit act : Act N))
    (hst : Submits c q s act s') (hf : Forwarded.Forwards c q s) :
    (∀ k, Asked s.submit k → Asked s'.submit k) ∧ ∀ k, Passed s.submit k → Passed s'.submit k := by
  unfold Asked Passed
  cases hst with
  | throws hs hk ho hn =>
    obtain ⟨hop, hnext, hnode⟩ := hop_of_withinTtl hr (List.mem_of_getElem? hk) ho
    rw [hn hop hnext] at hnode
    cases hnode
  | relayFailed => exact hok.elim
  | retry hs hf' hc ha =>
    rcases ha with ⟨rfl, rfl⟩ | rfl
    · exact absurd (ok_of_answered hf hf').1 hc
    · exact hok.elim
  | spawnEnd hs => exact ⟨fun _ _ => .inr (by simp [phase]), fun _ _ => .inr rfl⟩
  | register hs | refuse hs | mark hs | loopEnd hs | itself hs | call hs | delivered hs | dead hs
  | skip hs | spawn hs =>
    rw [hs]
    simp only [phase, spot, true_and]
    constructor <;> intro k hk <;> omega

lemma known_step (hr : WithinTtl c q) (hok : AllAnswered a) (hsh : Shape c q s)
    (hst : Steps c q s a s') (h : OnCourse c q s) (hf : Forwarded.Forwards c q s)
    (hpend : Pending s) {o : N} (hne : o ≠ c.gateway) (hpos : 0 < (s'.node o).gens) :
    ∃ k, (c.eligible q)[k]? = some o ∧ Asked s'.submit k := by
  have hmono : ∀ k, Asked s.submit k → Asked s'.submit k := by
    by_cases ha : ∃ act, a = .submit act
    · obtain ⟨act, rfl⟩ := ha
      cases hst with
      | submit hst => exact (submit_forward hr hok hst hf).1
    · rw [submit_eq hst fun act ha' => ha ⟨act, ha'⟩]
      exact fun _ => id
  have hold : 0 < (s.node o).gens → ∃ k, (c.eligible q)[k]? = some o ∧ Asked s'.submit k := by
    intro hpos
    obtain ⟨k, hk, hasked⟩ := h.known o hne hpos
    exact ⟨k, hk, hmono k hasked⟩
  by_cases hfwd : ∃ f r ttl, a = .forward f ∧ s.fwd[f]? = some ⟨o, r, .at o ttl⟩
  · -- it is the forward that `SubmitQuery` waits for
    obtain ⟨f, r, ttl, rfl, hget⟩ := hfwd
    obtain ⟨k, attempt, hs⟩ := hpend f _ o ttl hget rfl
    obtain ⟨p, hp, hk⟩ := hf.awaiting k attempt f hs
    obtain rfl := Option.some.inj (hget.symm.trans hp)
    refine ⟨k, hk, hmono k ?_⟩
    rw [hs]
    exact .inl ⟨rfl, le_rfl⟩
  · refine hold ?_
    rwa [gens_eq hst hsh.entries (fun _ => hne) fun f ha r ttl hget =>
      hfwd ⟨f, r, ttl, ha, hget⟩] at hpos

lemma thread_step (hst : Steps c q s a s') {k : ℕ} (h : s.thread k ≠ .absent) :
    s'.thread k ≠ .absent := by
  have hset : ∀ {k' : ℕ} {pc : ThreadPc}, pc ≠ .absent →
      Function.update s.thread k' pc k ≠ .absent := by
    intro k' pc hpc
    by_cases hk : k = k'
    · subst hk
      rwa [Function.update_self]
    · rwa [Function.update_of_ne hk]
  cases hst with
  | submit hst =>
    cases hst with
    | spawn => exact hset (by simp)
    | _ => exact h
  | forward hst => cases hst <;> exact h
  | produce => exact h
  | prefetch hst =>
    cases hst with
    | @receive _ _ _ _ isLast => cases isLast <;> exact hset (by simp)
    | _ => exact hset (by simp)
  | pull hst =>
    rw [pulls_frame hst]
    exact h
  | fetch hst => cases hst <;> exact h
  | cancelQuery => exact h
  | cancel hst =>
    rw [cancels_frame hst]
    exact h

lemma not_done_of_absent (h : OnCourse c q s) {o : N} {k : ℕ} (hl : IsLane c q o k)
    (hsound : Sound c q o True (lane o k s)) (ht : s.thread k = .absent) :
    s.gate.clientProducersDone o = false := by
  by_contra hd
  have hp := h.promoted o hl.mem hl.remote (Bool.eq_true_of_not_eq_false hd)
  have hret : s.thread k = .returned := (hsound.prefetchDone hp).1
  rw [ht] at hret
  cases hret

lemma spawned_step (hown : (c.eligible q).Nodup) (hsh : Shape c q s)
    (hst : Steps c q s a s') (h : OnCourse c q s)
    (hsound : ∀ o k, IsLane c q o k → Sound c q o True (lane o k s)) {o : N} {k : ℕ}
    (hk : (c.eligible q)[k]? = some o) (hne : o ≠ c.gateway) (hp : Passed s'.submit k) :
    s'.thread k ≠ .absent := by
  have hl : IsLane c q o k := ⟨hown, hk, hne⟩
  by_cases hpast : Passed s.submit k
  · exact thread_step hst (h.spawned k o hk hne hpast)
  by_cases ha : ∃ act, a = .submit act
  · obtain ⟨act, rfl⟩ := ha
    cases hst with
    | submit hst =>
      unfold Passed at hp hpast
      cases hst with
      | register hs | refuse hs | mark hs | itself hs | call hs | delivered hs | dead hs
      | throws hs | relayFailed hs | retry hs | loopEnd hs => simp [phase, spot] at hp
      | @spawnEnd k' hs hk' =>
        -- the loop has come to its end
        have hlt := (List.getElem?_eq_some_iff.mp hk).1
        have hle := List.getElem?_eq_none_iff.mp hk'
        rw [hs] at hpast
        simp only [phase, spot, true_and] at hpast
        omega
      | @skip k' o' hs hk' ho =>
        obtain rfl : k = k' := by
          rw [hs] at hpast
          simp only [phase, spot, true_and] at hp hpast
          omega
        obtain rfl := Option.some.inj (hk.symm.trans hk')
        have hd := not_done_of_absent h hl (hsound o k hl) (hsh.threads.absent_of_spawning hs)
        rcases ho with ho | ho
        · exact absurd ho hne
        · rw [hd] at ho
          cases ho
      | @spawn k' o' hs =>
        obtain rfl : k = k' := by
          rw [hs] at hpast
          simp only [phase, spot, true_and] at hp hpast
          omega
        simp [Sys.setThread]
  · rw [submit_eq hst fun act ha' => ha ⟨act, ha'⟩] at hp
    exact absurd hp hpast

/-! ### Runs -/

/-- **`SubmitQuery` is on course** in every run in which every call is answered, for owners that are
listed once and at most eight hops away. -/
theorem onCourse_of_reach (hown : (c.eligible q).Nodup) (hr : WithinTtl c q)
    (h : Reach (step c q) (fun _ a => AllAnswered a) (init N Row) s) : OnCourse c q s := by
  refine h.invariant onCourse_init fun s a s' hreach hi hok hst => ?_
  have hG : ∀ (s : Sys N Row) (a : Act N), AllAnswered a → ForwardsAnswered a :=
    fun _ _ ha => ha.forwardsAnswered
  have hst := steps_of_step hst
  have hsh := shape_of_reach hreach
  have hf := forwards_of_reach hr hG hreach
  have hsound : ∀ o k, IsLane c q o k → Sound c q o True (lane o k s) := fun o k hl =>
    sound_of_answered hl hr hG (notCancelled fun _ _ => id) (fun s a hs ha =>
      keepsRows_of_callsAwaited ha (callsAwaited_of_reach (fun _ _ => id) hs) o) hreach
  obtain ⟨hfor, hspawn⟩ := bounds_step hok hst hi hf
  exact
    { forwarding := hfor
      spawning := hspawn
      marked := marked_step hst hi
      promoted := fun o ho hne => promoted_step hok hst hi (told_of_reach hG hreach) ho hne
        (hr o ho hne)
      known := fun o hne => known_step hr hok hsh hst hi hf (pending_of_reach hG hreach) hne
      spawned := fun k o => spawned_step hown hsh hst hi hsound }

end Mini2.Course
