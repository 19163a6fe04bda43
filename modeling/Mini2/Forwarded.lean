import Mini2.LaneOnce
import Mini2.LaneSound

/-!
`SubmitQuery` when every call is answered: the forwards for the owners that are at most eight
hops away reach them, each before the next one is sent, and all of them before the first
`PullChunk`; the others reach nobody.
-/

namespace Mini2.Forwarded

open Mini2.Proto Mini2.Net Mini2.Request Mini2.Producer Mini2.Gather Mini2.GatherSteps
open Mini2.GatherShape Mini2.Lane Mini2.Runs

variable {N Query Row : Type} [DecidableEq N]

/-- No forward fails, at the gateway or behind it. -/
def ForwardsAnswered : Act N → Prop
  | .submit (.failed _) => False
  | .submit .relayFailed => False
  | _ => True

instance (a : Act N) : Decidable (ForwardsAnswered a) :=
  match a with
  | .submit (.failed _) | .submit .relayFailed => .isFalse id
  | .submit .register | .submit .mark | .submit .next | .submit .answered | .submit .spawn
  | .forward _ | .produce _ _ | .prefetch _ _ | .pull _ _ | .fetch _ | .cancelQuery
  | .cancel _ _ => .isTrue trivial

/-- The tables lead from the gateway to every other eligible owner in at most eight hops. -/
def WithinTtl (c : Config N Query Row) (q : Query) : Prop :=
  ∀ o ∈ c.eligible q, o ≠ c.gateway → ∃ h ≤ 8, Routes c.overlay o h c.gateway

/-- The forward can still reach its owner, or has done so. -/
def Arrives (c : Config N Query Row) (s : Sys N Row) (p : ForwardCall N) : Prop :=
  match p.stage with
  | .at n ttl => ∃ h < ttl, Routes c.overlay p.owner h n
  | .answered code => code = .ok ∧ 0 < (s.node p.owner).gens

/-- `SubmitQuery` has left owner `k` behind. -/
def past (pc : SubmitPc) (k : ℕ) : Prop :=
  match pc with
  | .forwarding k' _ => k < k'
  | .awaiting k' _ _ => k < k'
  | .spawning _ => True
  | .returned => True
  | _ => False

structure Forwards (c : Config N Query Row) (q : Query) (s : Sys N Row) : Prop where
  arrives : ∀ p ∈ s.fwd, Arrives c s p
  awaiting : ∀ k attempt f, s.submit = .awaiting k attempt f →
    ∃ p, s.fwd[f]? = some p ∧ (c.eligible q)[k]? = some p.owner
  past : ∀ k o, (c.eligible q)[k]? = some o → o ≠ c.gateway → past s.submit k →
    0 < (s.node o).gens
  quiet : s.submit.early = true → s.pull = []

variable {c : Config N Query Row} {q : Query} {s s' : Sys N Row} {a : Act N}

lemma reaches_of_withinTtl (hr : WithinTtl c q) {o : N} (ho : o ∈ c.eligible q)
    (hne : o ≠ c.gateway) : Reaches c o := by
  obtain ⟨h, hle, hroute⟩ := hr o ho hne
  cases h with
  | zero => exact absurd hroute.symm hne
  | succ h =>
    obtain ⟨nh, htoward, hroute⟩ := hroute
    exact ⟨nh, (toward_hop_iff.mp htoward).2.1, h, hroute⟩

/-! ### No forward is left behind -/

/-- The only forward that is still on its way is the one `SubmitQuery` waits for. -/
def Pending (s : Sys N Row) : Prop :=
  ∀ f p n ttl, s.fwd[f]? = some p → p.stage = .at n ttl →
    ∃ k attempt, s.submit = .awaiting k attempt f

lemma pending_submit {act : SubmitAct} (hok : ForwardsAnswered (.submit act : Act N))
    (hst : Submits c q s act s') (h : Pending s) : Pending s' := by
  -- nothing is on its way when `SubmitQuery` does not wait, or waits for an answered forward
  have hnone : ∀ {pc}, s.submit = pc → (∀ k attempt f, pc ≠ .awaiting k attempt f) →
      s'.fwd = s.fwd → Pending s' := by
    intro pc hs hpc hfwd f p n ttl hf hp
    obtain ⟨k, attempt, hs'⟩ := h f p n ttl (hfwd ▸ hf) hp
    exact absurd (hs.symm.trans hs') (hpc k attempt f)
  have hdone : ∀ {k attempt f : ℕ} {o : N} {r : Bool} {code : StatusCode},
      s.submit = .awaiting k attempt f → s.fwd[f]? = some ⟨o, r, .answered code⟩ →
      s'.fwd = s.fwd → Pending s' := by
    intro k attempt f o r code hs hf hfwd f' p n ttl hf' hp
    obtain ⟨k', attempt', hs'⟩ := h f' p n ttl (hfwd ▸ hf') hp
    obtain ⟨-, -, rfl⟩ := SubmitPc.awaiting.inj (hs.symm.trans hs')
    rw [hfwd, hf] at hf'
    obtain rfl := Option.some.inj hf'
    cases hp
  cases hst with
  | register hs => exact hnone hs (by simp) rfl
  | refuse hs => exact hnone hs (by simp) rfl
  | mark hs => exact hnone hs (by simp) rfl
  | loopEnd hs => exact hnone hs (by simp) rfl
  | itself hs => exact hnone hs (by simp) rfl
  | throws hs => exact hnone hs (by simp) rfl
  | spawnEnd hs => exact hnone hs (by simp) rfl
  | skip hs => exact hnone hs (by simp) rfl
  | spawn hs => exact hnone hs (by simp) rfl
  | delivered hs hf => exact hdone hs hf rfl
  | retry hs hf hc ha =>
    rcases ha with ⟨rfl, hst⟩ | rfl
    · exact hdone hs (hst ▸ hf) rfl
    · exact hok.elim
  | dead hs hf hc ha =>
    rcases ha with ⟨rfl, hst⟩ | rfl
    · exact hdone hs (hst ▸ hf) rfl
    · exact hok.elim
  | relayFailed => exact hok.elim
  | @call k attempt o hop hs =>
    intro f p n ttl hf hp
    rw [show (_ : List (ForwardCall N))[f]? = _ from getElem?_snoc s.fwd _ f] at hf
    split at hf
    next hlen => exact ⟨k, attempt, by rw [hlen]⟩
    next =>
      obtain ⟨k', attempt', hs'⟩ := h f p n ttl hf hp
      rw [hs] at hs'
      cases hs'

lemma pending_step (hok : ForwardsAnswered a) (hst : Steps c q s a s') (h : Pending s) :
    Pending s' := by
  have hset : ∀ {f : ℕ} {o n : N} {r r' : Bool} {ttl : ℕ} {stage : ForwardStage N},
      s.fwd[f]? = some ⟨o, r, .at n ttl⟩ → s'.submit = s.submit →
      s'.fwd = s.fwd.set f ⟨o, r', stage⟩ → Pending s' := by
    intro f o n r r' ttl stage hf hsub hfwd f' p n' ttl' hf' hp
    rw [hsub]
    by_cases hff : f' = f
    · exact hff ▸ h f _ n ttl hf rfl
    · rw [hfwd, List.getElem?_set_ne (Ne.symm hff)] at hf'
      exact h f' p n' ttl' hf' hp
  cases hst with
  | submit hst => exact pending_submit hok hst h
  | forward hst =>
    cases hst with
    | expired hf => exact hset hf rfl rfl
    | register hf => exact hset hf rfl rfl
    | noRoute hf => exact hset hf rfl rfl
    | relay hf => exact hset hf rfl rfl
  | produce => exact h
  | prefetch hst => cases hst <;> exact h
  | pull hst =>
    rw [pulls_frame hst]
    exact h
  | fetch hst => cases hst <;> exact h
  | cancelQuery => exact h
  | cancel hst =>
    rw [cancels_frame hst]
    exact h

lemma pending_of_reach {G : Sys N Row → Act N → Prop} (hG : ∀ s a, G s a → ForwardsAnswered a)
    (h : Reach (step c q) G (init N Row) s) : Pending s := by
  refine h.invariant (I := Pending) ?_ fun s a s' _ hi hg hst =>
    pending_step (hG s a hg) (steps_of_step hst) hi
  intro f p n ttl hf
  simp [init] at hf

/-! ### What the forwards do -/

/-- The owner is at most eight hops away. -/
def Near (c : Config N Query Row) (o : N) : Prop := ∃ h ≤ 8, Routes c.overlay o h c.gateway

lemma near_iff_first_hop {o hop : N} (hne : o ≠ c.gateway)
    (hn : c.overlay.nextHop c.gateway o = .ok hop) (hh : c.overlay.hasNode hop = true) :
    Near c o ↔ ∃ h < 8, Routes c.overlay o h hop := by
  constructor
  · rintro ⟨h, hle, hroute⟩
    cases h with
    | zero => exact absurd hroute.symm hne
    | succ h =>
      obtain ⟨nh, htoward, hroute⟩ := hroute
      obtain rfl : nh = hop := Except.ok.inj ((toward_hop_iff.mp htoward).2.1.symm.trans hn)
      exact ⟨h, by omega, hroute⟩
  · rintro ⟨h, hlt, hroute⟩
    by_cases hg : hop = c.gateway
    · -- a table that leads back to the gateway leads nowhere
      subst hg
      cases h with
      | zero => exact absurd hroute.symm hne
      | succ h =>
        obtain ⟨nh, htoward, -⟩ := hroute
        obtain ⟨-, hn', hback, -⟩ := toward_hop_iff.mp htoward
        exact absurd (Except.ok.inj (hn'.symm.trans hn)) hback
    · exact ⟨h + 1, hlt, hop, toward_hop_iff.mpr ⟨hne.symm, hn, hg, hh⟩, hroute⟩

/-- The forward gets to its owner exactly if that one is near. -/
def Arriving (c : Config N Query Row) (s : Sys N Row) (p : ForwardCall N) : Prop :=
  match p.stage with
  | .at n ttl => Near c p.owner ↔ ∃ h < ttl, Routes c.overlay p.owner h n
  | .answered code => Near c p.owner → code = .ok ∧ 0 < (s.node p.owner).gens

lemma Arriving.mono {p : ForwardCall N} (h : Arriving c s p)
    (hg : ∀ n, (s.node n).gens ≤ (s'.node n).gens) : Arriving c s' p := by
  unfold Arriving at h ⊢
  split
  next n ttl hp =>
    rw [hp] at h
    exact h
  next code hp =>
    rw [hp] at h
    exact fun hn => ⟨(h hn).1, (h hn).2.trans_le (hg _)⟩

structure Told (c : Config N Query Row) (q : Query) (s : Sys N Row) : Prop where
  arriving : ∀ p ∈ s.fwd, Arriving c s p
  awaiting : ∀ k attempt f, s.submit = .awaiting k attempt f →
    ∃ p, s.fwd[f]? = some p ∧ (c.eligible q)[k]? = some p.owner
  past : ∀ k o, (c.eligible q)[k]? = some o → o ≠ c.gateway → past s.submit k → Near c o →
    0 < (s.node o).gens
  registered : ∀ o, o ≠ c.gateway → 0 < (s.node o).gens → o ∈ c.eligible q ∧ Near c o
  quiet : s.submit.early = true → s.pull = []

lemma Told.frame (h : Told c q s) (hg : ∀ n, (s.node n).gens ≤ (s'.node n).gens)
    (hreg : ∀ o, o ≠ c.gateway → (s'.node o).gens = (s.node o).gens)
    (hsub : s'.submit = s.submit) (hfwd : s'.fwd = s.fwd)
    (hpull : s.submit.early = true → s'.pull = []) : Told c q s' where
  arriving p hp := (h.arriving p (hfwd ▸ hp)).mono hg
  awaiting := by
    rw [hsub, hfwd]
    exact h.awaiting
  past k o hk ho hp hn := (h.past k o hk ho (hsub ▸ hp) hn).trans_le (hg o)
  registered o ho hpos := h.registered o ho (hreg o ho ▸ hpos)
  quiet he := hpull (hsub ▸ he)

/-- A step of `SubmitQuery` that sends no forward and waits for none afterwards. -/
lemma Told.advance (h : Told c q s) (hg : ∀ n, (s.node n).gens ≤ (s'.node n).gens)
    (hreg : ∀ o, o ≠ c.gateway → (s'.node o).gens = (s.node o).gens)
    (hfwd : s'.fwd = s.fwd) (hpull : s'.pull = s.pull)
    (hno : ∀ k attempt f, s'.submit ≠ .awaiting k attempt f)
    (hpast : ∀ k o, (c.eligible q)[k]? = some o → o ≠ c.gateway →
      Forwarded.past s'.submit k → Forwarded.past s.submit k ∨ (Near c o → 0 < (s.node o).gens))
    (hearly : s'.submit.early = true → s.submit.early = true) : Told c q s' where
  arriving p hp := (h.arriving p (hfwd ▸ hp)).mono hg
  awaiting k attempt f hs := absurd hs (hno k attempt f)
  past k o hk ho hp hn := by
    rcases hpast k o hk ho hp with hp | hpos
    · exact (h.past k o hk ho hp hn).trans_le (hg o)
    · exact (hpos hn).trans_le (hg o)
  registered o ho hpos := h.registered o ho (hreg o ho ▸ hpos)
  quiet he := hpull.trans (h.quiet (hearly he))

lemma told_submit {act : SubmitAct} (hok : ForwardsAnswered (.submit act : Act N))
    (hg : ∀ n, (s.node n).gens ≤ (s'.node n).gens)
    (hreg : ∀ o, o ≠ c.gateway → (s'.node o).gens = (s.node o).gens)
    (hst : Submits c q s act s') (h : Told c q s) : Told c q s' := by
  -- an answer comes from the owner, if that one is near
  have hansw : ∀ {f : ℕ} {o : N} {r : Bool} {code : StatusCode},
      s.fwd[f]? = some ⟨o, r, .answered code⟩ → Near c o → code = .ok ∧ 0 < (s.node o).gens :=
    fun hf => h.arriving _ (List.mem_of_getElem? hf)
  -- the loop goes on behind the owner of an answered forward
  have hnext : ∀ {k attempt f : ℕ} {o : N} {r : Bool} {code : StatusCode},
      s.submit = .awaiting k attempt f → s.fwd[f]? = some ⟨o, r, .answered code⟩ →
      ∀ k' o', (c.eligible q)[k']? = some o' → k' < k + 1 →
        Forwarded.past s.submit k' ∨ (Near c o' → 0 < (s.node o').gens) := by
    intro k attempt f o r code hs hf k' o' hk' hlt
    by_cases hkk : k' = k
    · obtain ⟨p, hp, hown⟩ := h.awaiting k attempt f hs
      obtain rfl := Option.some.inj (hf.symm.trans hp)
      obtain rfl : o' = o := Option.some.inj ((hkk ▸ hk').symm.trans hown)
      exact .inr fun hn => (hansw hf hn).2
    · left
      rw [hs]
      exact lt_of_le_of_ne (Nat.lt_succ_iff.mp hlt) hkk
  cases hst with
  | register hs =>
    exact h.advance hg hreg rfl rfl (by simp) (fun _ _ _ _ hp => hp.elim) fun _ => by rw [hs]; rfl
  | refuse hs =>
    exact h.advance hg hreg rfl rfl (by simp) (fun _ _ _ _ hp => hp.elim) fun _ => by rw [hs]; rfl
  | mark hs =>
    exact h.advance hg hreg rfl rfl (by simp) (fun _ _ _ _ hp => absurd hp (Nat.not_lt_zero _))
      fun _ => by rw [hs]; rfl
  | @loopEnd k attempt hs hk =>
    refine h.advance hg hreg rfl rfl (by simp) (fun k' o hk' ho _ => .inl ?_)
      fun he => by cases he
    rw [hs]
    have hlen : (c.eligible q).length ≤ k := List.getElem?_eq_none_iff.mp hk
    exact (List.getElem?_eq_some_iff.mp hk').1.trans_le hlen
  | @itself k attempt hs hk =>
    refine h.advance hg hreg rfl rfl (by simp) (fun k' o hk' ho hp => .inl ?_)
      fun _ => by rw [hs]; rfl
    rw [hs]
    have hne : k' ≠ k := by
      rintro rfl
      exact ho (Option.some.inj (hk'.symm.trans hk))
    exact lt_of_le_of_ne (Nat.lt_succ_iff.mp hp) hne
  | throws hs =>
    exact h.advance hg hreg rfl rfl (by simp) (fun _ _ _ _ hp => hp.elim) fun _ => by rw [hs]; rfl
  | @call k attempt o hop hs hk ho hn hh =>
    refine ⟨fun p hp => ?_, fun k' attempt' f hs' => ?_, fun k' o' hk' ho' hp => ?_,
      h.registered, fun _ => h.quiet (by rw [hs]; rfl)⟩
    · rcases List.mem_append.mp hp with hp | hp
      · exact (h.arriving p hp).mono hg
      · obtain rfl := List.mem_singleton.mp hp
        exact near_iff_first_hop ho hn hh
    · simp only [SubmitPc.awaiting.injEq] at hs'
      obtain ⟨rfl, -, rfl⟩ := hs'
      exact ⟨⟨o, false, .at hop 8⟩, by simp, hk⟩
    · exact h.past k' o' hk' ho' (by rw [hs]; exact hp)
  | delivered hs hf =>
    exact h.advance hg hreg rfl rfl (by simp) (fun k' o' hk' _ hp => hnext hs hf k' o' hk' hp)
      fun _ => by rw [hs]; rfl
  | retry hs hf hc ha =>
    rcases ha with ⟨rfl, hst⟩ | rfl
    · refine h.advance hg hreg rfl rfl (by simp) (fun k' o' hk' _ hp => .inl ?_)
        fun _ => by rw [hs]; rfl
      rw [hs]
      exact hp
    · exact hok.elim
  | dead hs hf hc ha =>
    rcases ha with ⟨rfl, hst⟩ | rfl
    · exact h.advance hg hreg rfl rfl (by simp)
        (fun k' o' hk' _ hp => hnext hs (hst ▸ hf) k' o' hk' hp) fun _ => by rw [hs]; rfl
    · exact hok.elim
  | relayFailed => exact hok.elim
  | spawnEnd hs =>
    exact h.advance hg hreg rfl rfl (by simp) (fun _ _ _ _ _ => .inl (by rw [hs]; trivial))
      fun he => by cases he
  | skip hs =>
    exact h.advance hg hreg rfl rfl (by simp) (fun _ _ _ _ _ => .inl (by rw [hs]; trivial))
      fun he => by cases he
  | spawn hs =>
    exact h.advance hg hreg rfl rfl (by simp) (fun _ _ _ _ _ => .inl (by rw [hs]; trivial))
      fun he => by cases he

lemma Told.setFwd (h : Told c q s) (hg : ∀ n, (s.node n).gens ≤ (s'.node n).gens)
    {f : ℕ} {o n : N} {r r' : Bool} {ttl : ℕ} {stage : ForwardStage N}
    (hf : s.fwd[f]? = some ⟨o, r, .at n ttl⟩) (hfwd : s'.fwd = s.fwd.set f ⟨o, r', stage⟩)
    (hsub : s'.submit = s.submit) (hpull : s'.pull = s.pull)
    (hreg : ∀ o', o' ≠ c.gateway → 0 < (s'.node o').gens → o' ∈ c.eligible q ∧ Near c o')
    (harr : Arriving c s' ⟨o, r', stage⟩) : Told c q s' := by
  have hlt := (List.getElem?_eq_some_iff.mp hf).1
  refine ⟨fun p hp => ?_, fun k attempt f' hs => ?_,
    fun k o' hk ho hp hn => (h.past k o' hk ho (hsub ▸ hp) hn).trans_le (hg o'), hreg,
    fun he => ?_⟩
  · rw [hfwd] at hp
    rcases List.mem_or_eq_of_mem_set hp with hp | rfl
    · exact (h.arriving p hp).mono hg
    · exact harr
  · rw [hsub] at hs
    obtain ⟨p, hp, hk⟩ := h.awaiting k attempt f' hs
    by_cases hff : f' = f
    · subst hff
      obtain rfl := Option.some.inj (hf.symm.trans hp)
      exact ⟨⟨o, r', stage⟩, by rw [hfwd, List.getElem?_set_self hlt], hk⟩
    · exact ⟨p, by rw [hfwd, List.getElem?_set_ne (Ne.symm hff), hp], hk⟩
  · rw [hpull]
    exact h.quiet (hsub ▸ he)

lemma told_forward {f : ℕ} (hown : ∀ p ∈ s.fwd, p.owner ∈ c.eligible q)
    (hok : EntriesOk c q s')
    (hg : ∀ n, (s.node n).gens ≤ (s'.node n).gens)
    (hst : GatherSteps.Forwards c q s f s') (h : Told c q s) : Told c q s' := by
  have harr : ∀ {o n : N} {r : Bool} {ttl : ℕ}, s.fwd[f]? = some ⟨o, r, .at n ttl⟩ →
      (Near c o ↔ ∃ h < ttl, Routes c.overlay o h n) :=
    fun hf => h.arriving _ (List.mem_of_getElem? hf)
  cases hst with
  | expired hf =>
    refine h.setFwd hg hf rfl rfl rfl h.registered fun hn => ?_
    obtain ⟨j, hj, -⟩ := (harr hf).mp hn
    exact absurd hj (Nat.not_lt_zero j)
  | @register o r ttl hf ht' =>
    have hmem : o ∈ c.eligible q := hown _ (List.mem_of_getElem? hf)
    have hn : Near c o := (harr hf).mpr ⟨0, ht', rfl⟩
    refine h.setFwd hg hf rfl rfl rfl (fun o' ho' hpos => ?_) fun _ => ⟨rfl, ?_⟩
    · by_cases hoo : o' = o
      · exact hoo ▸ ⟨hmem, hn⟩
      · refine h.registered o' ho' ?_
        have hsame := setNode_ne s hoo (registerRequest (c.shard o) q 1 (s.node o))
        rwa [← hsame]
    · -- the owner holds the request now
      obtain ⟨g, hgen⟩ := Option.ne_none_iff_exists'.mp
        (registerRequest_table (c.shard o) q 1 (s.node o))
      have := (hok o).table g (by simpa [Sys.setFwd] using hgen)
      exact Nat.lt_of_lt_of_le (Nat.succ_pos g) this.le
  | noRoute hf ht' hh hn =>
    refine h.setFwd hg hf rfl rfl rfl h.registered fun hnear => ?_
    obtain ⟨j, -, hroute⟩ := (harr hf).mp hnear
    exact absurd ⟨j, hroute⟩ (not_leads hh hn)
  | @relay o n nh r ttl hf ht' hn =>
    refine h.setFwd hg hf rfl rfl rfl h.registered ((harr hf).trans ⟨?_, ?_⟩)
    · rintro ⟨j, hj, hroute⟩
      cases j with
      | zero => exact absurd hroute (toward_hop_iff.mp hn).1
      | succ j =>
        obtain ⟨m, hm, hroute⟩ := hroute
        obtain rfl : m = nh := by simpa using hm.symm.trans hn
        exact ⟨j, by omega, hroute⟩
    · rintro ⟨j, hj, hroute⟩
      exact ⟨j + 1, by omega, nh, hn, hroute⟩

lemma told_step (hok : ForwardsAnswered a) (hsh : Shape c q s) (hst : Steps c q s a s')
    (h : Told c q s) : Told c q s' := by
  have hok' := entriesOk_step hst hsh.entries
  have hg : ∀ n, (s.node n).gens ≤ (s'.node n).gens := fun n =>
    (node_move hst n).gens_le (hsh.entries n)
  have hreg : (∀ f, a ≠ .forward f) → ∀ o, o ≠ c.gateway →
      (s'.node o).gens = (s.node o).gens := fun hf o ho =>
    gens_eq hst hsh.entries (fun _ => ho) fun f ha => absurd ha (hf f)
  cases hst with
  | submit hst => exact told_submit hok hg (hreg (by simp)) hst h
  | forward hst =>
    exact told_forward (fun p hp => (hsh.threads.fwd p hp).1) hok' hg hst h
  | produce => exact h.frame hg (hreg (by simp)) rfl rfl h.quiet
  | prefetch hst =>
    cases hst with
    | issue hk ht =>
      refine h.frame hg (hreg (by simp)) rfl rfl fun he => ?_
      rw [hsh.threads.absent he] at ht
      cases ht
    | _ => exact h.frame hg (hreg (by simp)) rfl rfl h.quiet
  | @pull i act s' hst =>
    obtain ⟨o, stage, stage', hp, -, -⟩ := pulls_set hst
    have hframe := pulls_frame hst
    refine h.frame hg (hreg (by simp)) ?_ ?_ fun he => ?_
    · rw [hframe]
    · rw [hframe]
    · rw [h.quiet he] at hp
      cases hp
  | fetch hst => cases hst <;> exact h.frame hg (hreg (by simp)) rfl rfl h.quiet
  | cancelQuery => exact h.frame hg (hreg (by simp)) rfl rfl h.quiet
  | cancel hst =>
    have hreg := hreg (by simp)
    rw [cancels_frame hst] at hg hreg ⊢
    exact h.frame hg hreg rfl rfl h.quiet

lemma told_init : Told c q (init N Row) where
  arriving p hp := by cases hp
  awaiting k attempt f hs := by cases hs
  past k o hk ho hp := hp.elim
  registered o ho hpos := absurd hpos (Nat.lt_irrefl 0)
  quiet _ := rfl

/-! ### Runs -/

variable {G : Sys N Row → Act N → Prop}

/-- **A forward reaches its owner exactly if that one is near**, before it is asked for rows. -/
theorem told_of_reach (hG : ∀ s a, G s a → ForwardsAnswered a)
    (h : Reach (step c q) G (init N Row) s) : Told c q s :=
  h.invariant told_init fun _ a _ hreach hi hg hst =>
    told_step (hG _ a hg) (shape_of_reach hreach) (steps_of_step hst) hi

/-- **Every forward reaches its owner**, where all of them are near. -/
theorem forwards_of_reach (hr : WithinTtl c q) (hG : ∀ s a, G s a → ForwardsAnswered a)
    (h : Reach (step c q) G (init N Row) s) : Forwards c q s := by
  have htold := told_of_reach hG h
  have hnear : ∀ o ∈ c.eligible q, o ≠ c.gateway → Near c o := hr
  refine ⟨fun p hp => ?_, htold.awaiting, fun k o hk ho hp => ?_, htold.quiet⟩
  · obtain ⟨hmem, hne⟩ := (shape_of_reach h).threads.fwd p hp
    have harr := htold.arriving p hp
    unfold Arriving at harr
    unfold Arrives
    split
    next n ttl hstage =>
      rw [hstage] at harr
      exact harr.mp (hnear _ hmem hne)
    next code hstage =>
      rw [hstage] at harr
      exact harr (hnear _ hmem hne)
  · exact htold.past k o hk ho hp (hnear o (List.mem_of_getElem? hk) ho)

lemma registered_of_thread (hsh : Threads c q s) (h : Told c q s) {o : N} {k : ℕ}
    (hk : (c.eligible q)[k]? = some o) (hne : o ≠ c.gateway) (ht : s.thread k ≠ .absent)
    (hn : Near c o) : 0 < (s.node o).gens := by
  refine h.past k o hk hne ?_ hn
  rcases hsh.spawned k ht with hs | ⟨k', hs, -⟩ <;> rw [hs] <;> trivial

lemma kept_of_told (h : Told c q s) {act : SubmitAct}
    (hok : ForwardsAnswered (.submit act : Act N)) (hst : Submits c q s act s') {o : N}
    (ho : o ∈ c.eligible q) (hn : Near c o) (hd : s'.gate.clientProducersDone o = true) :
    s.gate.clientProducersDone o = true := by
  cases hst with
  | mark =>
    have hown := (c.eligible_sublist q).subset ho
    simp [Sys.marked, hown, ho] at hd
  | @dead act k attempt f o' r stage code hs hf hc ha =>
    by_cases hoo : o = o'
    · -- a forward to an owner that is near is answered with OK
      subst hoo
      rcases ha with ⟨rfl, rfl⟩ | rfl
      · have harr : Arriving c s ⟨o, r, .answered code⟩ := h.arriving _ (List.mem_of_getElem? hf)
        exact absurd (harr hn).1 hc
      · exact hok.elim
    · have hsame : (s.markDone o').gate.clientProducersDone o = s.gate.clientProducersDone o :=
        Function.update_of_ne hoo _ _
      exact hsame ▸ hd
  | _ => exact hd

lemma timely_of_forwards (h : Forwards c q s) (hpend : Pending s) : Timely s a := by
  unfold Timely
  split
  next f =>
    intro p hp harr _ p' hp'
    obtain ⟨o, r, stage⟩ := p
    cases stage with
    | answered code => cases harr
    | «at» n ttl =>
      obtain ⟨k, attempt, hs⟩ := hpend f _ n ttl hp rfl
      rw [h.quiet (by rw [hs]; rfl)] at hp'
      cases hp'
  next => trivial

end Mini2.Forwarded
