import Mini2.Cancelling
import Mini2.LaneAhead

/-!
No run is a dead end: however far the threads of a request have got, when every call is answered
the request can still be brought to its end, and then the client has all rows.
-/

namespace Mini2.Completes

open Mini2.Proto Mini2.Net Mini2.Request Mini2.Producer Mini2.Gather Mini2.GatherSteps
open Mini2.GatherShape Mini2.RoundRobin Mini2.Runs Mini2.Lane Mini2.Finish Mini2.Forwarded
open Mini2.Course Mini2.Delivery Mini2.ExactlyOnce Mini2.Progress Mini2.Standing Mini2.NextRow
open Mini2.LaneAhead

variable {N Query Row : Type} [DecidableEq N]

/-- What the nodes are for a request to be served: the gateway is one, and a C++ node; each
eligible owner is listed once, at most eight hops away, and does its work. -/
structure Fit (c : Config N Query Row) (q : Query) : Prop where
  role : c.overlay.role c.gateway = .gateway
  impl : c.overlay.impl c.gateway = .cpp
  nodup : (c.eligible q).Nodup
  near : WithinTtl c q
  productive : ∀ o ∈ c.eligible q, o ≠ c.gateway → Productive c o

variable {c : Config N Query Row} {q : Query} {s s' : Sys N Row} {m : ℤ}

omit [DecidableEq N] in
lemma reach_of_onward {s₀ : Sys N Row} {step : Sys N Row → Act N → Option (Sys N Row)}
    (h : Reach step (fun _ a => AllAnswered a) s₀ s)
    (hr : Reach step (fun _ a => Onward c m a) s s') :
    Reach step (fun _ a => AllAnswered a) s₀ s' := h.trans (hr.mono fun _ _ ha => ha.answered)

/-! ### SubmitQuery -/

/-- A bound on the steps that `SubmitQuery` has left, for `n` eligible owners. -/
def submitLeft (n : ℕ) : SubmitPc → ℕ
  | .idle => 3 * n + 6
  | .registered => 3 * n + 5
  | .forwarding k _ => 2 * (n - k) + n + 3
  | .awaiting k _ _ => 2 * (n - k) + n + 2
  | .spawning k => n - k + 1
  | .returned => 0
  | .failed => 0

lemma can_forward {f : ℕ} {o : N} (ttl : ℕ) : ∀ {s : Sys N Row} {n : N} {r : Bool},
    s.fwd[f]? = some ⟨o, r, .at n ttl⟩ → Can (step c q) (fun _ a => Onward c m a)
      (fun s' => s'.submit = s.submit ∧ ∃ r code, s'.fwd[f]? = some ⟨o, r, .answered code⟩) s := by
  have hset : ∀ {s : Sys N Row} {r : Bool} {stage : ForwardStage N},
      s.fwd[f]? = some ⟨o, r, stage⟩ → ∀ p, (s.setFwd f p).fwd[f]? = some p := fun hf p =>
    List.getElem?_set_self (List.getElem?_eq_some_iff.mp hf).1
  have hansw : ∀ {s : Sys N Row} (t : Sys N Row) {r : Bool} {stage : ForwardStage N}
      (code : StatusCode), s.fwd[f]? = some ⟨o, r, stage⟩ → t.submit = s.submit → t.fwd = s.fwd →
      forwardStep c q s f = some (t.setFwd f ⟨o, r, .answered code⟩) →
      Can (step c q) (fun _ a => Onward c m a)
        (fun s' => s'.submit = s.submit ∧ ∃ r code, s'.fwd[f]? = some ⟨o, r, .answered code⟩) s :=
    fun t _ _ code hf hsub hfwd hst => .first (a := .forward f) hst ⟨trivial, trivial, trivial⟩
      (.now ⟨hsub, _, code, hset (hfwd ▸ hf) _⟩)
  induction ttl with
  | zero =>
    intro s n r hf
    exact hansw s .ok hf rfl rfl (by simp [forwardStep, hf])
  | succ ttl ih =>
    intro s n r hf
    cases htoward : c.overlay.toward o n with
    | here =>
      exact hansw (s.setNode n (registerRequest (c.shard n) q 1 (s.node n))) .ok hf rfl rfl
        (by simp [forwardStep, hf, htoward])
    | nowhere =>
      exact hansw s .ok hf rfl rfl (by simp [forwardStep, hf, htoward])
    | unknown nh =>
      exact hansw s (if r then .ok else .unknown) hf rfl rfl
        (by simp [forwardStep, hf, htoward])
    | hop nh =>
      have hst : step c q s (.forward f) = some (s.setFwd f ⟨o, true, .at nh ttl⟩) := by
        simp [step, forwardStep, hf, htoward]
      exact .first hst ⟨trivial, trivial, trivial⟩ (ih (hset hf _))

lemma submit_ne_failed (hfit : Fit c q)
    (h : Reach (step c q) (fun _ a => AllAnswered a) (init N Row) s) : s.submit ≠ .failed := by
  refine h.invariant (I := fun s => s.submit ≠ .failed) (by simp [init])
    fun s a s' hr hi ha hst => ?_
  by_cases hact : ∃ act, a = .submit act
  · obtain ⟨act, rfl⟩ := hact
    have hcases : Submits c q s act s' := submits_of_step hst
    cases hcases with
    | refuse hs => simp [step, submitStep, hs, hfit.role] at hst
    | throws hs hk ho hn =>
      obtain ⟨hop, hnext, hnode⟩ := hop_of_withinTtl hfit.near (List.mem_of_getElem? hk) ho
      rw [hn hop hnext] at hnode
      cases hnode
    | _ => simp
  · rwa [submit_eq (steps_of_step hst) fun act ha' => hact ⟨act, ha'⟩]

/-- Some steps lead to less that `SubmitQuery` has left to do. -/
def Advances (c : Config N Query Row) (q : Query) (m : ℤ) (s : Sys N Row) : Prop :=
  Can (step c q) (fun _ a => Onward c m a) (fun t => t.submit = .returned ∨
    submitLeft (c.eligible q).length t.submit < submitLeft (c.eligible q).length s.submit) s

lemma advances_of_step {a : SubmitAct} (hst : submitStep c q s a = some s')
    (ha : AllAnswered (.submit a : Act N))
    (hlt : submitLeft (c.eligible q).length s'.submit <
      submitLeft (c.eligible q).length s.submit) : Advances c q m s :=
  .first (a := .submit a) hst ⟨ha, trivial, trivial⟩ (.now (.inr hlt))

lemma advances_forwarding (hfit : Fit c q) {k a : ℕ} (hs : s.submit = .forwarding k a) :
    Advances c q m s := by
  cases hk : (c.eligible q)[k]? with
  | none =>
    refine advances_of_step (a := .next) (by simp only [submitStep, hs, hk]; rfl) trivial ?_
    simp only [hs, submitLeft]
    omega
  | some o =>
    have hlt := (List.getElem?_eq_some_iff.mp hk).1
    by_cases ho : o = c.gateway
    · refine advances_of_step (a := .next)
        (by simp only [submitStep, hs, hk, if_pos ho]; rfl) trivial ?_
      simp only [hs, submitLeft]
      omega
    · obtain ⟨hop, hnext, hnode⟩ := hop_of_withinTtl hfit.near (List.mem_of_getElem? hk) ho
      refine advances_of_step (a := .next)
        (by simp only [submitStep, hs, hk, if_neg ho, hnext, hnode, if_true]; rfl) trivial ?_
      simp only [hs, submitLeft]
      omega

lemma advances_awaiting (hfit : Fit c q)
    (h : Reach (step c q) (fun _ a => AllAnswered a) (init N Row) s) {k a f : ℕ}
    (hs : s.submit = .awaiting k a f) : Advances c q m s := by
  have hforwards : ∀ {t : Sys N Row},
      Reach (step c q) (fun _ a => AllAnswered a) (init N Row) t → Forwarded.Forwards c q t :=
    forwards_of_reach hfit.near fun _ _ ha => ha.forwardsAnswered
  obtain ⟨⟨o, r, stage⟩, hp, hk⟩ := (hforwards h).awaiting k a f hs
  have hlt := (List.getElem?_eq_some_iff.mp hk).1
  have hanswered : Can (step c q) (fun _ a => Onward c m a) (fun t => t.submit = s.submit ∧
      ∃ r code, t.fwd[f]? = some ⟨o, r, .answered code⟩) s := by
    cases stage with
    | «at» n ttl => exact can_forward ttl hp
    | answered code => exact .now ⟨rfl, r, code, hp⟩
  refine hanswered.bind fun t hrt ht => ?_
  obtain ⟨hsub, r, code, hp⟩ := ht
  obtain rfl := (ok_of_answered (hforwards (reach_of_onward h hrt)) hp).1
  rw [← hsub]
  rw [hs] at hsub
  refine advances_of_step (a := .answered)
    (by simp only [submitStep, hsub, hp, if_true]; rfl) trivial ?_
  simp only [hsub, submitLeft]
  omega

lemma advances_spawning {k : ℕ} (hs : s.submit = .spawning k) : Advances c q m s := by
  cases hk : (c.eligible q)[k]? with
  | none =>
    refine advances_of_step (a := .spawn) (by simp only [submitStep, hs, hk]; rfl) trivial ?_
    simp [hs, submitLeft]
  | some o =>
    have hlt := (List.getElem?_eq_some_iff.mp hk).1
    by_cases ho : o = c.gateway ∨ s.gate.clientProducersDone o = true
    · refine advances_of_step (a := .spawn)
        (by simp only [submitStep, hs, hk, if_pos ho]; rfl) trivial ?_
      simp only [hs, submitLeft]
      omega
    · refine advances_of_step (a := .spawn)
        (by simp only [submitStep, hs, hk, if_neg ho]; rfl) trivial ?_
      simp only [hs, submitLeft]
      omega

/-- **`SubmitQuery` can be brought to its end.** -/
lemma can_submit (hfit : Fit c q) (h : Reach (step c q) (fun _ a => AllAnswered a) (init N Row) s) :
    Can (step c q) (fun _ a => Onward c m a) (fun s' => s'.submit = .returned) s := by
  refine Can.descend (fun s => submitLeft (c.eligible q).length s.submit) fun s' hr' hret => ?_
  have h' := reach_of_onward h hr'
  cases hs : s'.submit with
  | returned => exact absurd hs hret
  | failed => exact absurd hs (submit_ne_failed hfit h')
  | idle =>
    refine hs ▸ advances_of_step (a := .register)
      (by simp only [submitStep, hs, hfit.role, if_true]; rfl) trivial ?_
    simp [hs, submitLeft]
  | registered =>
    refine hs ▸ advances_of_step (a := .mark)
      (by simp only [submitStep, hs, if_true]; rfl) trivial ?_
    simp only [hs, submitLeft]
    omega
  | forwarding k a => exact hs ▸ advances_forwarding hfit hs
  | awaiting k a f => exact hs ▸ advances_awaiting hfit h' hs
  | spawning k => exact hs ▸ advances_spawning hs

/-! ### FetchChunk -/

lemma wait_over (hready : ∀ o ∈ c.overlay.dataOwners, o = c.gateway ∨ Ready s o)
    (hself : Stocked (s.node c.gateway) 0) : s.haveData c = true ∨ s.allDrained c = true := by
  by_cases hdata : s.haveData c = true
  · exact .inl hdata
  have hempty : ∀ o ∈ sources c, s.slots c o = [] := by
    intro o ho
    by_contra hne
    exact hdata (List.any_eq_true.mpr ⟨o, ho, by simpa using hne⟩)
  have hmatched : (s.self c).matched = [] := by
    simpa [Sys.slots] using hempty c.gateway List.mem_cons_self
  right
  unfold Sys.allDrained
  simp only [Bool.and_eq_true, List.isEmpty_iff, List.all_eq_true, Bool.or_eq_true,
    decide_eq_true_eq]
  refine ⟨⟨hself.resolve_left (not_not_intro hmatched), hmatched⟩, fun o ho => ?_⟩
  by_cases hg : o = c.gateway
  · exact .inl (.inl hg)
  have hbuf : s.gate.prefetchBuf o = [] := by
    have hslot := hempty o (List.mem_cons_of_mem _ (List.mem_filter.mpr ⟨ho, by simpa using hg⟩))
    rwa [Sys.slots, if_neg hg] at hslot
  rcases ((hready o ho).resolve_left hg).resolve_left (not_not_intro hbuf) with hd | hd
  · exact .inl (.inr hd)
  · exact .inr ⟨hd, hbuf⟩

section Reached

variable (hfit : Fit c q) (hm : 1 ≤ m)
  (h : Reach (step c q) (fun _ a => AllAnswered a) (init N Row) s)

include hfit hm h

lemma can_fill (hsub : s.submit = .returned) (hopen : ¬ Closed s) :
    Can (step c q) (fun _ a => Works c m a)
      (fun t => ∀ o ∈ c.overlay.dataOwners, o = c.gateway ∨ Ready t o) s := by
  refine Can.all _ (fun o _ s₁ s₂ hr₁ hr₂ ho => ?_) fun o ho t hr => ?_
  · exact ho.imp_right ((kept_of_works (reach_of_works h hr₁) hr₂).ready o)
  · have ht := reach_of_works h hr
    have hkept := kept_of_works h hr
    have hsub' := hkept.submit.trans hsub
    by_cases hg : o = c.gateway
    · exact .now (.inl hg)
    by_cases he : o ∈ c.eligible q
    · obtain ⟨k, hk⟩ := List.getElem?_of_mem he
      have hl : IsLane c q o k := ⟨hfit.nodup, hk, hg⟩
      have hopen' : ¬ Closed t := by
        unfold Closed at hopen ⊢
        rwa [hkept.fetch, hkept.finished]
      exact (can_ready hm hfit.nodup hfit.near ht hl hsub' hopen'
        (hfit.productive o he hg)).imp fun _ _ => .inr
    · have hcourse := onCourse_of_reach hfit.nodup hfit.near ht
      have hdone := (hcourse.marked (by rw [hsub']; decide)).2.2 o ho he
      exact .now (.inr (.inr (.inl hdone)))

omit hm in
lemma can_stock_self (htable : (s.node c.gateway).table ≠ none) :
    Can (step c q) (fun _ a => Works c m a) (fun t => Stocked (t.node c.gateway) 0) s := by
  obtain ⟨g, hg⟩ := Option.ne_none_iff_exists'.mp htable
  have hsh := shape_of_reach h
  have hentry := hsh.entries c.gateway
  have hzero : g = 0 := by
    have hgens := hentry.table g hg
    have hle := hsh.selfOnce.le
    omega
  subst hzero
  have hlisted := (stands_of_reach h).scheduled c.gateway htable
  have hcancel := uncancelled_of_reach (notCancelled fun _ _ => id) h c.gateway 0
  refine (can_produce (.inl rfl) (can_stock hentry (.inl hfit.impl) hg hlisted hcancel)).imp
    fun t _ ht => ?_
  obtain ⟨e, -, hstocked, rfl⟩ := ht
  rw [setNode_self]
  exact hstocked.2

/-- The wait of a `FetchChunk` can be brought to its end; it sends a row then, or ends the
stream. -/
lemma can_drain (hsub : s.submit = .returned) (hf : s.fetch = .entered)
    (hfin : s.finished = none) : Can (step c q) (fun _ a => Onward c m a)
      (fun t => t.submit = .returned ∧ (s.log.length < t.log.length ∨ t.fetch = .drained)) s := by
  have hopen : ¬ Closed s := by simp [Closed, hf, hfin]
  have htable : (s.node c.gateway).table ≠ none := by
    have hknows := knows_of_reach h
    unfold Knows at hknows
    simpa [hsub, hfin, hf] using hknows
  have hwait : Can (step c q) (fun _ a => Works c m a)
      (fun t => (∀ o ∈ c.overlay.dataOwners, o = c.gateway ∨ Ready t o) ∧
        Stocked (t.node c.gateway) 0) s := by
    refine (can_stock_self hfit h htable).bind fun t hrt ht => ?_
    have hreach := reach_of_works h hrt
    have hkept := kept_of_works h hrt
    have hopen' : ¬ Closed t := by
      unfold Closed at hopen ⊢
      rwa [hkept.fetch, hkept.finished]
    refine (can_fill hfit hm hreach (hkept.submit.trans hsub) hopen').imp fun u hru hu => ⟨hu, ?_⟩
    refine (kept_of_works hreach hru).stocked 0 ?_ ht
    rw [hkept.gens]
    obtain ⟨g, hg⟩ := Option.ne_none_iff_exists'.mp htable
    have := ((shape_of_reach h).entries c.gateway).table g hg
    omega
  obtain ⟨t, hrt, hready, hself⟩ := hwait
  have hkept := kept_of_works h hrt
  have hover := wait_over hready hself
  have hst : fetchStep c q t (.drain m) = some { drainStep c t m with
      fetch := if (drainStep c t m).allDone c then .drained else .idle } := by
    simp only [fetchStep, hkept.fetch.trans hf, true_and, hover, or_true, if_true]
  have hcancel := uncancelled_of_reach (notCancelled fun _ _ => id) (reach_of_works h hrt)
    c.gateway 0
  have hgoes := drain_progress hst hm hcancel
  rw [hkept.log] at hgoes
  have hrun : Reach (step c q) (fun _ a => Onward c m a) s t := hrt.mono fun _ _ ha => ha.toOnward
  exact ⟨_, hrun.step (a := .fetch (.drain m)) ⟨trivial, rfl, trivial⟩ hst,
    hkept.submit.trans hsub, hgoes⟩

end Reached

def allRows (c : Config N Query Row) (q : Query) : ℕ :=
  (((c.gateway :: c.eligible q).dedup).map fun o => ((c.shard o).matchRows q).length).sum

lemma log_length_le (hfit : Fit c q)
    (h : Reach (step c q) (fun _ a => AllAnswered a) (init N Row) s) :
    s.log.length ≤ allRows c q := by
  have hsrc : ∀ p ∈ s.log, p.1 ∈ (c.gateway :: c.eligible q).dedup := by
    intro p hp
    rw [List.mem_dedup, List.mem_cons]
    by_contra hnot
    obtain ⟨hg, he⟩ := not_or.mp hnot
    have hmem : p.2 ∈ itemsOf s.log p.1 :=
      List.mem_map.mpr ⟨p, List.mem_filter.mpr ⟨hp, by simp⟩, rfl⟩
    rw [((shape_of_reach h).ledger.foreign p.1 hg he).2] at hmem
    cases hmem
  have hperm := (perm_flatMap_itemsOf (List.nodup_dedup _) hsrc).length_eq
  rw [List.length_map, List.length_flatMap] at hperm
  rw [hperm]
  exact List.sum_le_sum fun o _ =>
    (log_isPrefix hfit.nodup hfit.near (fun _ _ => id) h o).length_le

section Reached

variable (hfit : Fit c q) (hm : 1 ≤ m)
  (h : Reach (step c q) (fun _ a => AllAnswered a) (init N Row) s)

include hfit hm h

lemma can_close (hsub : s.submit = .returned) :
    Can (step c q) (fun _ a => Onward c m a) Closed s := by
  have hkeep : ∀ t, Reach (step c q) (fun _ a => Onward c m a) s t → t.submit = .returned :=
    fun t hrt => hrt.invariant (I := fun t => t.submit = .returned) hsub
      fun _ _ _ _ hi _ hst => Cancelling.returned_step (steps_of_step hst) hi
  refine Can.descend (fun t => allRows c q - t.log.length) fun t hrt hopen => ?_
  have hreach := reach_of_onward h hrt
  obtain ⟨hfin, hfetch⟩ := not_or.mp hopen
  rw [not_not] at hfin
  have hentered : ∀ t₁ : Sys N Row, Reach (step c q) (fun _ a => AllAnswered a) (init N Row) t₁ →
      t₁.submit = .returned → t₁.fetch = .entered → t₁.finished = none → t₁.log = t.log →
      Can (step c q) (fun _ a => Onward c m a) (fun u => Closed u ∨
        allRows c q - u.log.length < allRows c q - t.log.length) t₁ := by
    intro t₁ hr₁ hsub₁ hf₁ hfin₁ hlog₁
    obtain ⟨u, hru, -, hu⟩ := can_drain hfit hm hr₁ hsub₁ hf₁ hfin₁
    refine ⟨u, hru, ?_⟩
    rcases hu with hu | hu
    · have hle := log_length_le hfit (reach_of_onward hr₁ hru)
      rw [hlog₁] at hu
      right
      omega
    · exact .inl (.inr (by simp [hu]))
  by_cases hidle : t.fetch = .idle
  · have htable : (t.node c.gateway).table ≠ none := by
      have hknows := knows_of_reach hreach
      unfold Knows at hknows
      simpa [hkeep t hrt, hfin, hidle] using hknows
    have hst : step c q t (.fetch .start) = some { t with fetch := .entered } := by
      simp [step, fetchStep, hidle, hfit.role, Option.isSome_iff_ne_none.mpr htable]
    exact .first hst ⟨trivial, trivial, trivial⟩ (hentered _
      (hreach.step (a := .fetch .start) trivial hst) (hkeep t hrt) rfl hfin rfl)
  · have hent : t.fetch = .entered := by
      by_contra hne
      exact hfetch ⟨hidle, hne⟩
    exact hentered t hreach (hkeep t hrt) hent hfin rfl

lemma can_join {hit eligible : ℕ} (hf : s.fetch = .joining hit eligible) :
    Can (step c q) (fun _ a => Works c m a) (fun t => t.joined c q) s := by
  have hall : Can (step c q) (fun _ a => Works c m a)
      (fun t => ∀ k ∈ List.range (c.eligible q).length, Rested t k) s := by
    refine Can.all _ (fun k _ s₁ s₂ hr₁ hr₂ hk => ?_) fun k hk t hrt => ?_
    · exact (kept_of_works (reach_of_works h hr₁) hr₂).rested k hk
    have hreach := reach_of_works h hrt
    have hlt := List.mem_range.mp hk
    have hget : (c.eligible q)[k]? = some (c.eligible q)[k] := List.getElem?_eq_getElem hlt
    by_cases hg : (c.eligible q)[k] = c.gateway
    · refine .now (.inl ?_)
      by_contra hthere
      obtain ⟨o, ho, hne⟩ := (shape_of_reach hreach).threads.owner k hthere
      exact hne ((Option.some.inj (ho.symm.trans hget)).trans hg)
    have hl : IsLane c q (c.eligible q)[k] k :=
      ⟨hfit.nodup, hget, hg⟩
    refine (can_settle hm hfit.near hreach hl).bind fun u hru hu => ?_
    rcases hu with hu | hu
    · -- it waits, and sees that it is to stop
      have hstop : u.gate.prefetchStop = true := by
        rw [(kept_of_works hreach hru).stop, (kept_of_works h hrt).stop]
        exact (stands_of_reach h).joining hit eligible hf
      have hst : step c q u (.prefetch k .issue) = some (u.setThread k .returned) := by
        simp [step, prefetchStep, hget, hu, hstop]
      exact .first hst ⟨⟨trivial, trivial, trivial⟩, trivial⟩ (.now (.inr (setThread_self u k _)))
    · exact .now hu
  exact hall.imp fun t _ ht k hk => ht k (List.mem_range.mpr hk)

lemma can_report (hc : Closed s) :
    Can (step c q) (fun _ a => Onward c m a) (fun t => t.finished ≠ none) s := by
  have hjoining : ∀ t : Sys N Row, Reach (step c q) (fun _ a => AllAnswered a) (init N Row) t →
      ∀ hit eligible, t.fetch = .joining hit eligible →
      Can (step c q) (fun _ a => Onward c m a) (fun t => t.finished ≠ none) t := by
    intro t hreach hit eligible hf
    obtain ⟨u, hru, hu⟩ := can_join hfit hm hreach hf
    have hfetch := (kept_of_works hreach hru).fetch.trans hf
    have hst : step c q u (.fetch .finish) = some
        { u with fetch := .idle, finished := some (hit, eligible) } := by
      simp only [step, fetchStep, hfetch, hu, if_true]
    have hrun : Reach (step c q) (fun _ a => Onward c m a) t u := hru.mono fun _ _ ha => ha.toOnward
    exact ⟨_, hrun.step (a := .fetch .finish) ⟨trivial, trivial, trivial⟩ hst,
      Option.some_ne_none _⟩
  have hcounted : ∀ t : Sys N Row, Reach (step c q) (fun _ a => AllAnswered a) (init N Row) t →
      ∀ hit eligible, t.fetch = .counted hit eligible →
      Can (step c q) (fun _ a => Onward c m a) (fun t => t.finished ≠ none) t := by
    intro t hreach hit eligible hf
    by_cases htable : (t.node c.gateway).table.isSome = true
    · have hst : step c q t (.fetch .erase) = some
          { (t.setNode c.gateway (dropRequest (t.node c.gateway))).stopPrefetch with
            fetch := .joining hit eligible } := by
        simp only [step, fetchStep, hf, htable, if_true]
      exact .first hst ⟨trivial, trivial, trivial⟩
        (hjoining _ (hreach.step (a := .fetch .erase) trivial hst) hit eligible rfl)
    · have hst : step c q t (.fetch .erase) = some
          { t.setNode c.gateway (dropRequest (t.node c.gateway)) with
            fetch := .idle, finished := some (hit, eligible) } := by
        simp only [step, fetchStep, hf, if_neg htable]
      exact .first hst ⟨trivial, trivial, trivial⟩ (.now (Option.some_ne_none _))
  rcases hc with hc | ⟨hidle, hentered⟩
  · exact .now hc
  cases hf : s.fetch with
  | idle => exact absurd hf hidle
  | entered => exact absurd hf hentered
  | drained =>
    have hst : step c q s (.fetch .count) = some { s with
        fetch := .counted s.gate.ownersResponded.card s.gate.eligibleOwners } := by
      simp only [step, fetchStep, hf, if_true]
    exact .first hst ⟨trivial, trivial, trivial⟩
      (hcounted _ (h.step (a := .fetch .count) trivial hst) _ _ rfl)
  | counted hit eligible => exact hcounted s h hit eligible hf
  | joining hit eligible => exact hjoining s h hit eligible hf

/-- **No run of a request is a dead end**, whatever the size of its chunks. -/
theorem can_finish : Can (step c q) (fun _ a => Onward c m a) (fun t => t.finished ≠ none) s := by
  refine (can_submit hfit h).bind fun t hrt hsub => ?_
  have hreach := reach_of_onward h hrt
  exact (can_close hfit hm hreach hsub).bind fun u hru hc =>
    can_report hfit hm (reach_of_onward hreach hru) hc

end Reached

end Mini2.Completes
