import Mini2.Follow

/-!
The steps of each `SubmitQuery`, of the forwards and of the prefetchers: whoever is ahead of all
others moves the one that stands for them, and the others catch up without a trace.
-/

namespace Mini2.FollowSteps

open Mini2.Proto Mini2.Net Mini2.Request Mini2.Producer Mini2.Gather Mini2.GatherSteps
open Mini2.GatherShape Mini2.Runs Mini2.Lane Mini2.Forwarded Mini2.ExactlyOnce Mini2.Progress
open Mini2.Traces Mini2.Outcome Mini2.Course Mini2.Resubmit Mini2.Follow

variable {N Query Row : Type} [DecidableEq N] {c : Config N Query Row} {q : Query}
  {x : ReSys N Row} {v w : Single N} {s s' : Sys N Row} {j k : ℕ}

/-! ### The prefetchers -/

/-- The one that stands for all does what a prefetcher of the `k`-th owner has done. -/
def after (v : Single N) (s' : Sys N Row) (k : ℕ) : Single N :=
  { v with
    done := fun o => s'.gate.clientProducersDone o || v.done o
    thread := Function.update v.thread k (s'.thread k) }

omit [DecidableEq N] in
lemma after_eq (s' : Sys N Row) {d : N → Bool} {pc : ThreadPc}
    (hd : ∀ o, (s'.gate.clientProducersDone o || v.done o) = d o) (hp : s'.thread k = pc) :
    after v s' k = { v with done := d, thread := Function.update v.thread k pc } := by
  subst hp
  obtain rfl := funext hd
  rfl

lemma prefetchStep_on (ht : v.thread k = s.thread k)
    (hd : ∀ o, s.gate.clientProducersDone o = true → v.done o = true) (a : PrefetchAct) :
    prefetchStep c q (v.on s) k a =
      (prefetchStep c q s k a).map fun s' => (after v s' k).on s' := by
  have hdone : ∀ o, (s.gate.clientProducersDone o || v.done o) = v.done o := fun o =>
    Bool.or_eq_right_iff_imp.mpr (hd o)
  have hset : ∀ pc, (v.on s).setThread k pc =
      (after v (s.setThread k pc) k).on (s.setThread k pc) := by
    intro pc
    rw [after_eq (s.setThread k pc) hdone (setThread_self ..)]
    rfl
  have hfail : ∀ o, (v.on s).failThread k o =
      (after v (s.failThread k o) k).on (s.failThread k o) := by
    intro o
    have hflag : ∀ o', ((s.failThread k o).gate.clientProducersDone o' || v.done o') =
        Function.update v.done o true o' := by
      intro o'
      by_cases ho : o' = o
      · subst ho
        simp [Sys.failThread, Sys.markDone]
      · simp [Sys.failThread, Sys.markDone, ho, hdone]
    rw [after_eq (s.failThread k o) hflag (setThread_self ..)]
    rfl
  have hres : ∀ o code out isLast, prefetchResult (v.on s) k o code out isLast =
      (after v (prefetchResult s k o code out isLast) k).on
        (prefetchResult s k o code out isLast) := by
    intro o code out isLast
    unfold prefetchResult
    split
    · rw [after_eq (s.gotChunk k o out isLast) hdone (setThread_self ..)]
      rfl
    · split
      · exact hset _
      · exact hfail o
  unfold prefetchStep
  cases (c.eligible q)[k]? with
  | none => rfl
  | some o =>
    have hthread : (v.on s).thread k = s.thread k := ht
    simp only [hthread]
    cases s.thread k with
    | starting =>
      cases a with
      | start =>
        simp only
        cases c.overlay.nextHop c.gateway o with
        | ok hop => exact congrArg some (hset _)
        | error e => exact congrArg some (hfail o)
      | _ => rfl
    | waiting =>
      cases a with
      | issue =>
        have hstop : (v.on s).gate.prefetchStop = s.gate.prefetchStop := rfl
        have hbuf : (v.on s).gate.prefetchBuf = s.gate.prefetchBuf := rfl
        have hpd : (v.on s).gate.prefetchDone = s.gate.prefetchDone := rfl
        have hself : (v.on s).self c = s.self c := rfl
        simp only [hstop, hbuf, hpd, hself]
        split
        · exact congrArg some (hset _)
        · split
          · split
            · exact congrArg some (hset _)
            · cases c.overlay.nextHop c.gateway o with
              | ok hop =>
                simp only [Option.map_some]
                rw [after_eq { s.setThread k (.pulling s.pull.length) with
                  pull := s.pull ++ [⟨o, .at hop⟩] } hdone (setThread_self ..)]
                rfl
              | error e => rfl
          · rfl
      | _ => rfl
    | pulling i =>
      cases a with
      | receive =>
        have hpull : (v.on s).pull = s.pull := rfl
        simp only [hpull]
        rcases s.pull[i]? with _ | ⟨o', stage⟩
        · rfl
        · cases stage with
          | replied code out isLast => exact congrArg some (hres o code out isLast)
          | _ => rfl
      | failed code =>
        simp only
        split
        · rfl
        · exact congrArg some (hres o code [] false)
      | _ => rfl
    | _ => rfl

lemma halted_iff (hst : prefetchStep c q s k .issue = some s') :
    Halted c q s k ↔ s'.thread k = .returned := by
  unfold prefetchStep at hst
  split at hst
  next => cases hst
  next o hk =>
    split at hst
    next => simp at *
    next ht _ =>
      split at hst
      next hstop =>
        obtain rfl := Option.some.inj hst
        refine iff_of_true ?_ (setThread_self ..)
        exact hstop.imp_right .inl
      next hstop =>
        split at hst
        next hb =>
          split at hst
          next hd =>
            obtain rfl := Option.some.inj hst
            exact iff_of_true (.inr (.inr ⟨o, hk, hd⟩)) (setThread_self ..)
          next hd =>
            split at hst
            next => cases hst
            next hop hn =>
              obtain rfl := Option.some.inj hst
              refine iff_of_false ?_ (by simp [Sys.setThread])
              rintro (h | h | ⟨o', ho', h⟩)
              · exact hstop (.inl h)
              · exact hstop (.inr h)
              · obtain rfl := Option.some.inj (hk.symm.trans ho')
                exact hd h
        next => cases hst
    next => simp at *
    next => simp at *
    next => cases hst

/-- What a step of a prefetcher of the `k`-th owner leaves alone. -/
structure Leaves (s s' : Sys N Row) (k : ℕ) : Prop where
  there : s.thread k ≠ .absent
  thread : s'.thread = Function.update s.thread k (s'.thread k)
  submit : s'.submit = s.submit
  fwd : s'.fwd = s.fwd
  node : s'.node = s.node
  stop : s'.gate.prefetchStop = s.gate.prefetchStop
  flags : ∀ o, s.gate.clientProducersDone o = true → s'.gate.clientProducersDone o = true
  done : ∀ o, s.gate.prefetchDone o = true → s'.gate.prefetchDone o = true

lemma leaves_of_prefetches {a : PrefetchAct} (hst : Prefetches c q s k a s') : Leaves s s' k := by
  have hset : ∀ {f : N → Bool} {o o' : N}, f o' = true → Function.update f o true o' = true := by
    intro f o o' h
    by_cases ho : o' = o
    · subst ho
      exact Function.update_self ..
    · rwa [Function.update_of_ne ho]
  have hthread : ∀ {pc : ThreadPc}, Function.update s.thread k pc =
      Function.update s.thread k (Function.update s.thread k pc k) := by
    intro pc
    rw [Function.update_self]
  cases hst with
  | start _ ht | stop _ ht | issue _ ht | expired _ ht | timeout _ ht =>
    exact ⟨by simp [ht], hthread, rfl, rfl, rfl, rfl, fun _ => id, fun _ => id⟩
  | noHop _ ht | refused _ ht | failed _ ht =>
    exact ⟨by simp [ht], hthread, rfl, rfl, rfl, rfl, fun _ => hset, fun _ => hset⟩
  | receive _ ht =>
    refine ⟨by simp [ht], hthread, rfl, rfl, rfl, rfl, fun _ => id, fun o hd => ?_⟩
    simp only [Sys.gotChunk]
    split
    · exact hset hd
    · exact hd

omit [DecidableEq N] in
lemma pooled_put (h : Pooled c q x v) (hmove : Behind (x.submit j) s'.submit)
    (hthread : ∀ k' ≠ k, s'.thread k' = x.thread j k')
    (hpassed : s'.thread k ≠ .absent → Passed s'.submit k)
    (hspent : ∀ k', Spent c q x.sys k' → Spent c q s' k')
    (hw : ∀ k' ≠ k, w.thread k' = v.thread k')
    (hm : Merged (Spent c q s' k) (Function.update (fun j' => x.thread j' k) j (s'.thread k))
      (w.thread k)) : Pooled c q { x.put j s' with renewed := false } w := by
  have hpool : ∀ k', (fun j' => (x.put j s').thread j' k') =
      Function.update (fun j' => x.thread j' k') j (s'.thread k') := by
    intro k'
    funext j'
    by_cases hjj : j' = j
    · subst hjj
      simp [ReSys.put]
    · simp [ReSys.put, hjj]
  constructor
  case spawned =>
    intro j' k' ht
    have ht : Function.update (fun j' => x.thread j' k') j (s'.thread k') j' ≠ .absent := fun hu =>
      ht ((congrFun (hpool k') j').trans hu)
    show Passed ((x.put j s').submit j') k'
    by_cases hjj : j' = j
    · subst hjj
      rw [Function.update_self] at ht
      rw [show (x.put j' s').submit j' = s'.submit from Function.update_self ..]
      by_cases hkk : k' = k
      · subst hkk
        exact hpassed ht
      · rw [hthread k' hkk] at ht
        exact hmove.passed (h.spawned j' k' ht)
    · rw [Function.update_of_ne hjj] at ht
      rw [show (x.put j s').submit j' = x.submit j' from Function.update_of_ne hjj _ _]
      exact h.spawned j' k' ht
  case merged =>
    intro k'
    show Merged (Spent c q s' k') (fun j' => (x.put j s').thread j' k') (w.thread k')
    rw [hpool k']
    by_cases hkk : k' = k
    · subst hkk
      exact hm
    · rw [hw k' hkk, hthread k' hkk, Function.update_eq_self]
      exact (h.merged k').mono (hspent k')

/-- A prefetcher of the `j`-th call has moved on, and `w` has followed it or not. -/
lemma prefetched (h : Follows c q x v) (hl : Leaves (x.focus j) s' k) (hsub : w.submit = v.submit)
    (hfwd : w.fwd = v.fwd) (hthread : ∀ k' ≠ k, w.thread k' = v.thread k')
    (hdone : ∀ o, w.done o = true ↔ s'.gate.clientProducersDone o = true ∨ v.done o = true)
    (hm : Merged (Spent c q s' k) (Function.update (fun j' => x.thread j' k) j (s'.thread k))
      (w.thread k)) : Follows c q (x.put j s') w := by
  have hsubmit : (x.put j s').submit = x.submit := by
    show Function.update x.submit j s'.submit = x.submit
    rw [hl.submit]
    exact Function.update_eq_self ..
  have hsame : ∀ k' ≠ k, s'.thread k' = x.thread j k' := by
    intro k' hkk
    rw [hl.thread, Function.update_of_ne hkk]
    rfl
  have hgens : ∀ n, (s'.node n).gens = (x.sys.node n).gens := fun n => by rw [hl.node]; rfl
  have ht := h.tracks.frame hl.fwd hgens
  have hmove : Behind (x.submit j) s'.submit := by
    rw [hl.submit]
    exact .refl _
  have hp := pooled_put h.pooled hmove hsame
    (fun _ => hmove.passed (h.pooled.spawned j k hl.there))
    (fun _ hs => hs.mono (hl.stop ▸ id) hl.done) hthread hm
  refine ⟨h.once, fun o hd => (hdone o).mpr (.inl hd), fun o ho he hd => ?_, ?_,
    ⟨hp.spawned, hp.merged⟩⟩
  · rcases (hdone o).mp hd with hd | hd
    · exact hd
    · exact hl.flags o (h.spare o ho he hd)
  · constructor
    case behind =>
      rw [hsub, hsubmit]
      exact ht.behind
    case ahead =>
      rw [hsub, hsubmit]
      exact ht.ahead
    case unborn =>
      rw [hsubmit]
      exact ht.unborn
    case begun =>
      rw [hsub]
      exact ht.begun
    case awaiting =>
      rw [hsubmit]
      exact ht.awaiting
    case sent =>
      rw [hsub]
      exact ht.sent
    case told =>
      rw [hsub, hfwd]
      exact ht.told

section Steps

variable (hreach : Reach (step c q) (fun _ a => AllAnswered a) (init N Row) (v.on x.sys))
  (h : Follows c q x v)

include hreach h

lemma prefetched_lead {a : PrefetchAct} (ha : ∀ code, a ≠ .failed code)
    (hst : prefetchStep c q (x.focus j) k a = some s') (hrep : v.thread k = x.thread j k)
    (hm : Merged (Spent c q s' k) (Function.update (fun j' => x.thread j' k) j (s'.thread k))
      (s'.thread k)) : Followed c q (x.put j s') := by
  have hstep : step c q (v.on x.sys) (.prefetch k a) = some ((after v s' k).on s') := by
    show prefetchStep c q (v.on (x.focus j)) k a = _
    rw [prefetchStep_on (s := x.focus j) hrep h.done, hst]
    rfl
  have hok : AllAnswered (.prefetch k a : Act N) := by
    cases a with
    | failed code => exact absurd rfl (ha code)
    | _ => trivial
  have hl := leaves_of_prefetches (prefetches_of_step hst)
  refine ⟨after v s' k, .step hreach hok hstep, ?_⟩
  refine prefetched h hl rfl rfl (fun k' hkk => Function.update_of_ne hkk _ _)
    (fun o => Bool.or_eq_true_iff) ?_
  show Merged _ _ (Function.update v.thread k (s'.thread k) k)
  rwa [Function.update_self]

lemma prefetched_behind {pc : ThreadPc} (ht : x.thread j k ≠ .absent)
    (hm : Merged (Spent c q x.sys k) (Function.update (fun j' => x.thread j' k) j pc)
      (v.thread k)) : Followed c q (x.put j ((x.focus j).setThread k pc)) := by
  refine ⟨v, hreach, prefetched (k := k) h ?_ rfl rfl (fun _ _ => rfl)
    (fun o => ⟨.inr, fun hd => hd.elim (h.done o) id⟩) ?_⟩
  · exact ⟨ht, by rw [setThread_self]; rfl, rfl, rfl, rfl, rfl, fun _ => id, fun _ => id⟩
  · rwa [setThread_self]

variable (hr : WithinTtl c q)

include hr

lemma followed_prefetch {a : PrefetchAct} (ha : ∀ code, a ≠ .failed code)
    (hharm : a = .issue → Halted c q x.sys k ∨ ∀ j' < x.calls, j' ≠ j →
      ∀ i < x.sys.pull.length, x.thread j' k ≠ .pulling i)
    (hst : prefetchStep c q (x.focus j) k a = some s') : Followed c q (x.put j s') := by
  have hm := h.pooled.merged k
  have hthreads := (shape_of_reach hreach).threads
  cases prefetches_of_step hst with
  | @start o hop hk ht hn =>
    rcases hm.start ht with ⟨hrep, hm'⟩ | hm'
    · refine prefetched_lead hreach h ha hst (hrep.trans ht.symm) ?_
      rwa [setThread_self]
    · exact prefetched_behind hreach h (by rw [show x.thread j k = _ from ht]; simp) hm'
  | @noHop o e hk ht hn =>
    -- the gateway knows the way to every owner that it asks
    have hrep : v.thread k ≠ .absent := by
      intro hrep
      rw [hrep] at hm
      exact absurd ((hm j).symm.trans ht) (by simp)
    obtain ⟨o', hk', hne⟩ := hthreads.owner k hrep
    obtain rfl := Option.some.inj (hk.symm.trans hk')
    obtain ⟨hop, hnext, -⟩ := hop_of_withinTtl hr (List.mem_of_getElem? hk) hne
    rw [hnext] at hn
    cases hn
  | @stop o hk ht =>
    have hspent : Spent c q x.sys k := by
      rcases (halted_iff hst).mpr (setThread_self ..) with hs | hs | hs
      · exact .inl hs
      · have := uncancelled_of_reach (notCancelled fun _ _ => id) hreach c.gateway 0
        rw [show ((x.focus j).self c).cancelled = _ from this] at hs
        cases hs
      · exact .inr hs
    rcases hm.stop ht hspent with ⟨hrep, hm'⟩ | hm'
    · refine prefetched_lead hreach h ha hst (hrep.trans ht.symm) ?_
      rwa [setThread_self]
    · exact prefetched_behind hreach h (by rw [show x.thread j k = _ from ht]; simp) hm'
  | @issue o hop hk ht hb hd hn =>
    have hnot : ¬ Halted c q x.sys k := by
      intro hh
      have := (halted_iff hst).mp hh
      simp [Sys.setThread] at this
    have hspent : ¬ Spent c q x.sys k := fun hs => hnot (hs.imp_right .inr)
    have hno : ∀ j' i', x.thread j' k ≠ .pulling i' := by
      intro j' i' hp
      obtain ⟨o', stage, -, hpull⟩ := hthreads.pulling k i' (hm.pulling hp).1
      have hlt := (List.getElem?_eq_some_iff.mp hpull).1
      have hjj : j' ≠ j := by
        rintro rfl
        exact absurd (hp.symm.trans ht) (by simp)
      have hne : x.thread j' k ≠ .absent := by simp [hp]
      exact ((hharm rfl).resolve_left hnot) j' (h.lt_calls hne) hjj i' hlt hp
    obtain ⟨hrep, hm'⟩ := hm.issue ht hspent hno x.sys.pull.length
    refine prefetched_lead hreach h ha hst (hrep.trans ht.symm) ?_
    show Merged _ (Function.update _ j ((x.focus j |>.setThread k _).thread k))
      ((x.focus j |>.setThread k _).thread k)
    rwa [setThread_self]
  | @receive o o' i out isLast hk ht hp =>
    refine prefetched_lead hreach h ha hst ((hm.pulling ht).1.trans ht.symm) ?_
    refine hm.receive ht ?_
    cases isLast with
    | false => exact .inl (setThread_self ..)
    | true => exact .inr ⟨setThread_self .., .inr ⟨o, hk, Function.update_self ..⟩⟩
  | @expired o o' i out isLast hk ht hp =>
    refine prefetched_lead hreach h ha hst ((hm.pulling ht).1.trans ht.symm) ?_
    exact hm.receive ht (.inl (setThread_self ..))
  | @refused o o' i code out isLast hk ht hp hc hd =>
    refine prefetched_lead hreach h ha hst ((hm.pulling ht).1.trans ht.symm) ?_
    exact hm.receive ht (.inr ⟨setThread_self .., .inr ⟨o, hk, Function.update_self ..⟩⟩)
  | timeout => exact absurd rfl (ha _)
  | failed => exact absurd rfl (ha _)

end Steps

/-! ### The forwards -/

/-- A forward whose owner is near enough is relayed until its owner has the request. -/
lemma deliver {o : N} {f h : ℕ} {n : N} {r : Bool} {ttl : ℕ}
    (hreach : Reach (step c q) (fun _ a => AllAnswered a) (init N Row) s)
    (hf : s.fwd[f]? = some ⟨o, r, .at n ttl⟩) (hlt : h < ttl) (hroute : Routes c.overlay o h n) :
    ∃ r', Reach (step c q) (fun _ a => AllAnswered a) (init N Row)
      ((s.setNode o (registerRequest (c.shard o) q 1 (s.node o))).setFwd f
        ⟨o, r', .answered .ok⟩) := by
  induction h generalizing s n r ttl with
  | zero =>
    obtain rfl : n = o := hroute
    refine ⟨r, .step (a := .forward f) hreach trivial ?_⟩
    have hhere : c.overlay.toward n n = .here := toward_here_iff.mpr rfl
    simp only [step, forwardStep, hf, if_neg (Nat.ne_of_gt hlt), hhere]
  | succ h ih =>
    obtain ⟨nh, hn, hroute⟩ := hroute
    have hlen := (List.getElem?_eq_some_iff.mp hf).1
    have hstep : step c q s (.forward f) = some (s.setFwd f ⟨o, true, .at nh (ttl - 1)⟩) := by
      simp only [step, forwardStep, hf, if_neg (Nat.ne_of_gt (Nat.zero_lt_of_lt hlt)), hn]
    have hget : (s.setFwd f ⟨o, true, .at nh (ttl - 1)⟩).fwd[f]? =
        some ⟨o, true, .at nh (ttl - 1)⟩ := List.getElem?_set_self hlen
    obtain ⟨r', hr'⟩ := ih (.step (a := .forward f) hreach trivial hstep) hget (by omega) hroute
    refine ⟨r', ?_⟩
    have hset : ((s.setFwd f ⟨o, true, .at nh (ttl - 1)⟩).setNode o
        (registerRequest (c.shard o) q 1 (s.node o))).setFwd f ⟨o, r', .answered .ok⟩ =
        (s.setNode o (registerRequest (c.shard o) q 1 (s.node o))).setFwd f
          ⟨o, r', .answered .ok⟩ := by
      simp [Sys.setFwd, Sys.setNode, List.set_set]
    rw [← hset]
    exact hr'

omit [DecidableEq N] in
lemma register_gens_pos {n : N} (hok : EntryOk (c.shard n) q (s.node n)) :
    0 < (registerRequest (c.shard n) q 1 (s.node n)).gens := by
  obtain ⟨g, hg⟩ := Option.ne_none_iff_exists'.mp
    (registerRequest_table (c.shard n) q 1 (s.node n))
  have := (hok.register 1).table g hg
  omega

lemma arrives_forward {f : ℕ} (hok : EntriesOk c q s) (hst : GatherSteps.Forwards c q s f s') :
    ∃ p p', s.fwd[f]? = some p ∧ s'.fwd = s.fwd.set f p' ∧ p'.owner = p.owner ∧
      (Arrives c s p → Arrives c s' p') := by
  cases hst with
  | expired hf =>
    refine ⟨_, _, hf, rfl, rfl, ?_⟩
    rintro ⟨h, hlt, -⟩
    exact absurd hlt (Nat.not_lt_zero h)
  | @register o r ttl hf ht =>
    refine ⟨_, _, hf, rfl, rfl, fun _ => ⟨rfl, ?_⟩⟩
    simpa [Sys.setFwd] using register_gens_pos (hok o)
  | noRoute hf ht hh hn =>
    refine ⟨_, _, hf, rfl, rfl, ?_⟩
    rintro ⟨h, -, hroute⟩
    exact absurd ⟨h, hroute⟩ (not_leads hh hn)
  | @relay o n nh r ttl hf ht hn =>
    refine ⟨_, _, hf, rfl, rfl, ?_⟩
    rintro ⟨h, hlt, hroute⟩
    cases h with
    | zero => exact absurd hroute (toward_hop_iff.mp hn).1
    | succ h =>
      obtain ⟨m, hm, hroute⟩ := hroute
      obtain rfl : m = nh := by simpa using hm.symm.trans hn
      have hless : h < ttl - 1 := by omega
      exact ⟨h, hless, hroute⟩

lemma forward_frame {f : ℕ} (hst : GatherSteps.Forwards c q s f s') :
    s' = { s with node := s'.node, fwd := s'.fwd } := by
  cases hst <;> rfl

lemma forward_node {f : ℕ} (hst : GatherSteps.Forwards c q s f s') :
    s'.node = s.node ∨ ∃ p, s.fwd[f]? = some p ∧ arrived p = true ∧ s'.node =
      Function.update s.node p.owner
        (registerRequest (c.shard p.owner) q 1 (s.node p.owner)) := by
  cases hst with
  | register hf ht => exact .inr ⟨_, hf, by simpa [arrived] using ht, rfl⟩
  | _ => exact .inl rfl

/-- An owner that has been asked, and not left behind, is the one `SubmitQuery` waits for. -/
lemma awaiting_of_asked {pc : SubmitPc} (h : Asked pc k) (hp : ¬ past pc k) :
    ∃ a f, pc = .awaiting k a f := by
  cases pc with
  | awaiting k' a f =>
    simp only [Asked, phase, spot, true_and, past] at h hp
    obtain rfl : k = k' := by omega
    exact ⟨a, f, rfl⟩
  | forwarding k' a =>
    simp only [Asked, phase, spot, true_and, past] at h hp
    omega
  | spawning k' => exact absurd trivial hp
  | returned => exact absurd trivial hp
  | _ => simp [Asked, phase] at h

lemma tracks_forward (h : Tracks c q x v) {f : ℕ} {p p' : ForwardCall N}
    (hp : x.sys.fwd[f]? = some p) (hset : s'.fwd = x.sys.fwd.set f p') (ho : p'.owner = p.owner)
    (harr : Arrives c x.sys p → Arrives c s' p')
    (hg : ∀ n, (x.sys.node n).gens ≤ (s'.node n).gens) (hw : w.submit = v.submit)
    (htold : ∀ k a f p, v.submit = .awaiting k a f → w.fwd[f]? = some p →
      0 < (s'.node p.owner).gens → answered p.stage = true) :
    Tracks c q { x with sys := s' } w where
  behind := hw ▸ h.behind
  ahead := hw ▸ h.ahead
  unborn := h.unborn
  begun := hw ▸ h.begun.imp_right fun hb => ⟨hb.1, hb.2.trans_le (hg _)⟩
  awaiting j k a f' hs := by
    obtain ⟨p₀, hp₀, hk, harr₀⟩ := h.awaiting j k a f' hs
    by_cases hff : f' = f
    · subst hff
      obtain rfl := Option.some.inj (hp.symm.trans hp₀)
      have hlen := (List.getElem?_eq_some_iff.mp hp).1
      exact ⟨p', by rw [hset, List.getElem?_set_self hlen], ho ▸ hk, harr harr₀⟩
    · exact ⟨p₀, by rw [hset, List.getElem?_set_ne (Ne.symm hff), hp₀], hk, arrives_mono harr₀ hg⟩
  sent r hr := by
    rw [hset] at hr
    rw [hw]
    rcases List.mem_or_eq_of_mem_set hr with hr | rfl
    · exact h.sent r hr
    · rw [ho]
      exact h.sent p (List.mem_of_getElem? hp)
  told k a f' p₀ hs := htold k a f' p₀ (hw ▸ hs)

lemma followed_forward (hr : WithinTtl c q)
    (hreach : Reach (step c q) (fun _ a => AllAnswered a) (init N Row) (v.on x.sys))
    (h : Follows c q x v) {f : ℕ}
    (hharm : ∀ p ∈ x.sys.fwd[f]?, arrived p = true → ¬ Dropped (x.sys.node p.owner))
    (hst : forwardStep c q x.sys f = some s') : Followed c q { x with sys := s' } := by
  have hst := forwards_of_step hst
  have hok : EntriesOk c q x.sys := (shape_of_reach hreach).entries
  have hframe := forward_frame hst
  obtain ⟨p, p', hp, hset, ho, harr⟩ := arrives_forward hok hst
  have hg : ∀ n, (x.sys.node n).gens ≤ (s'.node n).gens := fun n =>
    (node_move (.forward hst) n).gens_le (hok n)
  have hfollows : ∀ {w : Single N}, w.submit = v.submit → w.done = v.done → w.thread = v.thread →
      (∀ k a f p, v.submit = .awaiting k a f → w.fwd[f]? = some p →
        0 < (s'.node p.owner).gens → answered p.stage = true) →
      Follows c q { x with sys := s' } w := by
    intro w hsub hdone hthread htold
    refine ⟨h.once, ?_, ?_, tracks_forward h.tracks hp hset ho harr hg hsub htold,
      h.pooled.spawned, ?_⟩
    · rw [hframe, hdone]
      exact h.done
    · rw [hframe, hdone]
      exact h.spare
    · rw [hframe, hthread]
      exact h.pooled.merged
  have hsame : s'.node = x.sys.node → Followed c q { x with sys := s' } := by
    intro hnode
    have hon : v.on s' = v.on x.sys := by
      rw [hframe, hnode]
      rfl
    refine ⟨v, hon ▸ hreach, hfollows rfl rfl rfl ?_⟩
    rw [hnode]
    exact h.tracks.told
  rcases forward_node hst with hnode | ⟨p₁, hp₁, harrived, hnode⟩
  · exact hsame hnode
  obtain rfl := Option.some.inj (hp.symm.trans hp₁)
  cases ht : (x.sys.node p.owner).table with
  | some g =>
    -- the owner has the request
    refine hsame (hnode.trans ?_)
    rw [show registerRequest (c.shard p.owner) q 1 (x.sys.node p.owner) = x.sys.node p.owner by
      rw [registerRequest, ht]]
    exact Function.update_eq_self ..
  | none =>
    -- it has never had it, and the one that stands for all is waiting for it
    have hzero : (x.sys.node p.owner).gens = 0 :=
      Nat.eq_zero_of_not_pos fun hpos => hharm p hp harrived ⟨ht, hpos⟩
    obtain ⟨hne, k, hk, hasked⟩ := h.tracks.sent p (List.mem_of_getElem? hp)
    have hforwards := forwards_of_reach hr (fun _ _ ha => ha.forwardsAnswered) hreach
    have hnot : ¬ past v.submit k := fun hpast => by
      have := hforwards.past k p.owner hk hne hpast
      exact absurd hzero (Nat.ne_of_gt this)
    obtain ⟨a, f₀, hsub⟩ := awaiting_of_asked hasked hnot
    obtain ⟨⟨o, r, stage⟩, hp₀, hk₀⟩ := hforwards.awaiting k a f₀ hsub
    obtain rfl : p.owner = o := Option.some.inj (hk.symm.trans hk₀)
    have harr₀ := hforwards.arrives _ (List.mem_of_getElem? hp₀)
    cases stage with
    | answered code => exact absurd hzero (Nat.ne_of_gt harr₀.2)
    | «at» n ttl =>
      obtain ⟨d, hlt, hroute⟩ := harr₀
      obtain ⟨r', hreach'⟩ := deliver hreach hp₀ hlt hroute
      let w : Single N := { v with fwd := v.fwd.set f₀ ⟨p.owner, r', .answered .ok⟩ }
      have hon : w.on s' = ((v.on x.sys).setNode p.owner
          (registerRequest (c.shard p.owner) q 1 ((v.on x.sys).node p.owner))).setFwd f₀
            ⟨p.owner, r', .answered .ok⟩ := by
        rw [hframe, hnode]
        rfl
      refine ⟨w, hon ▸ hreach', hfollows rfl rfl rfl fun k' a' f' p₂ hs hp₂ _ => ?_⟩
      obtain ⟨-, -, rfl⟩ := SubmitPc.awaiting.inj (hsub.symm.trans hs)
      have hlen := (List.getElem?_eq_some_iff.mp hp₀).1
      obtain rfl := Option.some.inj ((List.getElem?_set_self hlen).symm.trans hp₂)
      rfl

end Mini2.FollowSteps
