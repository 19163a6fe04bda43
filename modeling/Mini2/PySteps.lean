import Mini2.PyGateway

/-!
What each step of a Python gateway can do, and what holds of it in every run in which every call
is answered and the client fetches what `SubmitQuery` has returned: its calls are awaited one at a
time.
-/

namespace Mini2.PySteps

open Mini2.Proto Mini2.Net Mini2.Request Mini2.Producer Mini2.Gather Mini2.GatherSteps
open Mini2.GatherShape Mini2.Forwarded Mini2.PyGateway Mini2.Runs

variable {N Query Row : Type} [DecidableEq N]

section Cases

variable (c : Config N Query Row) (q : Query)

inductive PySubmits (s : Sys N Row) : PySubmitAct → Sys N Row → Prop
  | register (h : s.submit = .idle) (hr : c.overlay.role c.gateway = .gateway) :
      PySubmits s .register
        { s.setNode c.gateway (registerRequest (c.shard c.gateway) q 1 (s.node c.gateway)) with
          submit := .registered }
  | refuse (h : s.submit = .idle) : PySubmits s .register { s with submit := .failed }
  | mark (h : s.submit = .registered) :
      PySubmits s .mark { unmark c s with submit := .forwarding 0 0 }
  | finish {k a : ℕ} (h : s.submit = .forwarding k a) (hk : c.overlay.dataOwners[k]? = none) :
      PySubmits s .next { s with submit := .returned }
  | itself {k a : ℕ} (h : s.submit = .forwarding k a)
      (hk : c.overlay.dataOwners[k]? = some c.gateway) :
      PySubmits s .next { s with submit := .forwarding (k + 1) 0 }
  | throws {k a : ℕ} {o : N} (h : s.submit = .forwarding k a)
      (hk : c.overlay.dataOwners[k]? = some o) (ho : o ≠ c.gateway)
      (hn : ∀ hop, c.overlay.nextHop c.gateway o = .ok hop → c.overlay.hasNode hop = false) :
      PySubmits s .next { s with submit := .failed }
  | call {k a : ℕ} {o hop : N} (h : s.submit = .forwarding k a)
      (hk : c.overlay.dataOwners[k]? = some o) (ho : o ≠ c.gateway)
      (hn : c.overlay.nextHop c.gateway o = .ok hop) (hh : c.overlay.hasNode hop = true) :
      PySubmits s .next { s with
        submit := .awaiting k a s.fwd.length
        fwd := s.fwd ++ [⟨o, false, .at hop 8⟩] }
  | delivered {k a f : ℕ} {o : N} {r : Bool} (h : s.submit = .awaiting k a f)
      (hf : s.fwd[f]? = some ⟨o, r, .answered .ok⟩) :
      PySubmits s .answered { s with submit := .forwarding (k + 1) 0 }
  | dead {k a f : ℕ} {o : N} {r : Bool} {code : StatusCode} (h : s.submit = .awaiting k a f)
      (hf : s.fwd[f]? = some ⟨o, r, .answered code⟩) (hc : code ≠ .ok) :
      PySubmits s .answered { s.markDone o with submit := .forwarding (k + 1) 0 }
  | failed {k a f : ℕ} {o : N} (h : s.submit = .awaiting k a f) :
      PySubmits s .failed { s.markDone o with submit := .forwarding (k + 1) 0 }
  | relayFailed {k a f : ℕ} (h : s.submit = .awaiting k a f) :
      PySubmits s .relayFailed { s with submit := .forwarding (k + 1) 0 }

inductive PyFetches (x : PySys N Row) : PyFetchAct → PySys N Row → Prop
  | unknown {t₁ t₂ : ℕ} {maxRows : ℤ} (h : x.fetch = .idle)
      (ht : (x.sys.node c.gateway).table = none) :
      PyFetches x (.start t₁ t₂ maxRows) (x.fail .notFound)
  | noOwners {t₁ t₂ : ℕ} {maxRows : ℤ} (h : x.fetch = .idle) (hd : c.overlay.dataOwners = []) :
      PyFetches x (.start t₁ t₂ maxRows) (x.fail .unknown)
  | start {t₁ t₂ g : ℕ} {maxRows : ℤ} (h : x.fetch = .idle)
      (ht : (x.sys.node c.gateway).table = some g) :
      PyFetches x (.start t₁ t₂ maxRows) { x with
        fetch := .round g maxRows.toNat (rotated c.overlay.dataOwners t₁ t₂) }
  | stop {late : Bool} {g m : ℕ} {o : N} {rest : List N} (h : x.fetch = .round g m (o :: rest))
      (hw : ((x.sys.node c.gateway).obj g).cancelled = true ∨ m ≤ x.buffer.length ∨ late = true) :
      PyFetches x (.next late) { x with fetch := .round g m [] }
  | skip {late : Bool} {g m : ℕ} {o : N} {rest : List N} (h : x.fetch = .round g m (o :: rest))
      (hd : x.sys.gate.clientProducersDone o = true) :
      PyFetches x (.next late) { x with fetch := .round g m rest }
  | raises {late : Bool} {g m : ℕ} {o : N} {rest : List N} (h : x.fetch = .round g m (o :: rest))
      (hn : ∀ hop, c.overlay.nextHop c.gateway o = .ok hop → c.overlay.hasNode hop = false) :
      PyFetches x (.next late) (x.fail .unknown)
  | issue {late : Bool} {g m : ℕ} {o hop : N} {rest : List N}
      (h : x.fetch = .round g m (o :: rest)) (hd : x.sys.gate.clientProducersDone o = false)
      (hn : c.overlay.nextHop c.gateway o = .ok hop) :
      PyFetches x (.next late) { x with
        sys := { x.sys with pull := x.sys.pull ++ [⟨o, .at hop⟩] }
        fetch := .pulling g m o rest x.sys.pull.length }
  | receive {g m i : ℕ} {o o' : N} {rest : List N} {out : List Row} {isLast : Bool}
      (h : x.fetch = .pulling g m o rest i)
      (hp : x.sys.pull[i]? = some ⟨o', .replied .ok out isLast⟩) :
      PyFetches x .receive { x with
        sys := if isLast then x.sys.markDone o else x.sys
        buffer := x.buffer ++ out.map (o, ·)
        fetch := .round g m rest }
  | refused {g m i : ℕ} {o o' : N} {rest : List N} {code : StatusCode} {out : List Row}
      {isLast : Bool} (h : x.fetch = .pulling g m o rest i)
      (hp : x.sys.pull[i]? = some ⟨o', .replied code out isLast⟩) (hc : code ≠ .ok) :
      PyFetches x .receive { x with sys := x.sys.markDone o, fetch := .round g m rest }
  | failed {g m i : ℕ} {o : N} {rest : List N} (h : x.fetch = .pulling g m o rest i) :
      PyFetches x .failed { x with sys := x.sys.markDone o, fetch := .round g m rest }
  | last {g m : ℕ} (h : x.fetch = .round g m []) (hd : othersDone c x.sys = true)
      (hb : x.buffer = []) :
      PyFetches x .emit { x with
        sys := x.sys.setNode c.gateway (x.sys.node c.gateway).erase
        fetch := .dropping }
  | emit {g m : ℕ} (h : x.fetch = .round g m [])
      (hl : ¬ (othersDone c x.sys = true ∧ x.buffer = [])) :
      PyFetches x .emit { x with
        sys := { x.sys with log := x.sys.log ++ x.buffer.take m }
        buffer := x.buffer.drop m
        fetch := .idle }
  | unschedule (h : x.fetch = .dropping) :
      PyFetches x .unschedule { x with
        sys := x.sys.setNode c.gateway (x.sys.node c.gateway).unschedule
        fetch := .idle
        ended := true }

end Cases

variable {c : Config N Query Row} {q : Query} {s s' : Sys N Row} {x x' : PySys N Row}

lemma pySubmits_of_step {a : PySubmitAct} (h : pySubmitStep c q s a = some s') :
    PySubmits c q s a s' := by
  unfold pySubmitStep at h
  cases a <;> simp only at h
  case register =>
    split at h
    next hs =>
      split at h <;> obtain rfl := Option.some.inj h
      next hr => exact .register hs hr
      next => exact .refuse hs
    next => cases h
  case mark =>
    split at h
    next hs =>
      obtain rfl := Option.some.inj h
      exact .mark hs
    next => cases h
  case next =>
    split at h
    next k a hs =>
      split at h
      next hk =>
        obtain rfl := Option.some.inj h
        exact .finish hs hk
      next o hk =>
        split at h
        next ho =>
          obtain rfl := Option.some.inj h
          exact .itself hs (ho ▸ hk)
        next ho =>
          split at h
          next e hn =>
            obtain rfl := Option.some.inj h
            exact .throws hs hk ho fun hop hop' => by rw [hn] at hop'; cases hop'
          next hop hn =>
            split at h <;> obtain rfl := Option.some.inj h
            next hh => exact .call hs hk ho hn hh
            next hh =>
              refine .throws hs hk ho fun hop' hop'' => ?_
              obtain rfl : hop = hop' := Except.ok.inj (hn.symm.trans hop'')
              simpa using hh
    next => cases h
  case answered =>
    split at h
    next k a f hs =>
      split at h
      next o r code hf =>
        split at h <;> obtain rfl := Option.some.inj h
        next hc => exact .delivered hs (hc ▸ hf)
        next hc => exact .dead hs hf hc
      next => cases h
    next => cases h
  case failed =>
    split at h
    next k a f hs =>
      split at h
      next o r stage hf =>
        obtain rfl := Option.some.inj h
        exact .failed hs
      next => cases h
    next => cases h
  case relayFailed =>
    split at h
    next k a f hs =>
      split at h
      next =>
        obtain rfl := Option.some.inj h
        exact .relayFailed hs
      next => cases h
    next => cases h

lemma pyFetches_of_next {late : Bool} {g m : ℕ} {o : N} {rest : List N}
    (h : x.fetch = .round g m (o :: rest)) :
    PyFetches c x (.next late) (pyNext c x late g m o rest) := by
  unfold pyNext
  split
  next hc => exact .stop h (.inl hc)
  next =>
    split
    next hm => exact .stop h (.inr (.inl hm))
    next =>
      split
      next hd => exact .skip h hd
      next hd =>
        split
        next hl => exact .stop h (.inr (.inr hl))
        next =>
          split
          next e hn => exact .raises h fun hop hop' => by rw [hn] at hop'; cases hop'
          next hop hn =>
            split
            next => exact .issue h (by simpa using hd) hn
            next hh =>
              refine .raises h fun hop' hop'' => ?_
              obtain rfl : hop = hop' := Except.ok.inj (hn.symm.trans hop'')
              simpa using hh

lemma pyFetches_of_emit {g m : ℕ} (h : x.fetch = .round g m [])
    (hst : pyFetchStep c x .emit = some x') : PyFetches c x .emit x' := by
  simp only [pyFetchStep, h] at hst
  split at hst <;> obtain rfl := Option.some.inj hst
  next hl =>
    simp only [Bool.and_eq_true, List.isEmpty_iff] at hl
    obtain ⟨⟨hd, hrest⟩, hout⟩ := hl
    have hb : x.buffer = [] := by
      rw [← List.take_append_drop m x.buffer, hout, hrest, List.append_nil]
    have hlast : PyFetches c x .emit _ := .last h hd hb
    rw [hout, hrest, List.append_nil]
    obtain ⟨sys, buffer, fetch, ended, failed⟩ := x
    obtain rfl : buffer = [] := hb
    exact hlast
  next hl =>
    refine .emit h fun ⟨hd, hb⟩ => hl ?_
    simp [hd, hb]

lemma pyFetches_of_step {a : PyFetchAct} (h : pyFetchStep c x a = some x') :
    PyFetches c x a x' := by
  cases a with
  | emit =>
    unfold pyFetchStep at h
    simp only at h
    split at h
    next g m hf => exact pyFetches_of_emit hf (by simpa only [pyFetchStep, hf] using h)
    next => cases h
  | start t₁ t₂ maxRows =>
    simp only [pyFetchStep] at h
    split at h
    next hs =>
      split at h
      next ht =>
        obtain rfl := Option.some.inj h
        exact .unknown hs.1 ht
      next g ht =>
        split at h <;> obtain rfl := Option.some.inj h
        next hd => exact .noOwners hs.1 hd
        next => exact .start hs.1 ht
    next => cases h
  | next late =>
    simp only [pyFetchStep] at h
    split at h
    next g m o rest hf =>
      obtain rfl := Option.some.inj h
      exact pyFetches_of_next hf
    next => cases h
  | receive =>
    simp only [pyFetchStep] at h
    split at h
    next g m o rest i hf =>
      split at h
      next o' code out isLast hp =>
        split at h <;> obtain rfl := Option.some.inj h
        next hc => exact .receive hf (hc ▸ hp)
        next hc => exact .refused hf hp hc
      next => cases h
    next => cases h
  | failed =>
    simp only [pyFetchStep] at h
    split at h
    next g m o rest i hf =>
      obtain rfl := Option.some.inj h
      exact .failed hf
    next => cases h
  | unschedule =>
    simp only [pyFetchStep] at h
    split at h
    next hf =>
      obtain rfl := Option.some.inj h
      exact .unschedule hf
    next => cases h

/-! ### Runs -/

/-- No call fails, and the client fetches what `SubmitQuery` has returned. -/
def Reliable (x : PySys N Row) : PyAct N → Prop
  | .submit .failed => False
  | .submit .relayFailed => False
  | .fetch .failed => False
  | .fetch (.start _ _ _) => x.sys.submit = .returned
  | _ => True

instance (x : PySys N Row) (a : PyAct N) : Decidable (Reliable x a) :=
  match a with
  | .submit .failed | .submit .relayFailed | .fetch .failed => .isFalse id
  | .fetch (.start _ _ _) => inferInstanceAs (Decidable (x.sys.submit = .returned))
  | .submit .register | .submit .mark | .submit .next | .submit .answered | .forward _
  | .produce _ _ | .pull _ _ | .fetch (.next _) | .fetch .receive | .fetch .emit
  | .fetch .unschedule => .isTrue trivial

/-- A Python gateway asks every data owner. -/
def everyone (c : Config N Query Row) : Config N Query Row :=
  { c with
    eligible := fun _ => c.overlay.dataOwners
    eligible_sublist := fun _ => List.Sublist.refl _ }

def left : PyFetch N → List N
  | .round _ _ rest => rest
  | .pulling _ _ _ rest _ => rest
  | _ => []

/-- `FetchChunk` waits for call `i` of owner `o`. -/
def Waits (f : PyFetch N) (o : N) (i : ℕ) : Prop := ∃ g m rest, f = .pulling g m o rest i

/-- The gateway finds a node to ask for the rows of `o`. -/
def Callable (c : Config N Query Row) (o : N) : Prop :=
  ∃ hop, c.overlay.nextHop c.gateway o = .ok hop ∧ c.overlay.hasNode hop = true

/-- `SubmitQuery` has registered the request. -/
def entered : SubmitPc → Bool
  | .idle => false
  | .failed => false
  | _ => true

structure PyShape (c : Config N Query Row) (q : Query) (x : PySys N Row) : Prop where
  entries : EntriesOk c q x.sys
  fwd : ∀ p ∈ x.sys.fwd, p.owner ∈ c.overlay.dataOwners ∧ p.owner ≠ c.gateway ∧
    Callable c p.owner
  callable : ∀ k o, c.overlay.dataOwners[k]? = some o → o ≠ c.gateway → past x.sys.submit k →
    Callable c o
  once : (x.sys.node c.gateway).gens ≤ 1
  idle : x.sys.submit = .idle → (x.sys.node c.gateway).gens = 0
  registered : entered x.sys.submit = true → 0 < (x.sys.node c.gateway).gens
  pending : Pending x.sys
  told : Told (everyone c) q x.sys
  quiet : x.sys.submit = .returned ∨ x.fetch = .idle ∧ x.sys.submit.early = true
  left : ∀ o ∈ left x.fetch, o ∈ c.overlay.dataOwners
  waits : ∀ o i, Waits x.fetch o i → o ∈ c.overlay.dataOwners ∧
    x.sys.gate.clientProducersDone o = false ∧ ∃ stage, x.sys.pull[i]? = some ⟨o, stage⟩
  calls : ∀ i o stage, x.sys.pull[i]? = some ⟨o, stage⟩ →
    (∃ code out isLast, stage = .replied code out isLast) ∨ Waits x.fetch o i

/-- `SubmitQuery` of a Python gateway goes on as that of a C++ gateway does, or sends nothing. -/
lemma submits_everyone {a : PySubmitAct} (h : PySubmits c q s a s') (hnf : a ≠ .failed)
    (hnr : a ≠ .relayFailed) : (∃ act, ForwardsAnswered (.submit act : Act N) ∧
      Submits (everyone c) q s act s') ∨
    (s.submit = .registered ∧ s'.submit = .forwarding 0 0 ∨
      (∃ k a, s.submit = .forwarding k a ∧ c.overlay.dataOwners[k]? = none) ∧
        s'.submit = .returned) ∧
      s'.fwd = s.fwd ∧ s'.pull = s.pull ∧ s'.node = s.node := by
  cases h with
  | register hs hr => exact .inl ⟨.register, trivial, .register hs hr⟩
  | refuse hs => exact .inl ⟨.register, trivial, .refuse hs⟩
  | mark hs => exact .inr ⟨.inl ⟨hs, rfl⟩, rfl, rfl, rfl⟩
  | finish hs hk => exact .inr ⟨.inr ⟨⟨_, _, hs, hk⟩, rfl⟩, rfl, rfl, rfl⟩
  | itself hs hk => exact .inl ⟨.next, trivial, .itself hs hk⟩
  | throws hs hk ho hn => exact .inl ⟨.next, trivial, .throws hs hk ho hn⟩
  | call hs hk ho hn hh => exact .inl ⟨.next, trivial, .call hs hk ho hn hh⟩
  | delivered hs hf => exact .inl ⟨.answered, trivial, .delivered hs hf⟩
  | dead hs hf hc => exact .inl ⟨.answered, trivial, .dead hs hf hc (.inl ⟨rfl, rfl⟩)⟩
  | failed => exact absurd rfl hnf
  | relayFailed => exact absurd rfl hnr

/-! ### What each step keeps -/

lemma submits_node {a : PySubmitAct} (h : PySubmits c q s a s') : s'.node = s.node ∨
    s.submit = .idle ∧ s'.submit = .registered ∧ s'.node = Function.update s.node c.gateway
      (registerRequest (c.shard c.gateway) q 1 (s.node c.gateway)) := by
  cases h with
  | register hs => exact .inr ⟨hs, rfl, rfl⟩
  | _ => exact .inl rfl

lemma submits_gens {a : PySubmitAct} (h : PySubmits c q s a s') (n : N) :
    (s.node n).gens ≤ (s'.node n).gens ∧
      (n ≠ c.gateway → (s'.node n).gens = (s.node n).gens) := by
  rcases submits_node h with hn | ⟨-, -, hn⟩ <;> rw [hn]
  · exact ⟨le_rfl, fun _ => rfl⟩
  · by_cases hg : n = c.gateway
    · subst hg
      rw [Function.update_self]
      exact ⟨register_gens_le, fun h => absurd rfl h⟩
    · rw [Function.update_of_ne hg]
      exact ⟨le_rfl, fun _ => rfl⟩

omit [DecidableEq N] in
lemma gens_of_register (e : Entry Row) (hok : EntryOk (c.shard c.gateway) q e)
    (h0 : e.gens = 0) : (registerRequest (c.shard c.gateway) q 1 e).gens = 1 := by
  have htable : e.table = none := by
    by_contra hne
    obtain ⟨g, hg⟩ := Option.ne_none_iff_exists'.mp hne
    have := hok.table g hg
    omega
  have := (register_new hok (w := 1) htable).1
  omega

lemma PyShape.early_of_submits {a : PySubmitAct} (h : PyShape c q x)
    (hst : PySubmits c q x.sys a s') :
    x.fetch = .idle ∧ x.sys.submit.early = true ∧ x.sys.pull = [] := by
  have hne : x.sys.submit ≠ .returned := by
    cases hst <;> simp_all
  obtain ⟨hf, he⟩ := h.quiet.resolve_left hne
  exact ⟨hf, he, h.told.quiet he⟩

lemma callable_submit {a : PySubmitAct} (h : PyShape c q x) (hst : PySubmits c q x.sys a s')
    (hnf : a ≠ .failed) (hnr : a ≠ .relayFailed) (k : ℕ) (o : N)
    (hk : c.overlay.dataOwners[k]? = some o) (ho : o ≠ c.gateway) (hp : past s'.submit k) :
    Callable c o := by
  -- the loop goes on behind an owner that has been called
  have hnext : ∀ {k' a f : ℕ}, x.sys.submit = .awaiting k' a f → k < k' + 1 → Callable c o := by
    intro k' a f hs hlt
    by_cases hkk : k = k'
    · obtain ⟨p, hp, hown⟩ := h.told.awaiting k' a f hs
      obtain rfl : o = p.owner := Option.some.inj (hk.symm.trans (hkk ▸ hown))
      exact (h.fwd p (List.mem_of_getElem? hp)).2.2
    · refine h.callable k o hk ho ?_
      rw [hs]
      exact lt_of_le_of_ne (Nat.lt_succ_iff.mp hlt) hkk
  have hold : past x.sys.submit k → Callable c o := h.callable k o hk ho
  cases hst with
  | register => exact hp.elim
  | refuse => exact hp.elim
  | throws => exact hp.elim
  | mark => exact absurd hp (Nat.not_lt_zero k)
  | @finish k' a hs hk' =>
    refine hold ?_
    rw [hs]
    have hlen : c.overlay.dataOwners.length ≤ k' := List.getElem?_eq_none_iff.mp hk'
    exact (List.getElem?_eq_some_iff.mp hk).1.trans_le hlen
  | @itself k' a hs hk' =>
    refine hold ?_
    rw [hs]
    have hne : k ≠ k' := by
      rintro rfl
      exact ho (Option.some.inj (hk.symm.trans hk'))
    exact lt_of_le_of_ne (Nat.lt_succ_iff.mp hp) hne
  | call hs =>
    refine hold ?_
    rw [hs]
    exact hp
  | delivered hs => exact hnext hs hp
  | dead hs => exact hnext hs hp
  | failed => exact absurd rfl hnf
  | relayFailed => exact absurd rfl hnr

lemma fwd_submit {a : PySubmitAct} (h : PyShape c q x) (hst : PySubmits c q x.sys a s') :
    ∀ p ∈ s'.fwd, p.owner ∈ c.overlay.dataOwners ∧ p.owner ≠ c.gateway ∧ Callable c p.owner := by
  cases hst with
  | call hs hk ho hn hh =>
    intro p hp
    rcases List.mem_append.mp hp with hp | hp
    · exact h.fwd p hp
    · obtain rfl := List.mem_singleton.mp hp
      exact ⟨List.mem_of_getElem? hk, ho, _, hn, hh⟩
  | _ => exact h.fwd

lemma told_submits {a : PySubmitAct} (h : PyShape c q x) (hst : PySubmits c q x.sys a s')
    (hnf : a ≠ .failed) (hnr : a ≠ .relayFailed) : Told (everyone c) q s' ∧ Pending s' := by
  have hgens := submits_gens hst
  rcases submits_everyone hst hnf hnr with ⟨act, hok, hsub⟩ | ⟨hpc, hfwd, hpull, hnode⟩
  · exact ⟨told_submit hok (fun n => (hgens n).1) (fun n => (hgens n).2) hsub h.told,
      pending_submit hok hsub h.pending⟩
  · -- nothing is sent, and nothing was on its way
    have hno : ∀ k attempt f, x.sys.submit ≠ .awaiting k attempt f := by
      intro k attempt f hs
      rcases hpc with ⟨h', -⟩ | ⟨⟨_, _, h', -⟩, -⟩ <;> rw [hs] at h' <;> cases h'
    refine ⟨h.told.advance (fun n => (hgens n).1) (fun n => (hgens n).2) hfwd hpull ?_ ?_ ?_, ?_⟩
    · intro k attempt f
      rcases hpc with ⟨-, h'⟩ | ⟨-, h'⟩ <;> rw [h'] <;> simp
    · intro k o hk ho hp
      rcases hpc with ⟨-, h'⟩ | ⟨⟨k', a', hs, hk'⟩, -⟩
      · rw [h'] at hp
        exact absurd hp (Nat.not_lt_zero k)
      · left
        rw [hs]
        have hlen : c.overlay.dataOwners.length ≤ k' := List.getElem?_eq_none_iff.mp hk'
        exact (List.getElem?_eq_some_iff.mp hk).1.trans_le hlen
    · intro he
      rcases hpc with ⟨h', -⟩ | ⟨-, h'⟩
      · rw [h']
        rfl
      · rw [h'] at he
        cases he
    · intro f p n ttl hf hp
      obtain ⟨k, attempt, hs⟩ := h.pending f p n ttl (hfwd ▸ hf) hp
      exact absurd hs (hno k attempt f)

lemma shape_submit {a : PySubmitAct} (h : PyShape c q x) (hst : PySubmits c q x.sys a s')
    (hnf : a ≠ .failed) (hnr : a ≠ .relayFailed) : PyShape c q { x with sys := s' } := by
  obtain ⟨hfetch, hearly, hnil⟩ := h.early_of_submits hst
  have hpull : s'.pull = [] := by
    rw [← hnil]
    cases hst <;> rfl
  have hwaits : ∀ o i, ¬ Waits x.fetch o i := by
    rintro o i ⟨g, m, rest, hw⟩
    rw [hfetch] at hw
    cases hw
  have hfirst := gens_of_register (x.sys.node c.gateway) (h.entries c.gateway)
  refine ⟨fun n => ?_, fwd_submit h hst, callable_submit h hst hnf hnr, ?_, ?_, ?_,
    (told_submits h hst hnf hnr).2, (told_submits h hst hnf hnr).1, ?_, h.left,
    fun o i hw => absurd hw (hwaits o i), fun i o stage hp => ?_⟩
  · rcases submits_node hst with hn | ⟨-, -, hn⟩ <;> rw [hn]
    · exact h.entries n
    · by_cases hg : n = c.gateway
      · subst hg
        rw [Function.update_self]
        exact (h.entries _).register 1
      · rw [Function.update_of_ne hg]
        exact h.entries n
  · rcases submits_node hst with hn | ⟨hs, -, hn⟩ <;> rw [hn]
    · exact h.once
    · rw [Function.update_self, hfirst (h.idle hs)]
  · intro hs
    cases hst <;> cases hs
  · intro he
    cases hst with
    | register hs =>
      rw [setNode_self, hfirst (h.idle hs)]
      exact Nat.one_pos
    | refuse => cases he
    | throws => cases he
    | mark hs | finish hs | itself hs | call hs | delivered hs | dead hs | failed hs
    | relayFailed hs => exact h.registered (by rw [hs]; rfl)
  · cases hst with
    | finish => exact .inl rfl
    | _ => exact .inr ⟨hfetch, rfl⟩
  · rw [hpull] at hp
    cases hp

/-- A step of a node that leaves `SubmitQuery` and `FetchChunk` where they are. -/
lemma PyShape.frame (h : PyShape c q x) (hok : EntriesOk c q s')
    (hsub : s'.submit = x.sys.submit)
    (hg : (s'.node c.gateway).gens = (x.sys.node c.gateway).gens)
    (hdone : s'.gate.clientProducersDone = x.sys.gate.clientProducersDone)
    (hfwd : ∀ p ∈ s'.fwd, ∃ p' ∈ x.sys.fwd, p'.owner = p.owner) (hpend : Pending s')
    (htold : Told (everyone c) q s')
    (hwaits : ∀ (i : ℕ) (o : N) (stage : PullStage N Row), x.sys.pull[i]? = some ⟨o, stage⟩ →
      ∃ stage', s'.pull[i]? = some ⟨o, stage'⟩)
    (hcalls : ∀ (i : ℕ) (o : N) (stage : PullStage N Row), s'.pull[i]? = some ⟨o, stage⟩ →
      (∃ code out isLast, stage = .replied code out isLast) ∨ Waits x.fetch o i) :
    PyShape c q { x with sys := s' } where
  entries := hok
  fwd p hp := by
    obtain ⟨p', hp', hown⟩ := hfwd p hp
    exact hown ▸ h.fwd p' hp'
  callable k o hk ho hp := h.callable k o hk ho (hsub ▸ hp)
  once := hg.symm ▸ h.once
  idle hs := hg.trans (h.idle (hsub ▸ hs))
  registered he := hg.symm ▸ h.registered (hsub ▸ he)
  pending := hpend
  told := htold
  quiet := hsub.symm ▸ h.quiet
  left := h.left
  waits o i hw := by
    obtain ⟨ho, hd, stage, hp⟩ := h.waits o i hw
    exact ⟨ho, (congrFun hdone o).trans hd, hwaits i o stage hp⟩
  calls := hcalls

lemma shape_forward {f : ℕ} (h : PyShape c q x) (hst : forwardStep c q x.sys f = some s') :
    PyShape c q { x with sys := s' } := by
  have hf : GatherSteps.Forwards c q x.sys f s' := forwards_of_step hst
  have hsteps : Steps c q x.sys (.forward f) s' := .forward hf
  have hok := entriesOk_step hsteps h.entries
  have htold : Told (everyone c) q s' :=
    told_forward (fun p hp => (h.fwd p hp).1) hok
      (fun n => (node_move hsteps n).gens_le (h.entries n)) (forwards_of_step (c := everyone c) hst)
      h.told
  have hg : (s'.node c.gateway).gens = (x.sys.node c.gateway).gens := by
    refine gens_eq hsteps h.entries (fun ha => by cases ha) fun f' _ r ttl hf' => ?_
    exact (h.fwd _ (List.mem_of_getElem? hf')).2.1 rfl
  have hset : ∀ {o n : N} {r : Bool} {ttl : ℕ} {p' : ForwardCall N},
      x.sys.fwd[f]? = some ⟨o, r, .at n ttl⟩ → p'.owner = o → s'.fwd = x.sys.fwd.set f p' →
      ∀ p ∈ s'.fwd, ∃ p' ∈ x.sys.fwd, p'.owner = p.owner := by
    intro o n r ttl p' hf ho hfwd p hp
    rw [hfwd] at hp
    rcases List.mem_or_eq_of_mem_set hp with hp | rfl
    · exact ⟨p, hp, rfl⟩
    · exact ⟨_, List.mem_of_getElem? hf, ho.symm⟩
  have hfwd : ∀ p ∈ s'.fwd, ∃ p' ∈ x.sys.fwd, p'.owner = p.owner := by
    cases hf with
    | expired hf => exact hset hf rfl rfl
    | register hf => exact hset hf rfl rfl
    | noRoute hf => exact hset hf rfl rfl
    | relay hf => exact hset hf rfl rfl
  have hframe : s'.pull = x.sys.pull ∧
      s'.gate.clientProducersDone = x.sys.gate.clientProducersDone := by
    cases hf <;> exact ⟨rfl, rfl⟩
  refine h.frame hok (submit_eq hsteps (by simp)) hg hframe.2 hfwd
    (pending_step (by trivial) hsteps h.pending) htold (fun i o stage hp => ⟨stage, ?_⟩) ?_
  · rw [hframe.1, hp]
  · rw [hframe.1]
    exact h.calls

lemma shape_produce {n : N} {a : ProdAct} {e : Entry Row} (h : PyShape c q x)
    (hst : prodStep (c.shard n) (c.overlay.impl n) c.overlay.maxRows (x.sys.node n) a = some e) :
    PyShape c q { x with sys := x.sys.setNode n e } := by
  have hsteps : Steps c q x.sys (.produce n a) (x.sys.setNode n e) := .produce hst
  have hgens : ∀ m, ((x.sys.setNode n e).node m).gens = (x.sys.node m).gens := fun m =>
    gens_eq hsteps h.entries (fun ha => by cases ha) fun f ha => by cases ha
  refine h.frame (entriesOk_step hsteps h.entries) rfl (hgens _) rfl (fun p hp => ⟨p, hp, rfl⟩)
    h.pending ?_ (fun i o stage hp => ⟨stage, hp⟩) h.calls
  exact h.told.frame (fun m => (hgens m).ge) (fun m _ => hgens m) rfl rfl h.told.quiet

lemma shape_pull {i : ℕ} {a : PullAct} (h : PyShape c q x) (hst : Pulls c x.sys i a s') :
    PyShape c q { x with sys := s' } := by
  have hsteps : Steps c q x.sys (.pull i a) s' := .pull hst
  have hframe := pulls_frame hst
  obtain ⟨o, stage, stage', hp, hopen, hset⟩ := pulls_set hst
  have hsub : s'.submit = x.sys.submit := by rw [hframe]
  have hfwd : s'.fwd = x.sys.fwd := by rw [hframe]
  have hgens : ∀ m, (s'.node m).gens = (x.sys.node m).gens := fun m =>
    gens_eq hsteps h.entries (fun ha => by cases ha) fun f ha => by cases ha
  have hlt := (List.getElem?_eq_some_iff.mp hp).1
  have hquiet : x.sys.submit.early = true → s'.pull = [] := by
    intro he
    rw [h.told.quiet he] at hp
    cases hp
  refine h.frame (entriesOk_step hsteps h.entries) hsub (hgens _) (by rw [hframe])
    (fun p hp => ⟨p, hfwd ▸ hp, rfl⟩) (pending_step (by trivial) hsteps h.pending)
    (h.told.frame (fun m => (hgens m).ge) (fun m _ => hgens m) hsub hfwd hquiet) ?_ ?_
  · intro j o' st hj
    rw [hset]
    by_cases hij : i = j
    · subst hij
      obtain ⟨rfl, -⟩ := PullCall.mk.inj (Option.some.inj (hp.symm.trans hj))
      exact ⟨stage', List.getElem?_set_self hlt⟩
    · exact ⟨st, by rw [List.getElem?_set_ne hij, hj]⟩
  · intro j o' st hj
    rw [hset] at hj
    by_cases hij : i = j
    · subst hij
      rw [List.getElem?_set_self hlt] at hj
      obtain ⟨rfl, -⟩ := PullCall.mk.inj (Option.some.inj hj)
      refine .inr ((h.calls i o stage hp).resolve_left ?_)
      rintro ⟨code, out, isLast, hs⟩
      exact hopen code out isLast hs
    · rw [List.getElem?_set_ne hij] at hj
      exact h.calls j o' st hj

lemma PyShape.advance (h : PyShape c q x) (hret : x.sys.submit = .returned)
    (hok : EntriesOk c q x'.sys) (hgens : ∀ n, (x'.sys.node n).gens = (x.sys.node n).gens)
    (hsub : x'.sys.submit = x.sys.submit) (hfwd : x'.sys.fwd = x.sys.fwd)
    (hleft : ∀ o ∈ PySteps.left x'.fetch, o ∈ c.overlay.dataOwners)
    (hwaits : ∀ o i, Waits x'.fetch o i → o ∈ c.overlay.dataOwners ∧
      x'.sys.gate.clientProducersDone o = false ∧ ∃ stage, x'.sys.pull[i]? = some ⟨o, stage⟩)
    (hcalls : ∀ i o stage, x'.sys.pull[i]? = some ⟨o, stage⟩ →
      (∃ code out isLast, stage = .replied code out isLast) ∨ Waits x'.fetch o i) :
    PyShape c q x' where
  entries := hok
  fwd := hfwd ▸ h.fwd
  callable := hsub ▸ h.callable
  once := hgens _ ▸ h.once
  idle hs := by
    rw [hsub, hret] at hs
    cases hs
  registered he := hgens _ ▸ h.registered (hsub ▸ he)
  pending f p n ttl hf hp := hsub ▸ h.pending f p n ttl (hfwd ▸ hf) hp
  told := by
    refine h.told.frame (fun n => (hgens n).ge) (fun n _ => hgens n) hsub hfwd fun he => ?_
    rw [hret] at he
    cases he
  quiet := .inl (hsub.trans hret)
  left := hleft
  waits := hwaits
  calls := hcalls

omit [DecidableEq N] in
lemma rotated_subset {owners : List N} {t₁ t₂ : ℕ} {o : N} (h : o ∈ rotated owners t₁ t₂) :
    o ∈ owners := by
  rcases List.mem_append.mp h with h | h
  · exact List.mem_of_mem_drop h
  · exact List.mem_of_mem_take h

omit [DecidableEq N] in
lemma not_waits {f : PyFetch N} (h : ∀ g m o rest i, f ≠ .pulling g m o rest i) (o : N) (i : ℕ) :
    ¬ Waits f o i := by
  rintro ⟨g, m, rest, hw⟩
  exact h g m o rest i hw

/-- A `FetchChunk` that has begun has been called after `SubmitQuery` has returned. -/
lemma PyShape.returned (h : PyShape c q x) (hf : x.fetch ≠ .idle) :
    x.sys.submit = .returned := h.quiet.resolve_right fun hq => hf hq.1

lemma PyShape.call_owner (h : PyShape c q x) {g m i : ℕ} {o o' : N} {rest : List N}
    {stage : PullStage N Row} (hf : x.fetch = .pulling g m o rest i)
    (hp : x.sys.pull[i]? = some ⟨o', stage⟩) : o' = o := by
  obtain ⟨-, -, stage', hp'⟩ := h.waits o i ⟨g, m, rest, hf⟩
  exact (PullCall.mk.inj (Option.some.inj (hp.symm.trans hp'))).1

/-- A step between two calls: nobody waits for an answer, before it and after it. -/
lemma PyShape.between (h : PyShape c q x) (hret : x.sys.submit = .returned)
    (hok : EntriesOk c q x'.sys) (hgens : ∀ n, (x'.sys.node n).gens = (x.sys.node n).gens)
    (hsub : x'.sys.submit = x.sys.submit) (hfwd : x'.sys.fwd = x.sys.fwd)
    (hpull : x'.sys.pull = x.sys.pull) (hf : ∀ g m o rest i, x.fetch ≠ .pulling g m o rest i)
    (hf' : ∀ g m o rest i, x'.fetch ≠ .pulling g m o rest i)
    (hleft : ∀ o ∈ PySteps.left x'.fetch, o ∈ c.overlay.dataOwners) : PyShape c q x' := by
  refine h.advance hret hok hgens hsub hfwd hleft (fun o i hw => ?_) fun i o stage hp => ?_
  · exact absurd hw (not_waits hf' o i)
  · exact .inl ((h.calls i o stage (hpull ▸ hp)).resolve_right (not_waits hf o i))

lemma PyShape.answered (h : PyShape c q x) {g m j : ℕ} {o : N} {rest : List N}
    {code : StatusCode} {out : List Row} {isLast : Bool} (hf : x.fetch = .pulling g m o rest j)
    (hj : x.sys.pull[j]? = some ⟨o, .replied code out isLast⟩)
    (hnode : x'.sys.node = x.sys.node) (hsub : x'.sys.submit = x.sys.submit)
    (hfwd : x'.sys.fwd = x.sys.fwd) (hpull : x'.sys.pull = x.sys.pull) {g' m' : ℕ}
    (hf' : x'.fetch = .round g' m' rest) : PyShape c q x' := by
  have hret : x.sys.submit = .returned := h.returned (by simp [hf])
  have hleft : ∀ o' ∈ PySteps.left x'.fetch, o' ∈ c.overlay.dataOwners := fun o' ho' =>
    h.left o' (by simpa [hf, hf', PySteps.left] using ho')
  refine h.advance hret (fun n => hnode ▸ h.entries n) (fun n => by rw [hnode]) hsub hfwd hleft
    (fun o' i hw => ?_) fun i o' stage hp => ?_
  · exact absurd hw (not_waits (by simp [hf']) o' i)
  · rw [hpull] at hp
    refine .inl ((h.calls i o' stage hp).elim id ?_)
    rintro ⟨g', m', rest', hw⟩
    obtain ⟨-, -, rfl, -, rfl⟩ := PyFetch.pulling.inj (hf.symm.trans hw)
    obtain ⟨-, rfl⟩ := PullCall.mk.inj (Option.some.inj (hj.symm.trans hp))
    exact ⟨code, out, isLast, rfl⟩

lemma PyShape.erased (h : PyShape c q x) {e : Entry Row}
    (he : Removes (x.sys.node c.gateway) e) : EntriesOk c q (x.sys.setNode c.gateway e) ∧
      ∀ n, ((x.sys.setNode c.gateway e).node n).gens = (x.sys.node n).gens := by
  refine ⟨fun n => (setNode_move (.drop he)).ok (h.entries n), fun n => ?_⟩
  by_cases hn : n = c.gateway
  · subst hn
    rw [setNode_self]
    exact (removes_obj he).1
  · rw [setNode_ne _ hn]

lemma shape_fetch {a : PyFetchAct} (h : PyShape c q x) (hr : Reliable x (.fetch a))
    (hst : PyFetches c x a x') : PyShape c q x' := by
  have hleft : ∀ {g m : ℕ} {o : N} {rest : List N}, x.fetch = .round g m (o :: rest) →
      o ∈ c.overlay.dataOwners ∧ ∀ o' ∈ rest, o' ∈ c.overlay.dataOwners := fun hf =>
    ⟨h.left _ (by simp [hf, PySteps.left]),
      fun o' ho' => h.left o' (by simp [hf, PySteps.left, ho'])⟩
  have hfetch : ∀ {f : PyFetch N}, x.fetch = f → f ≠ .idle → x.sys.submit = .returned :=
    fun hf hne => h.returned (hf ▸ hne)
  cases hst with
  | unknown hf =>
    exact h.between hr h.entries (fun _ => rfl) rfl rfl rfl (by simp [hf]) (by simp [PySys.fail])
      (by simp [PySys.fail, PySteps.left])
  | noOwners hf =>
    exact h.between hr h.entries (fun _ => rfl) rfl rfl rfl (by simp [hf]) (by simp [PySys.fail])
      (by simp [PySys.fail, PySteps.left])
  | start hf =>
    exact h.between hr h.entries (fun _ => rfl) rfl rfl rfl (by simp [hf]) (by simp)
      (fun o ho => rotated_subset ho)
  | stop hf =>
    exact h.between (hfetch hf (by simp)) h.entries (fun _ => rfl) rfl rfl rfl (by simp [hf])
      (by simp) (by simp [PySteps.left])
  | skip hf =>
    exact h.between (hfetch hf (by simp)) h.entries (fun _ => rfl) rfl rfl rfl (by simp [hf])
      (by simp) (hleft hf).2
  | raises hf =>
    exact h.between (hfetch hf (by simp)) h.entries (fun _ => rfl) rfl rfl rfl (by simp [hf])
      (by simp [PySys.fail]) (by simp [PySys.fail, PySteps.left])
  | @issue late g m o hop rest hf hd hn =>
    refine h.advance (hfetch hf (by simp)) h.entries (fun _ => rfl) rfl rfl (hleft hf).2 ?_ ?_
    · rintro o' i ⟨g', m', rest', hw⟩
      obtain ⟨-, -, rfl, -, rfl⟩ := PyFetch.pulling.inj hw
      exact ⟨(hleft hf).1, hd, .at hop, by simp⟩
    · intro i o' stage hp
      rw [show (_ : List (PullCall N Row))[i]? = _ from Lane.getElem?_snoc x.sys.pull _ i] at hp
      split at hp
      next hi =>
        obtain ⟨rfl, -⟩ := PullCall.mk.inj (Option.some.inj hp)
        exact .inr ⟨g, m, rest, by rw [hi]⟩
      next => exact .inl ((h.calls i o' stage hp).resolve_right (not_waits (by simp [hf]) o' i))
  | @receive g m i o o' rest out isLast hf hp =>
    obtain rfl := h.call_owner hf hp
    cases isLast <;> exact h.answered hf hp rfl rfl rfl rfl rfl
  | refused hf hp =>
    obtain rfl := h.call_owner hf hp
    exact h.answered hf hp rfl rfl rfl rfl rfl
  | failed => exact hr.elim
  | last hf =>
    obtain ⟨hok, hgens⟩ := h.erased .erase
    exact h.between (hfetch hf (by simp)) hok hgens rfl rfl rfl (by simp [hf]) (by simp)
      (by simp [PySteps.left])
  | emit hf =>
    exact h.between (hfetch hf (by simp)) h.entries (fun _ => rfl) rfl rfl rfl (by simp [hf])
      (by simp) (by simp [PySteps.left])
  | unschedule hf =>
    obtain ⟨hok, hgens⟩ := h.erased .unschedule
    exact h.between (hfetch hf (by simp)) hok hgens rfl rfl rfl (by simp [hf]) (by simp)
      (by simp [PySteps.left])

lemma shape_step {a : PyAct N} (h : PyShape c q x) (hr : Reliable x a)
    (hst : pyStep c q x a = some x') : PyShape c q x' := by
  cases a with
  | submit a =>
    obtain ⟨s', hs, rfl⟩ := Option.map_eq_some_iff.mp hst
    refine shape_submit h (pySubmits_of_step hs) ?_ ?_ <;> rintro rfl <;> exact hr
  | forward f =>
    obtain ⟨s', hs, rfl⟩ := Option.map_eq_some_iff.mp hst
    exact shape_forward h hs
  | produce n a =>
    obtain ⟨e, he, rfl⟩ := Option.map_eq_some_iff.mp hst
    exact shape_produce h he
  | pull i a =>
    obtain ⟨s', hs, rfl⟩ := Option.map_eq_some_iff.mp hst
    exact shape_pull h (pulls_of_step hs)
  | fetch a => exact shape_fetch h hr (pyFetches_of_step hst)

lemma shape_init : PyShape c q (pyInit N Row) where
  entries _ := entryOk_empty
  fwd p hp := by cases hp
  callable k o hk ho hp := hp.elim
  once := Nat.zero_le 1
  idle _ := rfl
  registered he := by cases he
  pending f p n ttl hf := by simp [pyInit, init] at hf
  told := told_init
  quiet := .inr ⟨rfl, rfl⟩
  left o ho := by cases ho
  waits o i hw := absurd hw (not_waits (by simp [pyInit]) o i)
  calls i o stage hp := by simp [pyInit, init] at hp

end Mini2.PySteps
