import Mini2.Gather

/-!
What each step of a request can do: one case for every way a handler goes on. The invariants
are proved from these cases, and none of them opens a handler again.
-/

namespace Mini2.GatherSteps

open Mini2.Proto Mini2.Net Mini2.Request Mini2.Producer Mini2.Gather

variable {N Query Row : Type} [DecidableEq N]

section Cases

variable (c : Config N Query Row) (q : Query) (s : Sys N Row)

inductive Submits : SubmitAct → Sys N Row → Prop
  | register (h : s.submit = .idle) (hr : c.overlay.role c.gateway = .gateway) : Submits .register
      { s.setNode c.gateway (registerRequest (c.shard c.gateway) q 1 (s.node c.gateway)) with
        submit := .registered }
  | refuse (h : s.submit = .idle) : Submits .register { s with submit := .failed }
  | mark (h : s.submit = .registered) :
      Submits .mark { s.marked c q with submit := .forwarding 0 0 }
  | loopEnd {k a : ℕ} (h : s.submit = .forwarding k a) (hk : (c.eligible q)[k]? = none) :
      Submits .next { s with submit := .spawning 0 }
  | itself {k a : ℕ} (h : s.submit = .forwarding k a) (hk : (c.eligible q)[k]? = some c.gateway) :
      Submits .next { s with submit := .forwarding (k + 1) 0 }
  | throws {k a : ℕ} {o : N} (h : s.submit = .forwarding k a) (hk : (c.eligible q)[k]? = some o)
      (ho : o ≠ c.gateway)
      (hn : ∀ hop, c.overlay.nextHop c.gateway o = .ok hop → c.overlay.hasNode hop = false) :
      Submits .next { s with submit := .failed }
  | call {k a : ℕ} {o hop : N} (h : s.submit = .forwarding k a)
      (hk : (c.eligible q)[k]? = some o) (ho : o ≠ c.gateway)
      (hn : c.overlay.nextHop c.gateway o = .ok hop) (hh : c.overlay.hasNode hop = true) :
      Submits .next { s with
        submit := .awaiting k a s.fwd.length
        fwd := s.fwd ++ [⟨o, false, .at hop 8⟩] }
  | delivered {k a f : ℕ} {o : N} {r : Bool} (h : s.submit = .awaiting k a f)
      (hf : s.fwd[f]? = some ⟨o, r, .answered .ok⟩) :
      Submits .answered { s with submit := .forwarding (k + 1) 0 }
  | retry {act : SubmitAct} {k a f : ℕ} {o : N} {r : Bool} {stage : ForwardStage N}
      {code : StatusCode} (h : s.submit = .awaiting k a f) (hf : s.fwd[f]? = some ⟨o, r, stage⟩)
      (hc : code ≠ .ok) (ha : act = .answered ∧ stage = .answered code ∨ act = .failed code) :
      Submits act { s with submit := .forwarding k (a + 1) }
  | dead {act : SubmitAct} {k a f : ℕ} {o : N} {r : Bool} {stage : ForwardStage N}
      {code : StatusCode} (h : s.submit = .awaiting k a f) (hf : s.fwd[f]? = some ⟨o, r, stage⟩)
      (hc : code ≠ .ok) (ha : act = .answered ∧ stage = .answered code ∨ act = .failed code) :
      Submits act { s.markDone o with submit := .forwarding (k + 1) 0 }
  | relayFailed {k a f : ℕ} {o : N} {stage : ForwardStage N} (h : s.submit = .awaiting k a f)
      (hf : s.fwd[f]? = some ⟨o, true, stage⟩) :
      Submits .relayFailed { s with submit := .forwarding (k + 1) 0 }
  | spawnEnd {k : ℕ} (h : s.submit = .spawning k) (hk : (c.eligible q)[k]? = none) :
      Submits .spawn { s with submit := .returned }
  | skip {k : ℕ} {o : N} (h : s.submit = .spawning k) (hk : (c.eligible q)[k]? = some o)
      (ho : o = c.gateway ∨ s.gate.clientProducersDone o = true) :
      Submits .spawn { s with submit := .spawning (k + 1) }
  | spawn {k : ℕ} {o : N} (h : s.submit = .spawning k) (hk : (c.eligible q)[k]? = some o)
      (ho : o ≠ c.gateway) (hd : s.gate.clientProducersDone o = false) :
      Submits .spawn { s.setThread k .starting with submit := .spawning (k + 1) }

inductive Forwards (f : ℕ) : Sys N Row → Prop
  | expired {o n : N} {r : Bool} (h : s.fwd[f]? = some ⟨o, r, .at n 0⟩) :
      Forwards f (s.setFwd f ⟨o, r, .answered .ok⟩)
  | register {o : N} {r : Bool} {ttl : ℕ} (h : s.fwd[f]? = some ⟨o, r, .at o ttl⟩)
      (ht : 0 < ttl) :
      Forwards f ((s.setNode o (registerRequest (c.shard o) q 1 (s.node o))).setFwd f
        ⟨o, r, .answered .ok⟩)
  | noRoute {o n : N} {r : Bool} {ttl : ℕ} (h : s.fwd[f]? = some ⟨o, r, .at n ttl⟩)
      (ht : 0 < ttl) (hh : c.overlay.toward o n ≠ .here)
      (hn : ∀ nh, c.overlay.toward o n ≠ .hop nh) (code : StatusCode) :
      Forwards f (s.setFwd f ⟨o, r, .answered code⟩)
  | relay {o n nh : N} {r : Bool} {ttl : ℕ} (h : s.fwd[f]? = some ⟨o, r, .at n ttl⟩)
      (ht : 0 < ttl) (hn : c.overlay.toward o n = .hop nh) :
      Forwards f (s.setFwd f ⟨o, true, .at nh (ttl - 1)⟩)

inductive Prefetches (k : ℕ) : PrefetchAct → Sys N Row → Prop
  | start {o hop : N} (hk : (c.eligible q)[k]? = some o) (h : s.thread k = .starting)
      (hn : c.overlay.nextHop c.gateway o = .ok hop) :
      Prefetches k .start (s.setThread k .waiting)
  | noHop {o : N} {e : RouteError N} (hk : (c.eligible q)[k]? = some o)
      (h : s.thread k = .starting) (hn : c.overlay.nextHop c.gateway o = .error e) :
      Prefetches k .start (s.failThread k o)
  | stop {o : N} (hk : (c.eligible q)[k]? = some o) (h : s.thread k = .waiting) :
      Prefetches k .issue (s.setThread k .returned)
  | issue {o hop : N} (hk : (c.eligible q)[k]? = some o) (h : s.thread k = .waiting)
      (hb : s.gate.prefetchBuf o = []) (hd : s.gate.prefetchDone o = false)
      (hn : c.overlay.nextHop c.gateway o = .ok hop) :
      Prefetches k .issue { s.setThread k (.pulling s.pull.length) with
        pull := s.pull ++ [⟨o, .at hop⟩] }
  | receive {o o' : N} {i : ℕ} {out : List Row} {isLast : Bool}
      (hk : (c.eligible q)[k]? = some o) (h : s.thread k = .pulling i)
      (hp : s.pull[i]? = some ⟨o', .replied .ok out isLast⟩) :
      Prefetches k .receive (s.gotChunk k o out isLast)
  | expired {o o' : N} {i : ℕ} {out : List Row} {isLast : Bool}
      (hk : (c.eligible q)[k]? = some o) (h : s.thread k = .pulling i)
      (hp : s.pull[i]? = some ⟨o', .replied .deadlineExceeded out isLast⟩) :
      Prefetches k .receive (s.setThread k .waiting)
  | refused {o o' : N} {i : ℕ} {code : StatusCode} {out : List Row} {isLast : Bool}
      (hk : (c.eligible q)[k]? = some o) (h : s.thread k = .pulling i)
      (hp : s.pull[i]? = some ⟨o', .replied code out isLast⟩) (hc : code ≠ .ok)
      (hd : code ≠ .deadlineExceeded) :
      Prefetches k .receive (s.failThread k o)
  | timeout {o : N} {i : ℕ} (hk : (c.eligible q)[k]? = some o) (h : s.thread k = .pulling i) :
      Prefetches k (.failed .deadlineExceeded) (s.setThread k .waiting)
  | failed {o : N} {i : ℕ} {code : StatusCode} (hk : (c.eligible q)[k]? = some o)
      (h : s.thread k = .pulling i) (hc : code ≠ .ok) (hd : code ≠ .deadlineExceeded) :
      Prefetches k (.failed code) (s.failThread k o)

inductive Pulls (i : ℕ) : PullAct → Sys N Row → Prop
  | relay {o n nh : N} (h : s.pull[i]? = some ⟨o, .at n⟩) (hn : c.overlay.toward o n = .hop nh) :
      Pulls i .handle (s.setPull i ⟨o, .at nh⟩)
  | noRoute {o n : N} {code : StatusCode} (h : s.pull[i]? = some ⟨o, .at n⟩)
      (hh : c.overlay.toward o n ≠ .here) (hn : ∀ nh, c.overlay.toward o n ≠ .hop nh)
      (hc : code ≠ .ok) : Pulls i .handle (s.setPull i ⟨o, .replied code [] false⟩)
  | missing {o : N} (h : s.pull[i]? = some ⟨o, .at o⟩)
      (hm : (s.node o).table = none ∨ serves (c.overlay.impl o) (c.shard o) = false) :
      Pulls i .handle (s.setPull i ⟨o, .replied .notFound [] false⟩)
  | found {o : N} {g : ℕ} (h : s.pull[i]? = some ⟨o, .at o⟩) (ht : (s.node o).table = some g)
      (hs : serves (c.overlay.impl o) (c.shard o) = true) :
      Pulls i .handle (s.setPull i ⟨o, .found g⟩)
  | pop {o : N} {g : ℕ} (h : s.pull[i]? = some ⟨o, .found g⟩) (maxRows : ℤ) :
      Pulls i (.pop maxRows) ((s.setNode o ((s.node o).pop g maxRows.toNat)).setPull i
        ⟨o, .popped g (((s.node o).obj g).matched.take maxRows.toNat)⟩)
  | load {o : N} {g : ℕ} {out : List Row} (h : s.pull[i]? = some ⟨o, .popped g out⟩) :
      Pulls i .load (s.setPull i ⟨o, .loaded g out ((s.node o).obj g).doneProducing⟩)
  | decide {o : N} {g : ℕ} {out : List Row} {d : Bool}
      (h : s.pull[i]? = some ⟨o, .loaded g out d⟩) :
      Pulls i .decide (s.setPull i ⟨o, .decided g out
        (d && ((s.node o).obj g).matched.isEmpty && out.isEmpty)⟩)
  | more {o : N} {g : ℕ} {out : List Row} (h : s.pull[i]? = some ⟨o, .decided g out false⟩) :
      Pulls i .reply (s.setPull i ⟨o, .replied .ok out false⟩)
  | last {o : N} {g : ℕ} {out : List Row} (h : s.pull[i]? = some ⟨o, .decided g out true⟩)
      (hi : c.overlay.impl o = .cpp) :
      Pulls i .reply ((s.setNode o (dropRequest (s.node o))).setPull i ⟨o, .replied .ok out true⟩)
  | erase {o : N} {g : ℕ} {out : List Row} (h : s.pull[i]? = some ⟨o, .decided g out true⟩)
      (hi : c.overlay.impl o = .python) :
      Pulls i .reply ((s.setNode o (s.node o).erase).setPull i ⟨o, .dropping out⟩)
  | unschedule {o : N} {out : List Row} (h : s.pull[i]? = some ⟨o, .dropping out⟩) :
      Pulls i .unschedule
        ((s.setNode o (s.node o).unschedule).setPull i ⟨o, .replied .ok out true⟩)

inductive Fetches : FetchAct → Sys N Row → Prop
  | start (h : s.fetch = .idle) (ht : (s.node c.gateway).table.isSome = true) :
      Fetches .start { s with fetch := .entered }
  | drain (maxRows : ℤ) (h : s.fetch = .entered) :
      Fetches (.drain maxRows) { drainStep c s maxRows with
        fetch := if (drainStep c s maxRows).allDone c then .drained else .idle }
  | count (h : s.fetch = .drained) :
      Fetches .count { s with
        fetch := .counted s.gate.ownersResponded.card s.gate.eligibleOwners }
  | erase {hit eligible : ℕ} (h : s.fetch = .counted hit eligible) :
      Fetches .erase { (s.setNode c.gateway (dropRequest (s.node c.gateway))).stopPrefetch with
        fetch := .joining hit eligible }
  | erased {hit eligible : ℕ} (h : s.fetch = .counted hit eligible) :
      Fetches .erase { s.setNode c.gateway (dropRequest (s.node c.gateway)) with
        fetch := .idle, finished := some (hit, eligible) }
  | finish {hit eligible : ℕ} (h : s.fetch = .joining hit eligible) (hj : s.joined c q) :
      Fetches .finish { s with fetch := .idle, finished := some (hit, eligible) }

inductive Cancels (j : ℕ) : CancelAct → Sys N Row → Prop
  | unknown {n : N} (h : s.cancel[j]? = some ⟨n, .start⟩) (ht : (s.node n).table = none) :
      Cancels j .find (s.setCancel j ⟨n, .done false⟩)
  | find {n : N} {g : ℕ} (h : s.cancel[j]? = some ⟨n, .start⟩) (ht : (s.node n).table = some g) :
      Cancels j .find (s.setCancel j ⟨n, .found g⟩)
  | flag {n : N} {g : ℕ} (h : s.cancel[j]? = some ⟨n, .found g⟩) :
      Cancels j .flag (if n = c.gateway then
        ((s.setNode n ((s.node n).flag g)).setCancel j ⟨n, .flagged g⟩).stopPrefetch
        else (s.setNode n ((s.node n).flag g)).setCancel j ⟨n, .flagged g⟩)
  | clear {n : N} {g : ℕ} (h : s.cancel[j]? = some ⟨n, .flagged g⟩) :
      Cancels j .clear (if n = c.gateway then
        ((s.setNode n ((s.node n).clear g)).setCancel j
          ⟨n, if c.overlay.role n = .gateway then .fanout 0 else .erasing⟩).clearSlots
        else (s.setNode n ((s.node n).clear g)).setCancel j
          ⟨n, if c.overlay.role n = .gateway then .fanout 0 else .erasing⟩)
  | fanoutEnd {n : N} {k : ℕ} (h : s.cancel[j]? = some ⟨n, .fanout k⟩)
      (hk : c.overlay.dataOwners[k]? = none) : Cancels j .send (s.setCancel j ⟨n, .erasing⟩)
  | itself {n : N} {k : ℕ} (h : s.cancel[j]? = some ⟨n, .fanout k⟩)
      (hk : c.overlay.dataOwners[k]? = some n) (hi : c.overlay.impl n = .cpp) :
      Cancels j .send (s.setCancel j ⟨n, .fanout (k + 1)⟩)
  | throws {n o : N} {k : ℕ} (h : s.cancel[j]? = some ⟨n, .fanout k⟩)
      (hk : c.overlay.dataOwners[k]? = some o) : Cancels j .send (s.setCancel j ⟨n, .failed⟩)
  | send {n o hop : N} {k : ℕ} (h : s.cancel[j]? = some ⟨n, .fanout k⟩)
      (hk : c.overlay.dataOwners[k]? = some o) (hn : c.overlay.nextHop n o = .ok hop) :
      Cancels j .send { s.setCancel j ⟨n, .awaiting k s.cancel.length⟩ with
        cancel := (s.setCancel j ⟨n, .awaiting k s.cancel.length⟩).cancel ++ [⟨hop, .start⟩] }
  | resume {n n' : N} {k child : ℕ} {ack : Bool} (h : s.cancel[j]? = some ⟨n, .awaiting k child⟩)
      (hc : s.cancel[child]? = some ⟨n', .done ack⟩) :
      Cancels j .resume (s.setCancel j ⟨n, .fanout (k + 1)⟩)
  | giveUp {n : N} {k child : ℕ} (h : s.cancel[j]? = some ⟨n, .awaiting k child⟩) :
      Cancels j .giveUp (s.setCancel j ⟨n, .fanout (k + 1)⟩)
  | dropJoin {n : N} (h : s.cancel[j]? = some ⟨n, .erasing⟩) :
      Cancels j .erase ((s.setNode n (dropRequest (s.node n))).stopPrefetch.setCancel j
        ⟨n, .joining⟩)
  | drop {n : N} (h : s.cancel[j]? = some ⟨n, .erasing⟩) (hi : c.overlay.impl n = .cpp)
      (ht : n = c.gateway → (s.node n).table = none) :
      Cancels j .erase ((s.setNode n (dropRequest (s.node n))).setCancel j ⟨n, .done true⟩)
  | erase {n : N} (h : s.cancel[j]? = some ⟨n, .erasing⟩) :
      Cancels j .erase ((s.setNode n (s.node n).erase).setCancel j ⟨n, .dropping⟩)
  | unschedule {n : N} (h : s.cancel[j]? = some ⟨n, .dropping⟩) :
      Cancels j .unschedule ((s.setNode n (s.node n).unschedule).setCancel j ⟨n, .done true⟩)
  | finish {n : N} (h : s.cancel[j]? = some ⟨n, .joining⟩) (hj : s.joined c q) :
      Cancels j .finish (s.setCancel j ⟨n, .done true⟩)

inductive Steps : Act N → Sys N Row → Prop
  | submit {a s'} (h : Submits c q s a s') : Steps (.submit a) s'
  | forward {f s'} (h : Forwards c q s f s') : Steps (.forward f) s'
  | produce {n a e'} (h : prodStep (c.shard n) (c.overlay.impl n) c.overlay.maxRows (s.node n) a =
      some e') : Steps (.produce n a) (s.setNode n e')
  | prefetch {k a s'} (h : Prefetches c q s k a s') : Steps (.prefetch k a) s'
  | pull {i a s'} (h : Pulls c s i a s') : Steps (.pull i a) s'
  | fetch {a s'} (h : Fetches c q s a s') : Steps (.fetch a) s'
  | cancelQuery : Steps .cancelQuery { s with cancel := s.cancel ++ [⟨c.gateway, .start⟩] }
  | cancel {j a s'} (h : Cancels c q s j a s') : Steps (.cancel j a) s'

end Cases

variable {c : Config N Query Row} {q : Query} {s s' : Sys N Row}

lemma submits_of_step {a : SubmitAct} (h : submitStep c q s a = some s') :
    Submits c q s a s' := by
  unfold submitStep at h
  cases a <;> simp only at h
  case register =>
    split at h
    next hs =>
      split at h <;> obtain rfl := Option.some.inj h
      next hr => exact .register hs hr
      next => exact .refuse hs
    next => cases h
  case mark =>
    split at h
    next hs =>
      obtain rfl := Option.some.inj h
      exact .mark hs
    next => cases h
  case next =>
    split at h
    next k a hs =>
      split at h
      next hk =>
        obtain rfl := Option.some.inj h
        exact .loopEnd hs hk
      next o hk =>
        split at h
        next ho =>
          obtain rfl := Option.some.inj h
          exact .itself hs (ho ▸ hk)
        next ho =>
          split at h
          next e hn =>
            obtain rfl := Option.some.inj h
            exact .throws hs hk ho fun hop hop' => by rw [hn] at hop'; cases hop'
          next hop hn =>
            split at h <;> obtain rfl := Option.some.inj h
            next hh => exact .call hs hk ho hn hh
            next hh =>
              refine .throws hs hk ho fun hop' hop'' => ?_
              obtain rfl : hop = hop' := Except.ok.inj (hn.symm.trans hop'')
              simpa using hh
    next => cases h
  case answered =>
    split at h
    next k a f hs =>
      split at h
      next o r code hf =>
        split at h <;> obtain rfl := Option.some.inj h
        next hc => exact .delivered hs (hc ▸ hf)
        next hc =>
          unfold afterFailure
          split
          · exact .retry hs hf hc (.inl ⟨rfl, rfl⟩)
          · exact .dead hs hf hc (.inl ⟨rfl, rfl⟩)
      next => cases h
    next => cases h
  case failed code =>
    split at h
    next k a f hs =>
      split at h
      next o r stage hf =>
        split at h
        next => cases h
        next hc =>
          obtain rfl := Option.some.inj h
          unfold afterFailure
          split
          · exact .retry hs hf hc (.inr rfl)
          · exact .dead hs hf hc (.inr rfl)
      next => cases h
    next => cases h
  case relayFailed =>
    split at h
    next k a f hs =>
      split at h
      next o stage hf =>
        obtain rfl := Option.some.inj h
        exact .relayFailed hs hf
      next => cases h
    next => cases h
  case spawn =>
    split at h
    next k hs =>
      split at h
      next hk =>
        obtain rfl := Option.some.inj h
        exact .spawnEnd hs hk
      next o hk =>
        split at h <;> obtain rfl := Option.some.inj h
        next ho => exact .skip hs hk ho
        next ho =>
          obtain ⟨ho, hd⟩ := not_or.mp ho
          exact .spawn hs hk ho (by simpa using hd)
    next => cases h

lemma forwards_of_step {f : ℕ} (h : forwardStep c q s f = some s') : Forwards c q s f s' := by
  unfold forwardStep at h
  split at h
  next o r n ttl hf =>
    split at h
    next ht =>
      obtain rfl := Option.some.inj h
      exact .expired (ht ▸ hf)
    next ht =>
      have ht : 0 < ttl := Nat.pos_of_ne_zero ht
      split at h <;> obtain rfl := Option.some.inj h
      next hd =>
        obtain rfl := toward_here_iff.mp hd
        exact .register hf ht
      next hd => exact .noRoute hf ht (by simp [hd]) (by simp [hd]) _
      next hd => exact .noRoute hf ht (by simp [hd]) (by simp [hd]) _
      next hd => exact .relay hf ht hd
  next => cases h

lemma prefetches_of_step {k : ℕ} {a : PrefetchAct} (h : prefetchStep c q s k a = some s') :
    Prefetches c q s k a s' := by
  unfold prefetchStep at h
  split at h
  next => cases h
  next o hk =>
    split at h
    next ht =>
      split at h <;> obtain rfl := Option.some.inj h
      next hn => exact .start hk ht hn
      next hn => exact .noHop hk ht hn
    next ht =>
      split at h
      next =>
        obtain rfl := Option.some.inj h
        exact .stop hk ht
      next =>
        split at h
        next hb =>
          split at h
          next =>
            obtain rfl := Option.some.inj h
            exact .stop hk ht
          next hd =>
            split at h
            next => cases h
            next hop hn =>
              obtain rfl := Option.some.inj h
              exact .issue hk ht hb (by simpa using hd) hn
        next => cases h
    next i ht =>
      split at h
      next o' code out isLast hp =>
        obtain rfl := Option.some.inj h
        unfold prefetchResult
        split
        next hc => exact .receive hk ht (hc ▸ hp)
        next hc =>
          split
          next hd => exact .expired hk ht (hd ▸ hp)
          next hd => exact .refused hk ht hp hc hd
      next => cases h
    next i code ht =>
      split at h
      next => cases h
      next hc =>
        obtain rfl := Option.some.inj h
        unfold prefetchResult
        rw [if_neg hc]
        split
        next hd => exact hd ▸ .timeout hk ht
        next hd => exact .failed hk ht hc hd
    next => cases h

lemma pulls_of_step {i : ℕ} {a : PullAct} (h : pullStep c s i a = some s') :
    Pulls c s i a s' := by
  unfold pullStep at h
  split at h
  next => cases h
  next o stage hp =>
    split at h
    next n =>
      split at h
      next nh hn =>
        obtain rfl := Option.some.inj h
        exact .relay hp hn
      next hn =>
        obtain rfl := Option.some.inj h
        exact .noRoute hp (by simp [hn]) (by simp [hn]) (by decide)
      next hn =>
        obtain rfl := Option.some.inj h
        exact .noRoute hp (by simp [hn]) (by simp [hn]) (by decide)
      next hn =>
        obtain rfl := toward_here_iff.mp hn
        split at h
        next ht =>
          obtain rfl := Option.some.inj h
          exact .missing hp (.inl ht)
        next g ht =>
          split at h <;> obtain rfl := Option.some.inj h
          next hs => exact .found hp ht hs
          next hs => exact .missing hp (.inr (by simpa using hs))
    next g maxRows =>
      obtain rfl := Option.some.inj h
      exact .pop hp maxRows
    next =>
      obtain rfl := Option.some.inj h
      exact .load hp
    next =>
      obtain rfl := Option.some.inj h
      exact .decide hp
    next =>
      split at h
      next hl =>
        subst hl
        split at h <;> obtain rfl := Option.some.inj h
        next hi => exact .last hp hi
        next hi => exact .erase hp hi
      next hl =>
        obtain rfl := Option.some.inj h
        obtain rfl := Bool.eq_false_of_not_eq_true hl
        exact .more hp
    next =>
      obtain rfl := Option.some.inj h
      exact .unschedule hp
    next => cases h

lemma fetches_of_step {a : FetchAct} (h : fetchStep c q s a = some s') :
    Fetches c q s a s' := by
  unfold fetchStep at h
  cases a <;> simp only at h
  case start =>
    split at h
    next hs =>
      obtain rfl := Option.some.inj h
      exact .start hs.1 hs.2.2
    next => cases h
  case drain maxRows =>
    split at h
    next hs =>
      obtain rfl := Option.some.inj h
      exact .drain maxRows hs.1
    next => cases h
  case count =>
    split at h
    next hs =>
      obtain rfl := Option.some.inj h
      exact .count hs
    next => cases h
  case erase =>
    split at h
    next hs =>
      split at h <;> obtain rfl := Option.some.inj h
      next => exact .erase hs
      next => exact .erased hs
    next => cases h
  case finish =>
    split at h
    next hs =>
      split at h
      next hj =>
        obtain rfl := Option.some.inj h
        exact .finish hs hj
      next => cases h
    next => cases h

lemma cancels_of_step {j : ℕ} {a : CancelAct} (h : cancelStep c q s j a = some s') :
    Cancels c q s j a s' := by
  unfold cancelStep at h
  split at h
  next => cases h
  next n stage hp =>
    split at h
    next =>
      split at h <;> obtain rfl := Option.some.inj h
      next ht => exact .unknown hp ht
      next ht => exact .find hp ht
    next =>
      obtain rfl := Option.some.inj h
      exact .flag hp
    next =>
      obtain rfl := Option.some.inj h
      exact .clear hp
    next k =>
      split at h
      next hk =>
        obtain rfl := Option.some.inj h
        exact .fanoutEnd hp hk
      next o hk =>
        split at h
        next ho =>
          obtain rfl := Option.some.inj h
          exact .itself hp (ho.1 ▸ hk) ho.2
        next =>
          split at h
          next =>
            obtain rfl := Option.some.inj h
            exact .throws hp hk
          next hop hn =>
            split at h <;> obtain rfl := Option.some.inj h
            next => exact .send hp hk hn
            next => exact .throws hp hk
    next k child =>
      split at h
      next hc =>
        obtain rfl := Option.some.inj h
        exact .resume hp hc
      next => cases h
    next =>
      obtain rfl := Option.some.inj h
      exact .giveUp hp
    next =>
      split at h
      next hi =>
        split at h <;> obtain rfl := Option.some.inj h
        next => exact .dropJoin hp
        next ht => exact .drop hp hi (by simpa using ht)
      next =>
        obtain rfl := Option.some.inj h
        exact .erase hp
    next =>
      obtain rfl := Option.some.inj h
      exact .unschedule hp
    next =>
      split at h
      next hj =>
        obtain rfl := Option.some.inj h
        exact .finish hp hj
      next => cases h
    next => cases h

/-- **A step is one of the cases.** -/
theorem steps_of_step {a : Act N} (h : step c q s a = some s') : Steps c q s a s' := by
  cases a with
  | submit a => exact .submit (submits_of_step h)
  | forward f => exact .forward (forwards_of_step h)
  | produce n a =>
    obtain ⟨e', he, rfl⟩ := Option.map_eq_some_iff.mp h
    exact .produce he
  | prefetch k a => exact .prefetch (prefetches_of_step h)
  | pull i a => exact .pull (pulls_of_step h)
  | fetch a => exact .fetch (fetches_of_step h)
  | cancelQuery =>
    obtain rfl := Option.some.inj h
    exact .cancelQuery
  | cancel j a => exact .cancel (cancels_of_step h)

/-! ### What the two handlers with the most cases leave alone -/

lemma pulls_set {i : ℕ} {a : PullAct} (h : Pulls c s i a s') :
    ∃ o stage stage', s.pull[i]? = some ⟨o, stage⟩ ∧
      (∀ code out isLast, stage ≠ .replied code out isLast) ∧
      s'.pull = s.pull.set i ⟨o, stage'⟩ := by
  cases h with
  | pop h => exact ⟨_, _, _, h, by simp, rfl⟩
  | _ h => exact ⟨_, _, _, h, by simp, rfl⟩

lemma pulls_frame {i : ℕ} {a : PullAct} (h : Pulls c s i a s') :
    s' = { s with node := s'.node, pull := s'.pull } := by
  cases h <;> rfl

lemma pulls_node {i : ℕ} {a : PullAct} {o n : N} {stage : PullStage N Row}
    (h : Pulls c s i a s') (hp : s.pull[i]? = some ⟨o, stage⟩) (hn : n ≠ o) :
    s'.node n = s.node n := by
  have howner : ∀ {o' : N} {stage' : PullStage N Row}, s.pull[i]? = some ⟨o', stage'⟩ → n ≠ o' := by
    intro o' stage' hp'
    have heq := Option.some.inj (hp.symm.trans hp')
    rintro rfl
    exact hn (congrArg PullCall.owner heq).symm
  cases h with
  | pop hp' => exact setNode_ne s (howner hp') _
  | last hp' => exact setNode_ne s (howner hp') _
  | erase hp' => exact setNode_ne s (howner hp') _
  | unschedule hp' => exact setNode_ne s (howner hp') _
  | _ => rfl

lemma cancels_frame {j : ℕ} {a : CancelAct} (h : Cancels c q s j a s') :
    s' = { s with
      node := s'.node
      cancel := s'.cancel
      gate := { s.gate with
        prefetchBuf := s'.gate.prefetchBuf
        prefetchStop := s'.gate.prefetchStop } } := by
  cases h with
  | flag => split <;> rfl
  | clear => split <;> rfl
  | _ => rfl

lemma cancels_set {j : ℕ} {a : CancelAct} (h : Cancels c q s j a s') :
    ∃ n stage stage' new, s.cancel[j]? = some ⟨n, stage⟩ ∧
      s'.cancel = s.cancel.set j ⟨n, stage'⟩ ++ new ∧ ∀ p ∈ new, p.stage = .start := by
  cases h with
  | flag h => exact ⟨_, _, _, [], h, by split <;> exact (List.append_nil _).symm, by simp⟩
  | clear h => exact ⟨_, _, _, [], h, by split <;> exact (List.append_nil _).symm, by simp⟩
  | send h => exact ⟨_, _, _, _, h, rfl, by simp⟩
  | _ h => exact ⟨_, _, _, [], h, (List.append_nil _).symm, by simp⟩

lemma cancel_ne_nil {j : ℕ} {a : CancelAct} (h : Cancels c q s j a s') : s.cancel ≠ [] := by
  intro hnil
  cases h <;> simp_all

end Mini2.GatherSteps
