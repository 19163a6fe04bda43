import Mini2.GatherShape

/-!
One remote owner's part of a request: its entry, its prefetcher, the calls of that prefetcher,
its slot at the gateway, and what the client has got of it. The other owners do not touch it,
so the system is seen through it as a small machine of its own.
-/

namespace Mini2.Lane

open Mini2.Proto Mini2.Net Mini2.Request Mini2.Producer Mini2.Gather Mini2.GatherSteps
open Mini2.GatherShape Mini2.RoundRobin

variable {N Query Row : Type} [DecidableEq N]

structure View (N Row : Type) where
  entry : Entry Row
  thread : ThreadPc
  pull : ℕ → Option (PullStage N Row)
  slot : List Row
  prefetchDone : Bool
  done : Bool
  responded : Prop
  log : List Row

/-- The part of the owner `o`, whose prefetcher is the `k`-th. -/
def lane (o : N) (k : ℕ) (s : Sys N Row) : View N Row where
  entry := s.node o
  thread := s.thread k
  pull i := (s.pull[i]?).bind fun p => if p.owner = o then some p.stage else none
  slot := s.gate.prefetchBuf o
  prefetchDone := s.gate.prefetchDone o
  done := s.gate.clientProducersDone o
  responded := o ∈ s.gate.ownersResponded
  log := itemsOf s.log o

def View.setPull (v : View N Row) (i : ℕ) (stage : PullStage N Row) : View N Row :=
  { v with pull := Function.update v.pull i (some stage) }

def View.fail (v : View N Row) : View N Row :=
  { v with thread := .returned, prefetchDone := true, done := true }

/-- The steps of the machine, labelled by the actions of the system. -/
inductive LaneStep (c : Config N Query Row) (q : Query) (o : N) (k : ℕ) (v : View N Row) :
    Act N → View N Row → Prop
  | register {f : ℕ} :
      LaneStep c q o k v (.forward f) { v with entry := registerRequest (c.shard o) q 1 v.entry }
  | produce {a : ProdAct} {e' : Entry Row}
      (h : prodStep (c.shard o) (c.overlay.impl o) c.overlay.maxRows v.entry a = some e') :
      LaneStep c q o k v (.produce o a) { v with entry := e' }
  | flag {j g : ℕ} : LaneStep c q o k v (.cancel j .flag) { v with entry := v.entry.flag g }
  | clear {j g : ℕ} : LaneStep c q o k v (.cancel j .clear) { v with entry := v.entry.clear g }
  | evict {j : ℕ} {act : CancelAct} {e' : Entry Row} (h : Removes v.entry e') :
      LaneStep c q o k v (.cancel j act) { v with entry := e' }
  | wipe {j : ℕ} : LaneStep c q o k v (.cancel j .clear) { v with slot := [] }
  | mark : LaneStep c q o k v (.submit .mark) { v with done := false }
  | dead {a : SubmitAct} (ha : a = .answered ∨ ∃ code, a = .failed code)
      (ht : v.thread = .absent) : LaneStep c q o k v (.submit a) { v with done := true }
  | spawn (ht : v.thread = .absent) (hd : v.done = false) :
      LaneStep c q o k v (.submit .spawn) { v with thread := .starting }
  | start (ht : v.thread = .starting) :
      LaneStep c q o k v (.prefetch k .start) { v with thread := .waiting }
  | noHop {e : RouteError N} (ht : v.thread = .starting)
      (hn : c.overlay.nextHop c.gateway o = .error e) :
      LaneStep c q o k v (.prefetch k .start) v.fail
  | stop (ht : v.thread = .waiting) :
      LaneStep c q o k v (.prefetch k .issue) { v with thread := .returned }
  | issue {i : ℕ} {hop : N} (ht : v.thread = .waiting) (hs : v.slot = [])
      (hd : v.prefetchDone = false) (hi : v.pull i = none)
      (hn : c.overlay.nextHop c.gateway o = .ok hop) :
      LaneStep c q o k v (.prefetch k .issue) { v.setPull i (.at hop) with thread := .pulling i }
  | relay {i : ℕ} {n nh : N} (hp : v.pull i = some (.at n))
      (hn : c.overlay.toward o n = .hop nh) :
      LaneStep c q o k v (.pull i .handle) (v.setPull i (.at nh))
  | noRoute {i : ℕ} {n : N} {code : StatusCode} (hp : v.pull i = some (.at n))
      (hh : c.overlay.toward o n ≠ .here) (hn : ∀ nh, c.overlay.toward o n ≠ .hop nh)
      (hc : code ≠ .ok) :
      LaneStep c q o k v (.pull i .handle) (v.setPull i (.replied code [] false))
  | missing {i : ℕ} (hp : v.pull i = some (.at o))
      (hm : v.entry.table = none ∨ serves (c.overlay.impl o) (c.shard o) = false) :
      LaneStep c q o k v (.pull i .handle) (v.setPull i (.replied .notFound [] false))
  | found {i g : ℕ} (hp : v.pull i = some (.at o)) (ht : v.entry.table = some g) :
      LaneStep c q o k v (.pull i .handle) (v.setPull i (.found g))
  | pop {i g : ℕ} (hp : v.pull i = some (.found g)) (maxRows : ℤ) :
      LaneStep c q o k v (.pull i (.pop maxRows))
        { v.setPull i (.popped g ((v.entry.obj g).matched.take maxRows.toNat)) with
          entry := v.entry.pop g maxRows.toNat }
  | load {i g : ℕ} {out : List Row} (hp : v.pull i = some (.popped g out)) :
      LaneStep c q o k v (.pull i .load)
        (v.setPull i (.loaded g out (v.entry.obj g).doneProducing))
  | decide {i g : ℕ} {out : List Row} {d : Bool} (hp : v.pull i = some (.loaded g out d)) :
      LaneStep c q o k v (.pull i .decide)
        (v.setPull i (.decided g out (d && (v.entry.obj g).matched.isEmpty && out.isEmpty)))
  | more {i g : ℕ} {out : List Row} (hp : v.pull i = some (.decided g out false)) :
      LaneStep c q o k v (.pull i .reply) (v.setPull i (.replied .ok out false))
  | last {i g : ℕ} {out : List Row} (hp : v.pull i = some (.decided g out true)) :
      LaneStep c q o k v (.pull i .reply)
        { v.setPull i (.replied .ok out true) with entry := dropRequest v.entry }
  | erase {i g : ℕ} {out : List Row} (hp : v.pull i = some (.decided g out true)) :
      LaneStep c q o k v (.pull i .reply)
        { v.setPull i (.dropping out) with entry := v.entry.erase }
  | unschedule {i : ℕ} {out : List Row} (hp : v.pull i = some (.dropping out)) :
      LaneStep c q o k v (.pull i .unschedule)
        { v.setPull i (.replied .ok out true) with entry := v.entry.unschedule }
  | receive {i : ℕ} {out : List Row} {isLast : Bool} (ht : v.thread = .pulling i)
      (hp : v.pull i = some (.replied .ok out isLast)) :
      LaneStep c q o k v (.prefetch k .receive)
        { v with
          thread := if isLast then .returned else .waiting
          slot := v.slot ++ out
          responded := True
          prefetchDone := isLast || v.prefetchDone }
  | expired {i : ℕ} {out : List Row} {isLast : Bool} (ht : v.thread = .pulling i)
      (hp : v.pull i = some (.replied .deadlineExceeded out isLast)) :
      LaneStep c q o k v (.prefetch k .receive) { v with thread := .waiting }
  | refused {i : ℕ} {code : StatusCode} {out : List Row} {isLast : Bool}
      (ht : v.thread = .pulling i) (hp : v.pull i = some (.replied code out isLast))
      (hc : code ≠ .ok) : LaneStep c q o k v (.prefetch k .receive) v.fail
  | timeout {i : ℕ} (ht : v.thread = .pulling i) :
      LaneStep c q o k v (.prefetch k (.failed .deadlineExceeded)) { v with thread := .waiting }
  | failed {i : ℕ} {code : StatusCode} (ht : v.thread = .pulling i)
      (hd : code ≠ .deadlineExceeded) : LaneStep c q o k v (.prefetch k (.failed code)) v.fail
  | drain {maxRows : ℤ} {rows rest : List Row} (hs : v.slot = rows ++ rest) :
      LaneStep c q o k v (.fetch (.drain maxRows))
        { v with
          slot := rest
          log := v.log ++ rows
          done := v.done || (v.prefetchDone && rest.isEmpty) }

/-! ### Frames -/

lemma lane_init (o : N) (k : ℕ) : lane o k (init N Row) =
    ⟨Entry.empty, .absent, fun _ => none, [], false, false, False, []⟩ := by
  simp [lane, init]

lemma getElem?_snoc {α : Type} (l : List α) (x : α) (j : ℕ) :
    (l ++ [x])[j]? = if j = l.length then some x else l[j]? := by
  rcases lt_trichotomy j l.length with hj | rfl | hj
  · rw [List.getElem?_append_left hj, if_neg hj.ne]
  · simp
  · rw [if_neg hj.ne', List.getElem?_eq_none hj.le, List.getElem?_eq_none]
    rw [List.length_append, List.length_singleton]
    exact hj

section Frames

variable (o : N) (k : ℕ) (s : Sys N Row)

lemma lane_setNode_self (e : Entry Row) :
    lane o k (s.setNode o e) = { lane o k s with entry := e } := by
  simp [lane, Sys.setNode]

lemma lane_setNode_ne {n : N} (h : n ≠ o) (e : Entry Row) :
    lane o k (s.setNode n e) = lane o k s := by
  simp [lane, Sys.setNode, Ne.symm h]

lemma lane_setThread_self (pc : ThreadPc) :
    lane o k (s.setThread k pc) = { lane o k s with thread := pc } := by
  simp [lane, Sys.setThread]

lemma lane_setThread_ne {k' : ℕ} (h : k' ≠ k) (pc : ThreadPc) :
    lane o k (s.setThread k' pc) = lane o k s := by
  simp [lane, Sys.setThread, Ne.symm h]

lemma lane_setPull_self {i : ℕ} {stage : PullStage N Row} (h : s.pull[i]? = some ⟨o, stage⟩)
    (stage' : PullStage N Row) :
    lane o k (s.setPull i ⟨o, stage'⟩) = (lane o k s).setPull i stage' := by
  have hlt := (List.getElem?_eq_some_iff.mp h).1
  unfold lane View.setPull Sys.setPull
  congr 1
  funext j
  by_cases hij : i = j
  · subst hij
    simp [hlt]
  · simp [List.getElem?_set_ne hij, Ne.symm hij]

lemma lane_setPull_ne {i : ℕ} {o' : N} {stage : PullStage N Row}
    (h : s.pull[i]? = some ⟨o', stage⟩) (ho : o' ≠ o) (stage' : PullStage N Row) :
    lane o k (s.setPull i ⟨o', stage'⟩) = lane o k s := by
  unfold lane Sys.setPull
  congr 1
  funext j
  by_cases hij : i = j
  · subst hij
    obtain ⟨hlt, hget⟩ := List.getElem?_eq_some_iff.mp h
    simp [hlt, ho, hget]
  · simp [List.getElem?_set_ne hij]

lemma lane_pull {i : ℕ} {stage : PullStage N Row} (h : s.pull[i]? = some ⟨o, stage⟩) :
    (lane o k s).pull i = some stage := by
  simp [lane, h]

end Frames

/-! ### The system seen through a lane -/

variable {c : Config N Query Row} {q : Query} {s s' : Sys N Row} {a : Act N} {o : N} {k : ℕ}

structure IsLane (c : Config N Query Row) (q : Query) (o : N) (k : ℕ) : Prop where
  nodup : (c.eligible q).Nodup
  owner : (c.eligible q)[k]? = some o
  remote : o ≠ c.gateway

omit [DecidableEq N] in
lemma IsLane.mem (h : IsLane c q o k) : o ∈ c.eligible q := List.mem_of_getElem? h.owner

omit [DecidableEq N] in
lemma IsLane.mem_dataOwners (h : IsLane c q o k) : o ∈ c.overlay.dataOwners :=
  (c.eligible_sublist q).subset h.mem

omit [DecidableEq N] in
lemma IsLane.eq (h : IsLane c q o k) {k' : ℕ} (hk : (c.eligible q)[k']? = some o) : k' = k := by
  obtain ⟨hlt, h1⟩ := List.getElem?_eq_some_iff.mp h.owner
  obtain ⟨hlt', h2⟩ := List.getElem?_eq_some_iff.mp hk
  exact (List.Nodup.getElem_inj_iff h.nodup).mp (h2.trans h1.symm)

lemma lane_setNode {n : N} {e : Entry Row}
    (h : n = o → LaneStep c q o k (lane o k s) a { lane o k s with entry := e }) :
    lane o k (s.setNode n e) = lane o k s ∨
      LaneStep c q o k (lane o k s) a (lane o k (s.setNode n e)) := by
  by_cases hn : n = o
  · subst hn
    right
    rw [lane_setNode_self]
    exact h rfl
  · exact .inl (lane_setNode_ne o k s hn e)

lemma lane_submit {act : SubmitAct} (hl : IsLane c q o k) (hsh : Threads c q s)
    (hst : Submits c q s act s') :
    lane o k s' = lane o k s ∨ LaneStep c q o k (lane o k s) (.submit act) (lane o k s') := by
  cases hst with
  | register =>
    left
    exact lane_setNode_ne o k s hl.remote.symm _
  | mark =>
    right
    have : lane o k ({ s.marked c q with submit := .forwarding 0 0 } : Sys N Row) =
        { lane o k s with done := false } := by
      unfold lane Sys.marked
      simp only [hl.mem_dataOwners, hl.mem, if_true, not_true_eq_false, decide_false]
      congr 1
      split
      · simp [hl.remote]
      · rfl
    rw [this]
    exact .mark
  | @dead act k' a f o' r stage code hs hf hc ha =>
    by_cases ho : o' = o
    · subst ho
      right
      have : lane o' k ({ s.markDone o' with submit := .forwarding (k' + 1) 0 } : Sys N Row) =
          { lane o' k s with done := true } := by
        simp [lane, Sys.markDone]
      rw [this]
      refine .dead ?_ (hsh.absent (by rw [hs]; rfl) k)
      rcases ha with ⟨ha, -⟩ | ha
      · exact .inl ha
      · exact .inr ⟨code, ha⟩
    · left
      simp [lane, Sys.markDone, Ne.symm ho]
  | @spawn k' o' hs hk ho hd =>
    by_cases hkk : k' = k
    · subst hkk
      obtain rfl : o' = o := Option.some.inj (hk.symm.trans hl.owner)
      right
      have : lane o' k' ({ s.setThread k' .starting with submit := .spawning (k' + 1) } : Sys N Row)
          = { lane o' k' s with thread := .starting } := lane_setThread_self o' k' s .starting
      rw [this]
      exact .spawn (hsh.absent_of_spawning hs) hd
    · left
      exact lane_setThread_ne o k s hkk .starting
  | _ => exact .inl rfl

lemma lane_forward {f : ℕ} (hst : Forwards c q s f s') :
    lane o k s' = lane o k s ∨ LaneStep c q o k (lane o k s) (.forward f) (lane o k s') := by
  cases hst with
  | @register o' r ttl hf =>
    refine lane_setNode (n := o') fun ho => ?_
    subst ho
    exact .register
  | _ => exact .inl rfl

lemma lane_failThread_self : lane o k (s.failThread k o) = (lane o k s).fail := by
  simp [lane, Sys.failThread, Sys.markDone, Sys.setThread, View.fail]

lemma lane_failThread_ne {k' : ℕ} {o' : N} (hk : k' ≠ k) (ho : o' ≠ o) :
    lane o k (s.failThread k' o') = lane o k s := by
  simp [lane, Sys.failThread, Sys.markDone, Sys.setThread, Ne.symm hk, Ne.symm ho]

lemma lane_gotChunk_self (out : List Row) (isLast : Bool) :
    lane o k (s.gotChunk k o out isLast) = { lane o k s with
      thread := if isLast then .returned else .waiting
      slot := (lane o k s).slot ++ out
      responded := True
      prefetchDone := isLast || (lane o k s).prefetchDone } := by
  cases isLast <;> simp [lane, Sys.gotChunk, Sys.setThread]

lemma lane_gotChunk_ne {k' : ℕ} {o' : N} (hk : k' ≠ k) (ho : o' ≠ o) (out : List Row)
    (isLast : Bool) : lane o k (s.gotChunk k' o' out isLast) = lane o k s := by
  cases isLast <;> simp [lane, Sys.gotChunk, Sys.setThread, Ne.symm hk, Ne.symm ho]

lemma lane_issue_self (hop : N) :
    lane o k ({ s.setThread k (.pulling s.pull.length) with
      pull := s.pull ++ [⟨o, .at hop⟩] } : Sys N Row) =
      { (lane o k s).setPull s.pull.length (.at hop) with thread := .pulling s.pull.length } := by
  unfold lane View.setPull Sys.setThread
  simp only [Function.update_self]
  congr 1
  funext j
  rw [getElem?_snoc]
  by_cases hj : j = s.pull.length <;> simp [hj]

lemma lane_issue_ne {k' : ℕ} {o' : N} (hk : k' ≠ k) (ho : o' ≠ o) (hop : N) :
    lane o k ({ s.setThread k' (.pulling s.pull.length) with
      pull := s.pull ++ [⟨o', .at hop⟩] } : Sys N Row) = lane o k s := by
  unfold lane
  simp only [setThread_ne s (Ne.symm hk)]
  congr 1
  funext j
  rw [getElem?_snoc]
  by_cases hj : j = s.pull.length <;> simp [hj, ho]

lemma lane_prefetch_own {act : PrefetchAct} (hl : IsLane c q o k) (hsh : Threads c q s)
    (hst : Prefetches c q s k act s') :
    LaneStep c q o k (lane o k s) (.prefetch k act) (lane o k s') := by
  -- the call it waits for is one of its own owner
  have hpull : ∀ {i o' stage}, s.thread k = .pulling i → s.pull[i]? = some ⟨o', stage⟩ →
      (lane o k s).pull i = some stage := by
    intro i o' stage ht hp
    obtain ⟨o'', stage', hk, hp'⟩ := hsh.pulling _ _ ht
    obtain rfl : o'' = o := Option.some.inj (hk.symm.trans hl.owner)
    obtain ⟨rfl, rfl⟩ : o' = o'' ∧ stage = stage' := by simpa using hp.symm.trans hp'
    exact lane_pull o' k s hp
  cases hst with
  | start hk ht hn =>
    rw [lane_setThread_self]
    exact .start ht
  | noHop hk ht hn =>
    obtain rfl := Option.some.inj (hk.symm.trans hl.owner)
    rw [lane_failThread_self]
    exact .noHop ht hn
  | stop hk ht =>
    rw [lane_setThread_self]
    exact .stop ht
  | @issue o' hop hk ht hb hd hn =>
    obtain rfl := Option.some.inj (hk.symm.trans hl.owner)
    rw [lane_issue_self]
    exact .issue ht hb hd (by simp [lane]) hn
  | @receive o' o'' i out isLast hk ht hp =>
    obtain rfl := Option.some.inj (hk.symm.trans hl.owner)
    rw [lane_gotChunk_self]
    exact .receive ht (hpull ht hp)
  | expired hk ht hp =>
    rw [lane_setThread_self]
    exact .expired ht (hpull ht hp)
  | refused hk ht hp hc hd =>
    obtain rfl := Option.some.inj (hk.symm.trans hl.owner)
    rw [lane_failThread_self]
    exact .refused ht (hpull ht hp) hc
  | timeout hk ht =>
    rw [lane_setThread_self]
    exact .timeout ht
  | failed hk ht hc hd =>
    obtain rfl := Option.some.inj (hk.symm.trans hl.owner)
    rw [lane_failThread_self]
    exact .failed ht hd

lemma lane_prefetch_ne {k' : ℕ} {act : PrefetchAct} (hl : IsLane c q o k) (hkk : k' ≠ k)
    (hst : Prefetches c q s k' act s') : lane o k s' = lane o k s := by
  have hne : ∀ {o'}, (c.eligible q)[k']? = some o' → o' ≠ o := by
    rintro o' hk rfl
    exact hkk (hl.eq hk)
  cases hst with
  | start => exact lane_setThread_ne o k s hkk _
  | stop => exact lane_setThread_ne o k s hkk _
  | expired => exact lane_setThread_ne o k s hkk _
  | timeout => exact lane_setThread_ne o k s hkk _
  | noHop hk => exact lane_failThread_ne hkk (hne hk)
  | refused hk => exact lane_failThread_ne hkk (hne hk)
  | failed hk => exact lane_failThread_ne hkk (hne hk)
  | receive hk => exact lane_gotChunk_ne hkk (hne hk) _ _
  | issue hk => exact lane_issue_ne hkk (hne hk) _

lemma lane_prefetch {k' : ℕ} {act : PrefetchAct} (hl : IsLane c q o k) (hsh : Threads c q s)
    (hst : Prefetches c q s k' act s') :
    lane o k s' = lane o k s ∨ LaneStep c q o k (lane o k s) (.prefetch k' act) (lane o k s') := by
  by_cases hkk : k' = k
  · subst hkk
    exact .inr (lane_prefetch_own hl hsh hst)
  · exact .inl (lane_prefetch_ne hl hkk hst)

lemma lane_pulls {i : ℕ} {act : PullAct} (hst : Pulls c s i act s') :
    lane o k s' = lane o k s ∨ LaneStep c q o k (lane o k s) (.pull i act) (lane o k s') := by
  have key : ∀ {o' stage stage'}, s.pull[i]? = some ⟨o', stage⟩ →
      (o' = o → LaneStep c q o k (lane o k s) (.pull i act) ((lane o k s).setPull i stage')) →
      lane o k (s.setPull i ⟨o', stage'⟩) = lane o k s ∨
        LaneStep c q o k (lane o k s) (.pull i act) (lane o k (s.setPull i ⟨o', stage'⟩)) := by
    intro o' stage stage' hp hstep
    by_cases ho : o' = o
    · subst ho
      right
      rw [lane_setPull_self o' k s hp]
      exact hstep rfl
    · exact .inl (lane_setPull_ne o k s hp ho stage')
  -- the entry of the owner moves with the call
  have hboth : ∀ {o' stage stage' e}, s.pull[i]? = some ⟨o', stage⟩ →
      (o' = o → LaneStep c q o k (lane o k s) (.pull i act)
        { (lane o k s).setPull i stage' with entry := e }) →
      lane o k ((s.setNode o' e).setPull i ⟨o', stage'⟩) = lane o k s ∨
        LaneStep c q o k (lane o k s) (.pull i act)
          (lane o k ((s.setNode o' e).setPull i ⟨o', stage'⟩)) := by
    intro o' stage stage' e hp hstep
    have hp' : (s.setNode o' e).pull[i]? = some ⟨o', stage⟩ := hp
    by_cases ho : o' = o
    · subst ho
      right
      rw [lane_setPull_self o' k _ hp', lane_setNode_self]
      exact hstep rfl
    · left
      exact (lane_setPull_ne o k _ hp' ho _).trans (lane_setNode_ne o k s ho _)
  have hview : ∀ {o' stage}, s.pull[i]? = some ⟨o', stage⟩ → o' = o →
      (lane o k s).pull i = some stage := by
    rintro o' stage hp rfl
    exact lane_pull o' k s hp
  cases hst with
  | relay hp hn => exact key hp fun ho => .relay (hview hp ho) (ho ▸ hn)
  | noRoute hp hh hn hc => exact key hp fun ho => .noRoute (hview hp ho) (ho ▸ hh) (ho ▸ hn) hc
  | missing hp hm =>
    refine key hp fun ho => ?_
    subst ho
    exact .missing (hview hp rfl) hm
  | found hp ht =>
    refine key hp fun ho => ?_
    subst ho
    exact .found (hview hp rfl) ht
  | load hp =>
    refine key hp fun ho => ?_
    subst ho
    exact .load (hview hp rfl)
  | decide hp =>
    refine key hp fun ho => ?_
    subst ho
    exact .decide (hview hp rfl)
  | @pop o' g hp maxRows =>
    refine hboth hp fun ho => ?_
    subst ho
    exact .pop (hview hp rfl) maxRows
  | more hp =>
    refine key hp fun ho => ?_
    subst ho
    exact .more (hview hp rfl)
  | last hp =>
    refine hboth hp fun ho => ?_
    subst ho
    exact .last (hview hp rfl)
  | erase hp =>
    refine hboth hp fun ho => ?_
    subst ho
    exact .erase (hview hp rfl)
  | unschedule hp =>
    refine hboth hp fun ho => ?_
    subst ho
    exact .unschedule (hview hp rfl)

lemma lane_fetch {act : FetchAct} (hl : IsLane c q o k) (hst : Fetches c q s act s') :
    lane o k s' = lane o k s ∨ LaneStep c q o k (lane o k s) (.fetch act) (lane o k s') := by
  cases hst with
  | drain maxRows =>
    right
    have hslot := drain_slot (c := c) s maxRows hl.remote
    have : lane o k ({ drainStep c s maxRows with
        fetch := if (drainStep c s maxRows).allDone c then .drained else .idle } : Sys N Row) =
        { lane o k s with
          slot := (drainStep c s maxRows).gate.prefetchBuf o
          log := (lane o k s).log ++ itemsOf (drain maxRows (sources c) (s.slots c)).taken o
          done := (lane o k s).done ||
            ((lane o k s).prefetchDone &&
              ((drainStep c s maxRows).gate.prefetchBuf o).isEmpty) } := by
      simp [lane, drainStep, hl.remote, hl.mem_dataOwners, Sys.setNode]
    rw [this]
    exact .drain hslot
  | erase => exact .inl (lane_setNode_ne o k s hl.remote.symm _)
  | erased => exact .inl (lane_setNode_ne o k s hl.remote.symm _)
  | _ => exact .inl rfl

lemma lane_cancel {j : ℕ} {act : CancelAct} (hl : IsLane c q o k) (hst : Cancels c q s j act s') :
    lane o k s' = lane o k s ∨ LaneStep c q o k (lane o k s) (.cancel j act) (lane o k s') := by
  cases hst with
  | @flag n g =>
    split
    · next hn =>
      left
      exact lane_setNode_ne o k s (hn ▸ hl.remote.symm) _
    · refine lane_setNode (n := n) fun ho => ?_
      subst ho
      exact .flag
  | @clear n g =>
    split
    · next hn =>
      right
      have : lane o k ((((s.setNode n ((s.node n).clear g)).setCancel j
          ⟨n, if c.overlay.role n = .gateway then .fanout 0 else .erasing⟩).clearSlots)) =
          { lane o k s with slot := [] } := by
        have hne : o ≠ n := hn ▸ hl.remote
        simp [lane, Sys.setNode, Sys.setCancel, Sys.clearSlots, hne]
      rw [this]
      exact .wipe
    · refine lane_setNode (n := n) fun ho => ?_
      subst ho
      exact .clear
  | @dropJoin n =>
    refine lane_setNode (n := n) fun ho => ?_
    subst ho
    exact .evict .drop
  | @drop n =>
    refine lane_setNode (n := n) fun ho => ?_
    subst ho
    exact .evict .drop
  | @erase n =>
    refine lane_setNode (n := n) fun ho => ?_
    subst ho
    exact .evict .erase
  | @unschedule n =>
    refine lane_setNode (n := n) fun ho => ?_
    subst ho
    exact .evict .unschedule
  | _ => exact .inl rfl

/-- **The system refines its lanes**: a step is a step of the lane with the same label, or
leaves the lane as it is. -/
theorem lane_step (hl : IsLane c q o k) (hsh : Shape c q s) (hst : Steps c q s a s') :
    lane o k s' = lane o k s ∨ LaneStep c q o k (lane o k s) a (lane o k s') := by
  cases hst with
  | submit hst => exact lane_submit hl hsh.threads hst
  | forward hst => exact lane_forward hst
  | @produce n act e' hst =>
    refine lane_setNode (n := n) fun ho => ?_
    subst ho
    exact .produce hst
  | prefetch hst => exact lane_prefetch hl hsh.threads hst
  | pull hst => exact lane_pulls hst
  | fetch hst => exact lane_fetch hl hst
  | cancelQuery => exact .inl rfl
  | cancel hst => exact lane_cancel hl hst

end Mini2.Lane
