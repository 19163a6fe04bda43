import Mini2.Bounded
import Mini2.Lib.Monitor
import Mini2.Traces

/-!
`FetchChunk` waits on `prefetch_cv` until it has something to do. Most of what it waits for is
written under the mutex of the request, together with a notification. The producer sets
`done_producing` and notifies without the mutex, and `SubmitQuery` gives an owner up without a
notification; either may come just when `FetchChunk` goes to sleep.
-/

namespace Mini2.Wakeups

open Mini2.Proto Mini2.Net Mini2.Request Mini2.Producer Mini2.Gather Mini2.GatherSteps
open Mini2.GatherShape Mini2.Runs Mini2.Monitor Mini2.Bounded Mini2.Traces

variable {N Query Row : Type}

/-- A request with any number of `FetchChunk` calls under way. `produced` counts the rows of the
gateway's producer in its batch, and `due` says that it is about to notify. -/
structure Watched (N Row : Type) where
  sys : Sys N Row
  fetch : List (Waiter FetchPc)
  produced : ℕ
  due : Bool

inductive WatchAct (N : Type)
  | act (a : Act N)
  | notify
  | fetchChunk
  | fetch (i : ℕ) (a : FetchAct)
  | check (i : ℕ)
  | park (i : ℕ)
  | spurious (i : ℕ)
  | dropNotify

def watchInit (N Row : Type) : Watched N Row := ⟨init N Row, [], 0, false⟩

/-! ### The mutex and the notifications -/

/-- The retry loop of `SubmitQuery` ends without `delivered`. -/
def givesUp (attempt : ℕ) (code : StatusCode) : Bool :=
  code ≠ .ok &&
    !decide ((code = .unavailable ∨ code = .deadlineExceeded) ∧ attempt + 1 < 20)

def marks (s : Sys N Row) : SubmitAct → Bool
  | .mark => true
  | .answered =>
    match s.submit with
    | .awaiting _ attempt f => (s.fwd[f]?).any fun p =>
      match p.stage with
      | .answered code => givesUp attempt code
      | _ => false
    | _ => false
  | .failed code =>
    match s.submit with
    | .awaiting _ attempt _ => givesUp attempt code
    | _ => false
  | _ => false

/-- The call the prefetcher waits for has exceeded its deadline on the way. -/
def expired (s : Sys N Row) (k : ℕ) : Bool :=
  match s.thread k with
  | .pulling i => (s.pull[i]?).any fun p =>
    match p.stage with
    | .replied code _ _ => code = .deadlineExceeded
    | _ => false
  | _ => false

variable [DecidableEq N]

/-- What `FetchChunk` waits for. -/
def ready (c : Config N Query Row) (s : Sys N Row) : Bool :=
  (s.self c).cancelled || s.haveData c || s.allDrained c

/-- The owners other than the gateway are drained. -/
def remoteDrained (c : Config N Query Row) (s : Sys N Row) : Bool :=
  c.overlay.dataOwners.all fun o => o = c.gateway || s.gate.clientProducersDone o ||
    (s.gate.prefetchDone o && (s.gate.prefetchBuf o).isEmpty)

/-- There is no route to the owner of prefetcher `k`. -/
def noHop (c : Config N Query Row) (q : Query) (k : ℕ) : Bool :=
  ((c.eligible q)[k]?).any fun o =>
    match c.overlay.nextHop c.gateway o with
    | .ok _ => false
    | .error _ => true

/-- The steps that need the mutex of the gateway's `RequestState`. -/
def locks (c : Config N Query Row) (q : Query) (s : Sys N Row) : Act N → Bool
  | .submit .spawn =>
    match s.submit with
    | .spawning k => ((c.eligible q)[k]?).any fun o => o ≠ c.gateway
    | _ => false
  | .submit a => marks s a
  | .produce n .room | .produce n .push => n = c.gateway
  | .prefetch k .start => noHop c q k
  | .prefetch _ _ => true
  | .cancel j .clear => (s.cancel[j]?).any fun p => p.node = c.gateway
  | _ => false

/-- The steps that notify under the mutex. -/
def notifies (c : Config N Query Row) (q : Query) (s : Sys N Row) : Act N → Bool
  | .prefetch k .start => noHop c q k
  | .prefetch k .receive => !expired s k
  | .prefetch _ (.failed code) => code ≠ .deadlineExceeded
  | .cancel j .clear => (s.cancel[j]?).any fun p => p.node = c.gateway
  | _ => false

/-- The producer has set `done_producing` for want of rows, or leaves a batch with rows. -/
def owes (sh : Shard Query Row) (e : Entry Row) (produced : ℕ) : ProdAct → Bool
  | .check =>
    match e.producer with
    | .got g => !(e.obj g).cancelled && !(e.obj g).doneProducing && decide (sh.size = 0)
    | _ => false
  | .finish => 0 < produced
  | _ => false

/-- A row that fills the buffer ends the batch before it is counted. -/
def counts (e : Entry Row) (produced : ℕ) : ProdAct → ℕ
  | .room => 0
  | .push =>
    match e.producer with
    | .filling g _ _ =>
      if (e.obj g).matched.length + 1 < maxBuffered then produced + 1 else produced
    | _ => produced
  | _ => produced

def producedAfter (c : Config N Query Row) (x : Watched N Row) : Act N → ℕ
  | .produce n a =>
    if n = c.gateway then counts (x.sys.node c.gateway) x.produced a else x.produced
  | _ => x.produced

def dueAfter (c : Config N Query Row) (x : Watched N Row) : Act N → Bool
  | .produce n a => x.due ||
    decide (n = c.gateway) && owes (c.shard c.gateway) (x.sys.node c.gateway) x.produced a
  | _ => x.due

def isProducer (c : Config N Query Row) : Act N → Bool
  | .produce n _ => n = c.gateway
  | _ => false

/-- The steps of `FetchChunk` that need the mutex. -/
def fetchLocks : FetchAct → Bool
  | .drain _ | .count => true
  | _ => false

def isDrain : FetchAct → Bool
  | .drain _ => true
  | _ => false

def joins : Waiter FetchPc → Bool
  | .at (.joining _ _) => true
  | _ => false

/-- A `drop_request` of the gateway has got to its notification. -/
def dropping (c : Config N Query Row) (x : Watched N Row) : Bool :=
  x.fetch.any joins || x.sys.cancel.any fun p => p.node = c.gateway && p.stage = .joining

/-- The steps of the threads that share the gateway's `RequestState`. A step that needs the mutex
waits while a `FetchChunk` is between its look at the condition and its sleep, and the producer
takes no other step when it is about to notify. -/
def watch (c : Config N Query Row) (q : Query) (x : Watched N Row) :
    WatchAct N → Option (Watched N Row)
  | .act (.fetch _) => none
  | .act a =>
    if locks c q x.sys a = true ∧ .checked ∈ x.fetch ∨ x.due = true ∧ isProducer c a = true then
      none
    else
      (step c q x.sys a).map fun s =>
        ⟨s, if notifies c q x.sys a then wakeAll .entered x.fetch else x.fetch,
          producedAfter c x a, dueAfter c x a⟩
  | .notify =>
    if x.due then some { x with fetch := wakeAll .entered x.fetch, due := false } else none
  | .fetchChunk => some { x with fetch := x.fetch ++ [.at .idle] }
  | .fetch i a =>
    match x.fetch[i]? with
    | some (.at pc) =>
      if fetchLocks a = true ∧ .checked ∈ x.fetch then none
      else
        (fetchStep c q { x.sys with fetch := pc } a).map fun s =>
          { x with
            sys := { s with fetch := .idle }
            fetch := (if isDrain a then wakeAll .entered x.fetch else x.fetch).set i
              (.at s.fetch) }
    | _ => none
  | .check i =>
    if x.fetch[i]? = some (.at .entered) ∧ .checked ∉ x.fetch ∧ ready c x.sys = false then
      some { x with fetch := x.fetch.set i .checked }
    else none
  | .park i =>
    if x.fetch[i]? = some .checked then some { x with fetch := x.fetch.set i .parked } else none
  | .spurious i =>
    if x.fetch[i]? = some .parked then some { x with fetch := x.fetch.set i (.at .entered) }
    else none
  | .dropNotify =>
    if dropping c x = true ∧ .checked ∉ x.fetch then
      some { x with fetch := wakeAll .entered x.fetch }
    else none

/-! ### Who is to notify -/

/-- A `CancelQuery` of the gateway has set `cancelled` and not yet notified. -/
def Flagged (c : Config N Query Row) (s : Sys N Row) : Prop :=
  ∃ g, (⟨c.gateway, .flagged g⟩ : CancelCall N) ∈ s.cancel

/-- The producer is in a batch and has counted a row. -/
def MidBatch (c : Config N Query Row) (x : Watched N Row) : Prop :=
  place (x.sys.node c.gateway).producer ≠ none ∧ 0 < x.produced

/-- Some thread has still to notify. -/
def Pending (c : Config N Query Row) (x : Watched N Row) : Prop :=
  x.due = true ∨ MidBatch c x ∨ Flagged c x.sys

/-- No `FetchChunk` of a C++ gateway sleeps while it has something to do, and nobody is to wake
it. -/
def NoLostWakeup (c : Config N Query Row) (q : Query) (G : Watched N Row → WatchAct N → Prop) :
    Prop :=
  c.overlay.impl c.gateway = .cpp → ∀ x, Reach (watch c q) G (watchInit N Row) x →
    .parked ∈ x.fetch → ready c x.sys = true → Pending c x

/-- The producer is about to set `done_producing`. -/
def atEnd (e : Entry Row) : Bool :=
  match e.producer with
  | .ending g i => decide ((e.obj g).matchedIndices.length ≤ i)
  | _ => false

/-- There is nothing to do after the step. -/
def idleAfter (c : Config N Query Row) (q : Query) (s : Sys N Row) (a : Act N) : Bool :=
  (step c q s a).all fun s' => !ready c s'

/-- The producer does not notify between the look of a `FetchChunk` and its sleep, once there is
something to do, and does not set `done_producing` without a notification, as the last part that
a waiting `FetchChunk` lacks; nor does `SubmitQuery` mark an owner as the last part that a
sleeping one lacks. -/
def Ordered (c : Config N Query Row) (q : Query) (x : Watched N Row) : WatchAct N → Prop
  | .notify => .checked ∈ x.fetch → ready c x.sys = false
  | .act (.produce n .finish) => n = c.gateway → x.produced = 0 →
      atEnd (x.sys.node c.gateway) = true → Waiting x.fetch → remoteDrained c x.sys = false
  | .act (.submit a) => marks x.sys a = true → .parked ∈ x.fetch →
      idleAfter c q x.sys (.submit a) = true
  | _ => True

instance (c : Config N Query Row) (q : Query) (x : Watched N Row) (a : WatchAct N) :
    Decidable (Ordered c q x a) :=
  match a with
  | .notify => inferInstanceAs (Decidable (_ → _))
  | .act (.produce n .finish) => inferInstanceAs (Decidable (n = _ → _ → _ → _ → _))
  | .act (.submit a) => inferInstanceAs (Decidable (marks x.sys a = true → _ → _))
  | .act (.produce _ .pick) | .act (.produce _ .get) | .act (.produce _ .check)
  | .act (.produce _ .room) | .act (.produce _ .test) | .act (.produce _ .push)
  | .act (.forward _) | .act (.prefetch _ _) | .act (.pull _ _) | .act (.fetch _)
  | .act .cancelQuery | .act (.cancel _ _) | .fetchChunk | .fetch _ _ | .check _ | .park _
  | .spurious _ | .dropNotify => .isTrue trivial

variable {c : Config N Query Row} {q : Query} {s s' : Sys N Row} {x x' : Watched N Row}
  {a : Act N}

/-! ### What the condition depends on -/

/-- Without the owners behind the gateway `done_producing` makes no difference. -/
lemma allDrained_of_not_remote (h : remoteDrained c s = false) : s.allDrained c = false := by
  rw [Sys.allDrained, show c.overlay.dataOwners.all _ = remoteDrained c s from rfl, h,
    Bool.and_false]

/-- Two states of the request between which a waiting `FetchChunk` sees no difference. -/
def Alike (c : Config N Query Row) (s : Sys N Row) (st st' : RequestState Row) : Prop :=
  st'.cancelled = st.cancelled ∧ st'.matched = st.matched ∧
    (st'.doneProducing = st.doneProducing ∨ remoteDrained c s = false)

lemma ready_frame (hself : Alike c s (s.self c) (s'.self c))
    (hbuf : s'.gate.prefetchBuf = s.gate.prefetchBuf)
    (hpre : s'.gate.prefetchDone = s.gate.prefetchDone)
    (hdone : s'.gate.clientProducersDone = s.gate.clientProducersDone) :
    ready c s' = ready c s := by
  obtain ⟨hcancelled, hmatched, hprod⟩ := hself
  have hslots : s'.slots c = s.slots c := by
    funext o
    simp only [Sys.slots, hmatched, hbuf]
  have hdata : s'.haveData c = s.haveData c := by
    simp only [Sys.haveData, hslots]
  have hremote : remoteDrained c s' = remoteDrained c s := by
    simp only [remoteDrained, hbuf, hpre, hdone]
  have hdrained : s'.allDrained c = s.allDrained c := by
    rcases hprod with hprod | hfalse
    · simp only [Sys.allDrained, hprod, hmatched, hbuf, hpre, hdone]
    · rw [allDrained_of_not_remote hfalse, allDrained_of_not_remote (hremote.trans hfalse)]
  simp only [ready, hcancelled, hdata, hdrained]

lemma ready_setNode {n : N} {e : Entry Row}
    (he : n = c.gateway → Alike c s ((s.node n).obj 0) (e.obj 0))
    (hnode : s'.node = (s.setNode n e).node)
    (hbuf : s'.gate.prefetchBuf = s.gate.prefetchBuf)
    (hpre : s'.gate.prefetchDone = s.gate.prefetchDone)
    (hdone : s'.gate.clientProducersDone = s.gate.clientProducersDone) :
    ready c s' = ready c s := by
  refine ready_frame ?_ hbuf hpre hdone
  rw [Sys.self, Sys.self, hnode]
  by_cases hn : c.gateway = n
  · subst hn
    rw [setNode_self]
    exact he rfl
  · rw [setNode_ne s hn]
    exact ⟨rfl, rfl, .inl rfl⟩

lemma ready_of_haveData (h : (s.self c).matched ≠ []) : ready c s = true := by
  have hslot : s.slots c c.gateway ≠ [] := by simpa [Sys.slots] using h
  have hdata : s.haveData c = true := by
    simp [Sys.haveData, sources, hslot]
  simp [ready, hdata]

lemma gate_submit {act : SubmitAct} (hst : submitStep c q s act = some s')
    (hmarks : marks s act = false) : s'.gate = s.gate := by
  have hretry : ∀ {k : ℕ} {o : N} {attempt : ℕ} {code : StatusCode}, code ≠ .ok →
      givesUp attempt code = false → (afterFailure s k o attempt code).gate = s.gate := by
    intro k o attempt code hc hg
    simp only [givesUp, Bool.and_eq_false_iff, decide_eq_false_iff_not, not_not,
      Bool.not_eq_false', decide_eq_true_eq] at hg
    rw [afterFailure, if_pos (hg.resolve_left hc)]
  cases act with
  | mark => cases hmarks
  | answered =>
    simp only [submitStep] at hst
    split at hst
    next k attempt f hs =>
      split at hst
      next o r code hf =>
        split at hst <;> obtain rfl := Option.some.inj hst
        next => rfl
        next hc =>
          simp only [marks, hs, hf, Option.any_some] at hmarks
          exact hretry hc hmarks
      next => cases hst
    next => cases hst
  | failed code =>
    simp only [submitStep] at hst
    split at hst
    next k attempt f hs =>
      split at hst
      next o r stage hf =>
        split at hst
        next => cases hst
        next hc =>
          obtain rfl := Option.some.inj hst
          simp only [marks, hs] at hmarks
          exact hretry hc hmarks
      next => cases hst
    next => cases hst
  | _ =>
    have hcases := submits_of_step hst
    cases hcases with
    | retry _ _ _ ha | dead _ _ _ ha => rcases ha with ⟨h, -⟩ | h <;> cases h
    | _ => rfl

/-! ### The steps that leave the condition as it is -/

lemma ready_prefetch {k : ℕ} {act : PrefetchAct} (hst : Prefetches c q s k act s')
    (hn : notifies c q s (.prefetch k act) = false) : ready c s' = ready c s := by
  cases hst with
  | noHop hk _ hnext => simp [notifies, noHop, hk, hnext] at hn
  | receive hk ht hp => simp [notifies, expired, ht, hp] at hn
  | refused hk ht hp hc hd => simp [notifies, expired, ht, hp, hd] at hn
  | failed hk ht hc hd => simp [notifies, hd] at hn
  | _ => rfl

lemma ready_pull {i : ℕ} {act : PullAct} (hst : Pulls c s i act s') (hth : Threads c q s) :
    ready c s' = ready c s := by
  have hne : ∀ {i : ℕ} {p : PullCall N Row}, s.pull[i]? = some p → p.owner ≠ c.gateway :=
    fun hp => (hth.pull _ (List.mem_of_getElem? hp)).2
  cases hst with
  | pop hp => exact ready_setNode (fun h => absurd h (hne hp)) rfl rfl rfl rfl
  | last hp => exact ready_setNode (fun h => absurd h (hne hp)) rfl rfl rfl rfl
  | erase hp => exact ready_setNode (fun h => absurd h (hne hp)) rfl rfl rfl rfl
  | unschedule hp => exact ready_setNode (fun h => absurd h (hne hp)) rfl rfl rfl rfl
  | _ => rfl

/-- A `CancelQuery` of the gateway writes what it waits for in two steps only. -/
lemma ready_cancel {j : ℕ} {act : CancelAct} (hst : Cancels c q s j act s')
    (hn : notifies c q s (.cancel j act) = false) :
    ready c s' = ready c s ∨ Flagged c s' := by
  cases hst with
  | @flag n g hj =>
    by_cases hg : n = c.gateway
    · subst hg
      have hlt := (List.getElem?_eq_some_iff.mp hj).1
      refine .inr ⟨g, ?_⟩
      rw [if_pos rfl]
      exact List.mem_set hlt _
    · rw [if_neg hg]
      exact .inl (ready_setNode (fun h => absurd h hg) rfl rfl rfl rfl)
  | @clear n g hj =>
    have hg : n ≠ c.gateway := by simpa [notifies, hj] using hn
    rw [if_neg hg]
    exact .inl (ready_setNode (fun h => absurd h hg) rfl rfl rfl rfl)
  | @dropJoin n =>
    exact .inl (ready_setNode (n := n) (e := dropRequest (s.node n)) (fun _ => ⟨rfl, rfl, .inl rfl⟩)
      rfl rfl rfl rfl)
  | @drop n =>
    exact .inl (ready_setNode (n := n) (e := dropRequest (s.node n)) (fun _ => ⟨rfl, rfl, .inl rfl⟩)
      rfl rfl rfl rfl)
  | @erase n =>
    exact .inl (ready_setNode (n := n) (e := (s.node n).erase) (fun _ => ⟨rfl, rfl, .inl rfl⟩)
      rfl rfl rfl rfl)
  | @unschedule n =>
    exact .inl (ready_setNode (n := n) (e := (s.node n).unschedule) (fun _ => ⟨rfl, rfl, .inl rfl⟩)
      rfl rfl rfl rfl)
  | _ => exact .inl rfl

lemma flagged_act (hst : Steps c q s a s') (hn : notifies c q s a = false) (h : Flagged c s) :
    Flagged c s' := by
  obtain ⟨g, hmem⟩ := h
  refine ⟨g, ?_⟩
  by_cases ha : a = .cancelQuery
  · subst ha
    cases hst
    exact List.mem_append_left _ hmem
  by_cases hc : ∃ j act, a = .cancel j act
  · obtain ⟨j, act, rfl⟩ := hc
    cases hst with
    | cancel hst =>
      obtain ⟨n, stage, stage', new, hj, hset, -⟩ := cancels_set hst
      obtain ⟨i, hi⟩ := List.getElem?_of_mem hmem
      have hij : j ≠ i := by
        rintro rfl
        -- its next step is the one that notifies
        cases hst with
        | clear h' =>
          obtain ⟨rfl, -⟩ := CancelCall.mk.inj (Option.some.inj (h'.symm.trans hi))
          simp [notifies, hi] at hn
        | _ h' => cases h'.symm.trans hi
      have hi' : (s.cancel.set j ⟨n, stage'⟩)[i]? = some ⟨c.gateway, .flagged g⟩ := by
        rw [List.getElem?_set_ne hij, hi]
      rw [hset]
      exact List.mem_append_left new (List.mem_of_getElem? hi')
  · rw [cancel_eq hst ha fun j act heq => hc ⟨j, act, heq⟩]
    exact hmem

/-! ### The producer of the gateway -/

/-- A step of the gateway's producer from a state in which it owes nobody a notification. -/
lemma pending_produce {act : ProdAct} {e' : Entry Row}
    (hst : prodStep (c.shard c.gateway) (c.overlay.impl c.gateway) c.overlay.maxRows
      (x.sys.node c.gateway) act = some e')
    (hg : Ordered c q x (.act (.produce c.gateway act))) (hwait : Waiting x.fetch)
    (hpend : ready c x.sys = true → MidBatch c x ∨ Flagged c x.sys)
    (hready : ready c (x.sys.setNode c.gateway e') = true) :
    owes (c.shard c.gateway) (x.sys.node c.gateway) x.produced act = true ∨
      (place e'.producer ≠ none ∧ 0 < counts (x.sys.node c.gateway) x.produced act) ∨
      Flagged c x.sys := by
  -- the state of the request is left alone, and a batch that is under way goes on
  have hsame : Alike c x.sys ((x.sys.node c.gateway).obj 0) (e'.obj 0) →
      (MidBatch c x → place e'.producer ≠ none ∧
        0 < counts (x.sys.node c.gateway) x.produced act) →
      (place e'.producer ≠ none ∧ 0 < counts (x.sys.node c.gateway) x.produced act) ∨
        Flagged c x.sys := by
    intro hobj hmid
    have hready' : ready c x.sys = true := by
      rw [← hready]
      exact (ready_setNode (fun _ => hobj) rfl rfl rfl rfl).symm
    exact (hpend hready').imp_left hmid
  have hrefl : ∀ st : RequestState Row, Alike c x.sys st st := fun _ => ⟨rfl, rfl, .inl rfl⟩
  have hnone : ∀ {p : Producer}, (x.sys.node c.gateway).producer = p → place p = none →
      ¬ MidBatch c x := fun hp hnone hm => hm.1 (hp ▸ hnone)
  have hcases := produces_of_step hst
  cases hcases with
  | pick hp => exact .inr (hsame (hrefl _) fun hm => absurd hm (hnone hp rfl))
  | lost hp => exact .inr (hsame (hrefl _) fun hm => absurd hm (hnone hp rfl))
  | get hp => exact .inr (hsame (hrefl _) fun hm => absurd hm (hnone hp rfl))
  | pass hp => exact .inr (hsame (hrefl _) fun hm => absurd hm (hnone hp rfl))
  | @nothing g hp h0 =>
    by_cases hflag : ((x.sys.node c.gateway).obj g).cancelled ||
        ((x.sys.node c.gateway).obj g).doneProducing
    · simp only [prodStep, check, hp, if_pos hflag] at hst
      have hobj := congrArg (fun e => e.obj 0) (Option.some.inj hst)
      refine .inr (hsame ?_ fun hm => absurd hm (hnone hp rfl))
      rw [← hobj]
      exact hrefl _
    · simp only [Bool.or_eq_true, not_or, Bool.not_eq_true] at hflag
      refine .inl ?_
      simp [owes, hp, h0, hflag.1, hflag.2]
  | check hp => exact .inr (hsame (hrefl _) fun hm => absurd hm (hnone hp rfl))
  | full hp => exact .inr (hsame (hrefl _) fun hm => absurd hm (hnone hp rfl))
  | room hp => exact .inr (hsame (hrefl _) fun hm => absurd hm (hnone hp rfl))
  | fill hp => exact .inr (hsame (hrefl _) fun hm => ⟨by simp [place], hm.2⟩)
  | leave hp => exact .inr (hsame (hrefl _) fun hm => ⟨by simp [place], hm.2⟩)
  | @push g i limit idx hp hi =>
    have hplace : ∀ b : Prop, [Decidable b] →
        place (if b then Producer.ending g (i + 1) else Producer.batch g (i + 1) limit) ≠ none := by
      intro b _
      split <;> simp [place]
    by_cases hroom : ((x.sys.node c.gateway).obj g).matched.length + 1 < maxBuffered
    · refine .inr (.inl ⟨hplace _, ?_⟩)
      simp [counts, hp, hroom]
    · -- a row that fills the buffer is not the first one there
      have hcount : counts (x.sys.node c.gateway) x.produced .push = x.produced := by
        simp [counts, hp, hroom]
      have hbefore : ready c x.sys = true := by
        by_cases hg0 : g = 0
        · subst hg0
          refine ready_of_haveData fun hnil => hroom ?_
          have hnil' : ((x.sys.node c.gateway).obj 0).matched = [] := hnil
          simp [hnil', maxBuffered]
        · rw [← hready]
          refine (ready_setNode (fun _ => ?_) rfl rfl rfl rfl).symm
          simpa [Entry.setObj, Ne.symm hg0] using hrefl _
      refine .inr ((hpend hbefore).imp_left fun hm => ⟨hplace _, ?_⟩)
      rw [hcount]
      exact hm.2
  | @finish g i hp =>
    by_cases hprod : 0 < x.produced
    · exact .inl (by simpa [owes] using hprod)
    · have hzero : x.produced = 0 := Nat.eq_zero_of_not_pos hprod
      refine .inr (hsame ?_ fun hm => absurd hm.2 hprod)
      by_cases hg0 : g = 0
      · subst hg0
        refine ⟨by simp [Entry.setObj], by simp [Entry.setObj], ?_⟩
        by_cases hend : atEnd (x.sys.node c.gateway) = true
        · exact .inr (hg rfl hzero hend hwait)
        · have hmore : ¬ ((x.sys.node c.gateway).obj 0).matchedIndices.length ≤ i := by
            simpa [atEnd, hp] using hend
          exact .inl (by simp [Entry.setObj, hmore])
      · simpa [Entry.setObj, Ne.symm hg0] using hrefl _

/-! ### The other threads -/

lemma locks_of_notifies (h : notifies c q s a = true) : locks c q s a = true := by
  unfold notifies at h
  split at h
  · exact h
  · rfl
  · rfl
  · exact h
  · cases h

/-- A step of another thread that neither marks nor notifies lets the condition be, unless it has
to notify later. -/
lemma ready_act (hst : step c q s a = some s') (hth : Threads c q s)
    (hreg : a ≠ .submit .register) (hprod : isProducer c a = false) (hf : ∀ act, a ≠ .fetch act)
    (hmarks : ∀ act, a = .submit act → marks s act = false) (hn : notifies c q s a = false) :
    ready c s' = ready c s ∨ Flagged c s' := by
  have hcases := steps_of_step hst
  cases hcases with
  | @submit act _ hsub =>
    have hgate : s'.gate = s.gate := gate_submit hst (hmarks act rfl)
    have hself : s'.self c = s.self c := by
      cases hsub with
      | register => exact absurd rfl hreg
      | _ => rfl
    refine .inl (ready_frame ?_ ?_ ?_ ?_)
    · rw [hself]
      exact ⟨rfl, rfl, .inl rfl⟩
    · rw [hgate]
    · rw [hgate]
    · rw [hgate]
  | forward hst =>
    cases hst with
    | @register o r ttl hp =>
      have hne := (hth.fwd _ (List.mem_of_getElem? hp)).2
      exact .inl (ready_setNode (fun h => absurd h hne) rfl rfl rfl rfl)
    | _ => exact .inl rfl
  | produce =>
    have hne := of_decide_eq_false hprod
    exact .inl (ready_setNode (fun h => absurd h hne) rfl rfl rfl rfl)
  | prefetch hst => exact .inl (ready_prefetch hst hn)
  | pull hst => exact .inl (ready_pull hst hth)
  | fetch => exact absurd rfl (hf _)
  | cancelQuery => exact .inl rfl
  | cancel hst => exact ready_cancel hst hn

/-! ### The invariant -/

/-- Whoever waits while there is something to do is going to be woken. -/
structure Sound (c : Config N Query Row) (q : Query) (x : Watched N Row) : Prop where
  threads : Threads c q x.sys
  entries : EntriesOk c q x.sys
  selfOnce : SelfOnce c x.sys
  before : x.sys.submit = .idle → ∀ w ∈ x.fetch, w = .at .idle
  pending : Waiting x.fetch → ready c x.sys = true → Pending c x

omit [DecidableEq N] in
lemma not_waiting_of_idle {ws : List (Waiter FetchPc)} (h : ∀ w ∈ ws, w = .at .idle) :
    ¬ Waiting ws := by
  rintro (hw | hw)
  · cases h _ hw
  · cases h _ hw

lemma sound_init : Sound c q (watchInit N Row) :=
  ⟨threads_init, fun _ => entryOk_empty, selfOnce_init, fun _ _ h => absurd h List.not_mem_nil,
    fun h => absurd h not_waiting_nil⟩

lemma producer_still (hst : Steps c q s a s') (hprod : isProducer c a = false) :
    (s'.node c.gateway).producer = (s.node c.gateway).producer :=
  producer_eq hst fun act heq => by
    subst heq
    exact of_decide_eq_false hprod rfl

lemma producedAfter_eq (hprod : isProducer c a = false) : producedAfter c x a = x.produced := by
  unfold isProducer at hprod
  unfold producedAfter
  split
  · exact if_neg (of_decide_eq_false hprod)
  · rfl

lemma dueAfter_of_due (h : x.due = true) : dueAfter c x a = true := by
  unfold dueAfter
  split <;> simp [h]

lemma pending_act (h : Sound c q x) (hg : Ordered c q x (.act a)) (hf : ∀ act, a ≠ .fetch act)
    (hlock : ¬ (locks c q x.sys a = true ∧ .checked ∈ x.fetch))
    (hdue : ¬ (x.due = true ∧ isProducer c a = true)) (hst : step c q x.sys a = some s)
    (hwait : Waiting (if notifies c q x.sys a then wakeAll .entered x.fetch else x.fetch))
    (hready : ready c s = true) :
    dueAfter c x a = true ∨
      (place (s.node c.gateway).producer ≠ none ∧ 0 < producedAfter c x a) ∨ Flagged c s := by
  have hn : notifies c q x.sys a = false := by
    by_contra hn
    rw [Bool.not_eq_false] at hn
    rw [if_pos hn] at hwait
    exact hlock ⟨locks_of_notifies hn, checked_of_waiting_wakeAll hwait⟩
  rw [hn, if_neg Bool.false_ne_true] at hwait
  have hcases := steps_of_step hst
  by_cases hprod : isProducer c a = true
  · -- the gateway's producer
    cases a with
    | produce n act =>
      obtain rfl : n = c.gateway := of_decide_eq_true hprod
      obtain ⟨e', he', rfl⟩ := Option.map_eq_some_iff.mp hst
      have hnodue : x.due = false := by
        by_contra hd
        exact hdue ⟨by simpa using hd, hprod⟩
      have hpend : ready c x.sys = true → MidBatch c x ∨ Flagged c x.sys := fun hr =>
        (h.pending hwait hr).resolve_left (by simp [hnodue])
      rcases pending_produce he' hg hwait hpend hready with ho | ⟨hplace, hcount⟩ | hfl
      · exact .inl (by simp [dueAfter, ho])
      · refine .inr (.inl ⟨?_, ?_⟩)
        · rw [setNode_self]
          exact hplace
        · simpa [producedAfter] using hcount
      · exact .inr (.inr hfl)
    | _ => cases hprod
  · rw [Bool.not_eq_true] at hprod
    have hreg : a ≠ .submit .register := by
      rintro rfl
      -- nobody fetches before the request is registered
      have hidle : x.sys.submit = .idle := by
        cases hcases with
        | submit hsub =>
          cases hsub with
          | register hi => exact hi
          | refuse hi => exact hi
          | retry _ _ _ ha | dead _ _ _ ha => rcases ha with ⟨h', -⟩ | h' <;> cases h'
      exact not_waiting_of_idle (h.before hidle) hwait
    have hmarks : ∀ act, a = .submit act → marks x.sys act = false := by
      rintro act rfl
      by_contra hm
      rw [Bool.not_eq_false] at hm
      have hl : locks c q x.sys (.submit act) = true := by
        cases act with
        | spawn => cases hm
        | _ => exact hm
      rcases hwait with hw | hw
      · exact hlock ⟨hl, hw⟩
      · have hidle := hg hm hw
        rw [idleAfter, hst, Option.all_some, hready] at hidle
        cases hidle
    rcases ready_act hst h.threads hreg hprod hf hmarks hn with heq | hfl
    · rcases h.pending hwait (heq ▸ hready) with hd | hm | hfl
      · exact .inl (dueAfter_of_due hd)
      · refine .inr (.inl ⟨?_, ?_⟩)
        · rw [producer_still hcases hprod]
          exact hm.1
        · rw [producedAfter_eq hprod]
          exact hm.2
      · exact .inr (.inr (flagged_act hcases hn hfl))
    · exact .inr (.inr hfl)

lemma sound_act (h : Sound c q x) (hg : Ordered c q x (.act a)) (hf : ∀ act, a ≠ .fetch act)
    (hlock : ¬ (locks c q x.sys a = true ∧ .checked ∈ x.fetch))
    (hdue : ¬ (x.due = true ∧ isProducer c a = true)) (hst : step c q x.sys a = some s) :
    Sound c q ⟨s, if notifies c q x.sys a then wakeAll .entered x.fetch else x.fetch,
      producedAfter c x a, dueAfter c x a⟩ where
  threads := threads_step (steps_of_step hst) h.threads
  entries := entriesOk_step (steps_of_step hst) h.entries
  selfOnce := selfOnce_step (steps_of_step hst) h.entries h.threads h.selfOnce
  before := by
    intro hidle
    have hidle' : x.sys.submit = .idle := by
      by_contra hne
      exact submit_ne_idle (steps_of_step hst) hne hidle
    intro w hw
    simp only at hw
    split at hw
    · obtain ⟨w', hw', rfl⟩ := List.mem_map.mp hw
      rw [h.before hidle' w' hw']
      rfl
    · exact h.before hidle' w hw
  pending := pending_act h hg hf hlock hdue hst

lemma submit_ne_idle_of_fetch {pc : FetchPc} {act : FetchAct} (h : Sound c q x)
    (hmem : .at pc ∈ x.fetch) (hst : Fetches c q { x.sys with fetch := pc } act s) :
    x.sys.submit ≠ .idle := by
  intro hidle
  obtain rfl : pc = .idle := Waiter.at.inj (h.before hidle _ hmem)
  cases hst with
  | start _ ht =>
    obtain ⟨g, hgen⟩ := Option.isSome_iff_exists.mp ht
    have hpos : g + 1 = (x.sys.node c.gateway).gens := (h.entries c.gateway).table g hgen
    have hzero := h.selfOnce.idle hidle
    omega
  | drain _ hpc => cases hpc
  | count hpc => cases hpc
  | erase hpc => cases hpc
  | erased hpc => cases hpc
  | finish hpc => cases hpc

/-- A `FetchChunk` that does not drain leaves alone what the others wait for. -/
lemma ready_fetch {pc : FetchPc} {act : FetchAct}
    (hst : Fetches c q { x.sys with fetch := pc } act s) (hd : isDrain act = false) :
    ready c s = ready c x.sys := by
  cases hst with
  | drain => cases hd
  | erase =>
    exact ready_setNode (n := c.gateway) (e := dropRequest (x.sys.node c.gateway))
      (fun _ => ⟨rfl, rfl, .inl rfl⟩) rfl rfl rfl rfl
  | erased =>
    exact ready_setNode (n := c.gateway) (e := dropRequest (x.sys.node c.gateway))
      (fun _ => ⟨rfl, rfl, .inl rfl⟩) rfl rfl rfl rfl
  | _ => rfl

lemma sound_fetch {i : ℕ} {pc : FetchPc} {act : FetchAct} (h : Sound c q x)
    (hi : x.fetch[i]? = some (.at pc)) (hlock : ¬ (fetchLocks act = true ∧ .checked ∈ x.fetch))
    (hst : fetchStep c q { x.sys with fetch := pc } act = some s) :
    Sound c q { x with
      sys := { s with fetch := .idle }
      fetch := (if isDrain act then wakeAll .entered x.fetch else x.fetch).set i
        (.at s.fetch) } := by
  have hcases := fetches_of_step hst
  have hsteps : Steps c q { x.sys with fetch := pc } (.fetch act) s := .fetch hcases
  have hsub : s.submit ≠ .idle :=
    submit_ne_idle hsteps (submit_ne_idle_of_fetch h (List.mem_of_getElem? hi) hcases)
  have hthreads : Threads c q s := threads_step hsteps (h.threads.setFetch pc)
  have honce : SelfOnce c s :=
    selfOnce_step hsteps h.entries (h.threads.setFetch pc) (h.selfOnce.setFetch pc)
  have hentries : EntriesOk c q s := entriesOk_step hsteps h.entries
  refine ⟨hthreads.setFetch .idle, hentries, honce.setFetch .idle,
    fun hidle => absurd hidle hsub, fun hwait hready => ?_⟩
  have hwait := waiting_of_set_at hwait
  cases hd : isDrain act with
  | true =>
    have hl : fetchLocks act = true := by
      cases act <;> first | rfl | cases hd
    rw [hd, if_pos rfl] at hwait
    exact absurd ⟨hl, checked_of_waiting_wakeAll hwait⟩ hlock
  | false =>
    rw [hd, if_neg Bool.false_ne_true] at hwait
    have hready' : ready c s = true := hready
    rw [ready_fetch hcases hd] at hready'
    rcases h.pending hwait hready' with hdue | hm | ⟨g, hmem⟩
    · exact .inl hdue
    · refine .inr (.inl ⟨?_, hm.2⟩)
      show place (s.node c.gateway).producer ≠ none
      rw [producer_still hsteps rfl]
      exact hm.1
    · refine .inr (.inr ⟨g, ?_⟩)
      show _ ∈ s.cancel
      rw [cancel_eq hsteps (by simp) (by simp)]
      exact hmem

lemma watch_act (hf : ∀ act, a ≠ .fetch act) : watch c q x (.act a) =
    if locks c q x.sys a = true ∧ .checked ∈ x.fetch ∨ x.due = true ∧ isProducer c a = true then
      none
    else
      (step c q x.sys a).map fun s =>
        ⟨s, if notifies c q x.sys a then wakeAll .entered x.fetch else x.fetch,
          producedAfter c x a, dueAfter c x a⟩ := by
  cases a with
  | fetch act => exact absurd rfl (hf act)
  | _ => rfl

lemma Sound.waiters (h : Sound c q x) {ws : List (Waiter FetchPc)}
    (hbefore : x.sys.submit = .idle → ∀ w ∈ ws, w = .at .idle)
    (hwait : Waiting ws → ready c x.sys = true → Waiting x.fetch) :
    Sound c q { x with fetch := ws } :=
  ⟨h.threads, h.entries, h.selfOnce, hbefore, fun hw hr => h.pending (hwait hw hr) hr⟩

lemma sound_step {a : WatchAct N} (h : Sound c q x) (hg : Ordered c q x a)
    (hst : watch c q x a = some x') : Sound c q x' := by
  -- a call that is past its start has been started after the registration
  have hstarted : ∀ {w : Waiter FetchPc}, w ∈ x.fetch → w ≠ .at .idle → x.sys.submit ≠ .idle :=
    fun hw hne hidle => hne (h.before hidle _ hw)
  have hwake : x.sys.submit = .idle → ∀ w ∈ wakeAll .entered x.fetch, w = .at .idle := by
    intro hidle w hw
    obtain ⟨w', hw', rfl⟩ := List.mem_map.mp hw
    rw [h.before hidle w' hw']
    rfl
  cases a with
  | act a =>
    have hf : ∀ act, a ≠ .fetch act := by
      rintro act rfl
      cases hst
    rw [watch_act hf] at hst
    split at hst
    next => cases hst
    next hfree =>
      obtain ⟨s, hs, rfl⟩ := Option.map_eq_some_iff.mp hst
      obtain ⟨hlock, hdue⟩ := not_or.mp hfree
      exact sound_act h hg hf hlock hdue hs
  | notify =>
    simp only [watch] at hst
    split at hst
    next hdue =>
      obtain rfl := Option.some.inj hst
      refine ⟨h.threads, h.entries, h.selfOnce, hwake, fun hw hr => ?_⟩
      have hfalse := hg (checked_of_waiting_wakeAll hw)
      rw [show ready c x.sys = true from hr] at hfalse
      cases hfalse
    next => cases hst
  | fetchChunk =>
    obtain rfl := Option.some.inj hst
    refine h.waiters (fun hidle w hw => ?_) fun hw _ => waiting_of_append_at hw
    rcases List.mem_append.mp hw with hw | hw
    · exact h.before hidle w hw
    · exact List.mem_singleton.mp hw
  | fetch i act =>
    simp only [watch] at hst
    split at hst
    next pc hi =>
      split at hst
      next => cases hst
      next hlock =>
        obtain ⟨s, hs, rfl⟩ := Option.map_eq_some_iff.mp hst
        exact sound_fetch h hi hlock hs
    next => cases hst
  | check i =>
    simp only [watch] at hst
    split at hst
    next hcheck =>
      obtain rfl := Option.some.inj hst
      obtain ⟨hi, -, hfalse⟩ := hcheck
      have hsub := hstarted (List.mem_of_getElem? hi) (by simp)
      refine h.waiters (fun hidle => absurd hidle hsub) fun _ hr => ?_
      rw [hfalse] at hr
      cases hr
    next => cases hst
  | park i =>
    simp only [watch] at hst
    split at hst
    next hi =>
      obtain rfl := Option.some.inj hst
      have hsub := hstarted (List.mem_of_getElem? hi) (by simp)
      exact h.waiters (fun hidle => absurd hidle hsub) fun _ _ => waiting_of_parks hi
    next => cases hst
  | spurious i =>
    simp only [watch] at hst
    split at hst
    next hi =>
      obtain rfl := Option.some.inj hst
      have hsub := hstarted (List.mem_of_getElem? hi) (by simp)
      exact h.waiters (fun hidle => absurd hidle hsub) fun hw _ => waiting_of_set_at hw
    next => cases hst
  | dropNotify =>
    simp only [watch] at hst
    split at hst
    next hfree =>
      obtain rfl := Option.some.inj hst
      exact h.waiters hwake fun hw _ => absurd hw (not_waiting_wakeAll hfree.2)
    next => cases hst

/-- **No wakeup is lost** in a run in which no notification comes between the look and the sleep,
and none is left out. -/
theorem noLostWakeup (c : Config N Query Row) (q : Query) : NoLostWakeup c q (Ordered c q) := by
  intro _ x hx hparked hready
  have hsound : Sound c q x :=
    hx.invariant sound_init fun _ _ _ _ hi hg hst => sound_step hi hg hst
  exact hsound.pending (.inr hparked) hready

/-! ### Runs of a gateway with one row -/

def oneRow : Config ℕ Unit ℕ := chainConfig 2 [0] fun _ => 1

def submittedHere : List (WatchAct ℕ) :=
  [.submit .register, .submit .mark, .submit .next, .submit .next, .submit .spawn,
    .submit .spawn].map WatchAct.act ++ [.fetchChunk]

/-- The producer pushes the row, and is still in its batch. -/
def pushed : List (WatchAct ℕ) :=
  [.produce 0 .pick, .produce 0 .get, .produce 0 .check, .produce 0 .room, .produce 0 .test,
    .produce 0 .push].map WatchAct.act

/-- A `FetchChunk` sleeps when the row arrives. -/
def asleep : List (WatchAct ℕ) :=
  submittedHere ++ [.fetch 0 .start, .check 0, .park 0] ++ pushed

theorem noLostWakeup_asleep :
    ∃ x, Reach (watch oneRow ()) (Ordered oneRow ()) (watchInit ℕ ℕ) x ∧
      .parked ∈ x.fetch ∧ ready oneRow x.sys = true ∧ Pending oneRow x := by
  have hrun : (run (watch oneRow ()) (Ordered oneRow ()) (watchInit ℕ ℕ) asleep).map (fun x =>
      (decide (.parked ∈ x.fetch), ready oneRow x.sys)) = some (true, true) := by
    decide +kernel
  obtain ⟨x, hx, heq⟩ := Option.map_eq_some_iff.mp hrun
  obtain ⟨hparked, hready⟩ := Prod.mk.inj heq
  have hreach := reach_of_run .init hx
  exact ⟨x, hreach, of_decide_eq_true hparked, hready,
    noLostWakeup oneRow () rfl x hreach (of_decide_eq_true hparked) hready⟩

/-- The client has got the row, and its next `FetchChunk` looks just before the producer says
that it is done. -/
def missed : List (WatchAct ℕ) :=
  submittedHere ++ pushed ++ [.fetch 0 .start, .fetch 0 (.drain 10), .fetch 0 .start, .check 0,
    .act (.produce 0 .test), .act (.produce 0 .finish), .notify, .park 0]

/-- **The last notification of the producer is missed** by a `FetchChunk` that has looked and does
not sleep yet. -/
theorem not_noLostWakeup_missed : ¬ NoLostWakeup oneRow () fun _ _ => True := by
  intro h
  have hrun : (run (watch oneRow ()) (fun _ _ => True) (watchInit ℕ ℕ) missed).map (fun x =>
      (decide (.parked ∈ x.fetch), ready oneRow x.sys, x.due,
        (place (x.sys.node 0).producer).isNone, x.sys.cancel.isEmpty)) =
      some (true, true, false, true, true) := by
    decide +kernel
  obtain ⟨x, hx, heq⟩ := Option.map_eq_some_iff.mp hrun
  simp only [Prod.mk.injEq, decide_eq_true_eq, Option.isNone_iff_eq_none,
    List.isEmpty_iff] at heq
  obtain ⟨hparked, hready, hdue, hplace, hcancel⟩ := heq
  rcases h rfl x (reach_of_run .init hx) hparked hready with hd | hm | ⟨g, hmem⟩
  · rw [hdue] at hd
    cases hd
  · exact hm.1 hplace
  · rw [hcancel] at hmem
    cases hmem

end Mini2.Wakeups
