import Mini2.Traces

/-!
A request that is submitted more than once, and whose `ForwardQuery`s may come again. Every
`SubmitQuery` has a place and prefetchers of its own; the state of the request, the nodes' entries,
the calls and `FetchChunk` are shared by all of them.

A run is followed until the gateway makes a second state for the request, because from there on
some of its threads work on the first and some on the second.
-/

namespace Mini2.Resubmit

open Mini2.Proto Mini2.Net Mini2.Request Mini2.Producer Mini2.Gather Mini2.Lane Mini2.Traces

variable {N Query Row : Type}

/-- `calls` counts the `SubmitQuery`s; of the `j`-th one, `submit j` is the place and `thread j k`
the prefetcher for the `k`-th owner. Those of `sys` are of whichever call has moved last, and
nobody reads them. `renewed` says that the gateway has made a second state. -/
structure ReSys (N Row : Type) where
  sys : Sys N Row
  calls : ℕ
  submit : ℕ → SubmitPc
  thread : ℕ → ℕ → ThreadPc
  renewed : Bool

def reInit (N Row : Type) : ReSys N Row :=
  ⟨init N Row, 0, fun _ => .idle, fun _ _ => .absent, false⟩

/-- `again` delivers a `ForwardQuery` that has been sent once more, at any node and with any ttl
it can have. -/
inductive ReAct (N : Type)
  | call
  | submit (j : ℕ) (a : SubmitAct)
  | again (f : ℕ) (n : N) (ttl : ℕ)
  | forward (f : ℕ)
  | produce (n : N) (a : ProdAct)
  | prefetch (j k : ℕ) (a : PrefetchAct)
  | pull (i : ℕ) (a : PullAct)
  | fetch (a : FetchAct)
  deriving DecidableEq

/-- The request as the `j`-th `SubmitQuery` and its prefetchers see it. -/
def ReSys.focus (x : ReSys N Row) (j : ℕ) : Sys N Row :=
  { x.sys with submit := x.submit j, thread := x.thread j }

def ReSys.put (x : ReSys N Row) (j : ℕ) (s : Sys N Row) : ReSys N Row :=
  { x with
    sys := s
    submit := Function.update x.submit j s.submit
    thread := Function.update x.thread j s.thread }

variable [DecidableEq N] (c : Config N Query Row) (q : Query)

/-- The gateway has had the request and has dropped it. -/
def Dropped (e : Entry Row) : Prop := e.table = none ∧ 0 < e.gens

instance (e : Entry Row) : Decidable (Dropped e) := inferInstanceAs (Decidable (_ ∧ _))

def ReSys.joined (x : ReSys N Row) : Prop := ∀ j < x.calls, (x.focus j).joined c q

instance (x : ReSys N Row) : Decidable (x.joined c q) :=
  inferInstanceAs (Decidable (∀ j < x.calls, _))

def reFetchStep (x : ReSys N Row) (a : FetchAct) : Option (ReSys N Row) :=
  match a with
  | .finish =>
    match x.sys.fetch with
    | .joining hit eligible =>
      if x.joined c q then
        some { x with sys := { x.sys with fetch := .idle, finished := some (hit, eligible) } }
      else none
    | _ => none
  | a => (fetchStep c q x.sys a).map fun s => { x with sys := s }

def reStep (x : ReSys N Row) (a : ReAct N) : Option (ReSys N Row) :=
  if x.renewed then none
  else
    match a with
    | .call => some { x with calls := x.calls + 1 }
    | .submit j a =>
      if j < x.calls then
        (submitStep c q (x.focus j) a).map fun s =>
          { x.put j s with
            renewed := decide (a = .register ∧ Dropped (x.sys.node c.gateway)) }
      else none
    | .again f n ttl =>
      match x.sys.fwd[f]? with
      | some p =>
        if ttl ≤ 8 then
          some { x with sys := { x.sys with fwd := x.sys.fwd ++ [⟨p.owner, true, .at n ttl⟩] } }
        else none
      | none => none
    | .forward f => (forwardStep c q x.sys f).map fun s => { x with sys := s }
    | .produce n a =>
      (prodStep (c.shard n) (c.overlay.impl n) c.overlay.maxRows (x.sys.node n) a).map fun e =>
        { x with sys := x.sys.setNode n e }
    | .prefetch j k a => (prefetchStep c q (x.focus j) k a).map (x.put j)
    | .pull i a => (pullStep c x.sys i a).map fun s => { x with sys := s }
    | .fetch a => reFetchStep c q x a

/-- No call fails. -/
def Answered : ReAct N → Prop
  | .submit _ (.failed _) => False
  | .submit _ .relayFailed => False
  | .prefetch _ _ (.failed _) => False
  | _ => True

instance (a : ReAct N) : Decidable (Answered a) :=
  match a with
  | .submit _ (.failed _) | .submit _ .relayFailed | .prefetch _ _ (.failed _) => .isFalse id
  | .call | .submit _ .register | .submit _ .mark | .submit _ .next | .submit _ .answered
  | .submit _ .spawn | .again _ _ _ | .forward _ | .produce _ _ | .prefetch _ _ .start
  | .prefetch _ _ .issue | .prefetch _ _ .receive | .pull _ _ | .fetch _ => .isTrue trivial

/-- The prefetchers of the `k`-th owner stop instead of asking. -/
def Halted (s : Sys N Row) (k : ℕ) : Prop :=
  s.gate.prefetchStop = true ∨ (s.self c).cancelled = true ∨
    ∃ o ∈ (c.eligible q)[k]?, s.gate.prefetchDone o = true

instance (s : Sys N Row) (k : ℕ) : Decidable (Halted c q s k) :=
  inferInstanceAs (Decidable (_ ∨ _ ∨ ∃ o ∈ (c.eligible q)[k]?, _))

/-- No node registers the request that has dropped it. -/
def Fresh (x : ReSys N Row) : ReAct N → Prop
  | .submit _ .register => ¬ Dropped (x.sys.node c.gateway)
  | .forward f => ∀ p ∈ x.sys.fwd[f]?, arrived p = true → ¬ Dropped (x.sys.node p.owner)
  | _ => True

instance (x : ReSys N Row) (a : ReAct N) : Decidable (Fresh c x a) :=
  match a with
  | .submit _ .register => inferInstanceAs (Decidable (¬ Dropped (x.sys.node c.gateway)))
  | .forward f => inferInstanceAs (Decidable (∀ p ∈ x.sys.fwd[f]?, arrived p = true →
      ¬ Dropped (x.sys.node p.owner)))
  | .call | .submit _ .mark | .submit _ .next | .submit _ .answered | .submit _ (.failed _)
  | .submit _ .relayFailed | .submit _ .spawn | .again _ _ _ | .produce _ _ | .prefetch _ _ _
  | .pull _ _ | .fetch _ => .isTrue trivial

/-- No prefetcher asks an owner that another one is asking. -/
def Alone (x : ReSys N Row) : ReAct N → Prop
  | .prefetch j k .issue => Halted c q x.sys k ∨
      ∀ j' < x.calls, j' ≠ j → ∀ i < x.sys.pull.length, x.thread j' k ≠ .pulling i
  | _ => True

instance (x : ReSys N Row) (a : ReAct N) : Decidable (Alone c q x a) :=
  match a with
  | .prefetch j k .issue => inferInstanceAs (Decidable (Halted c q x.sys k ∨
      ∀ j' < x.calls, j' ≠ j → ∀ i < x.sys.pull.length, x.thread j' k ≠ .pulling i))
  | .call | .submit _ _ | .again _ _ _ | .forward _ | .produce _ _ | .prefetch _ _ .start
  | .prefetch _ _ .receive | .prefetch _ _ (.failed _) | .pull _ _ | .fetch _ => .isTrue trivial

def Harmless (x : ReSys N Row) (a : ReAct N) : Prop := Fresh c x a ∧ Alone c q x a

instance (x : ReSys N Row) (a : ReAct N) : Decidable (Harmless c q x a) :=
  inferInstanceAs (Decidable (_ ∧ _))

/-- Every `SubmitQuery`, `FetchChunk` and all calls between the nodes have returned. -/
structure AllReturned (x : ReSys N Row) : Prop where
  submit : ∀ j < x.calls, x.submit j = .returned ∨ x.submit j = .failed
  fetch : x.sys.fetch = .idle
  fwd : x.sys.fwd.all (fun p => answered p.stage) = true
  pull : x.sys.pull.all (fun p => replied p.stage) = true

instance (x : ReSys N Row) : Decidable (AllReturned x) :=
  decidable_of_iff ((∀ j < x.calls, x.submit j = .returned ∨ x.submit j = .failed) ∧
      x.sys.fetch = .idle ∧ x.sys.fwd.all (fun p => answered p.stage) = true ∧
      x.sys.pull.all (fun p => replied p.stage) = true)
    ⟨fun h => ⟨h.1, h.2.1, h.2.2.1, h.2.2.2⟩, fun h => ⟨h.submit, h.fetch, h.fwd, h.pull⟩⟩

/-- Repetitions change nothing: in every run in which every call is answered and whose steps meet
the guard, a client whose request has finished has got every matching row once, and no node is left
with the request when all handlers have returned. -/
def Idempotent (G : ReSys N Row → ReAct N → Prop) : Prop :=
  (∀ o, (c.shard o).matchRows q ≠ [] → o ∈ c.eligible q) →
  ∀ x, Runs.Reach (reStep c q) (fun x a => Answered a ∧ G x a) (reInit N Row) x →
    x.sys.finished ≠ none →
      (x.sys.log.map Prod.snd).Perm ((c.eligible q).flatMap fun o => (c.shard o).matchRows q) ∧
        (AllReturned x → NoTrace c x.sys)

end Mini2.Resubmit
