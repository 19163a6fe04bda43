import Mathlib.Data.Finset.Card
import Mini2.Lib.RoundRobin
import Mini2.Net
import Mini2.Producer
import Mini2.Proto

/-!
One request on its way through the nodes: `SubmitQuery`, `FetchChunk`, `CancelQuery` and the
prefetchers of the gateway, and `ForwardQuery`, `PullChunk`, `CancelQuery` and the producer
of every node.

A step of the system is what one thread does between two accesses to what it shares with
others. The calls between nodes are kept for good: a caller may give one up, and it can still
be handled afterwards. The size of a chunk and the time at which a call fails are left open.
-/

namespace Mini2.Gather

open Mini2.Proto Mini2.Net Mini2.Request Mini2.Producer Mini2.RoundRobin

/-- The nodes, their data, and the owners the gateway asks. -/
structure Config (N Query Row : Type) where
  overlay : Overlay N
  gateway : N
  shard : N → Shard Query Row
  eligible : Query → List N
  eligible_sublist : ∀ q, (eligible q).Sublist overlay.dataOwners

/-- A request along a chain whose node `o` lists the rows `0`, …, `size o - 1` for it; all
owners are eligible. -/
def chainConfig (n : ℕ) (dataOwners : List ℕ) (size : ℕ → ℕ) : Config ℕ Unit ℕ where
  overlay := .chain n dataOwners
  gateway := 0
  shard o := ⟨true, size o, fun _ => true, fun _ => List.range (size o), id, nofun⟩
  eligible _ := dataOwners
  eligible_sublist _ := List.Sublist.refl _

/-- Where `SubmitQuery` stands. -/
inductive SubmitPc
  | idle
  | registered
  | forwarding (k attempt : ℕ)
  | awaiting (k attempt f : ℕ)
  | spawning (k : ℕ)
  | returned
  | failed
  deriving DecidableEq

/-- No prefetcher has been spawned yet. -/
def SubmitPc.early : SubmitPc → Bool
  | .spawning _ => false
  | .returned => false
  | _ => true

inductive ForwardStage (N : Type)
  | at (n : N) (ttl : ℕ)
  | answered (code : StatusCode)
  deriving DecidableEq

/-- A `ForwardQuery` of the gateway; `relayed` once a node behind the first has been called. -/
structure ForwardCall (N : Type) where
  owner : N
  relayed : Bool
  stage : ForwardStage N
  deriving DecidableEq

/-- A `PullChunk`: about to be handled by a node, or at the owner, or answered. A Python owner
that drops the request with its last chunk is `dropping` until its scheduler has lost it too. -/
inductive PullStage (N Row : Type)
  | at (n : N)
  | found (g : ℕ)
  | popped (g : ℕ) (out : List Row)
  | loaded (g : ℕ) (out : List Row) (doneProd : Bool)
  | decided (g : ℕ) (out : List Row) (isLast : Bool)
  | dropping (out : List Row)
  | replied (code : StatusCode) (out : List Row) (isLast : Bool)
  deriving DecidableEq

structure PullCall (N Row : Type) where
  owner : N
  stage : PullStage N Row
  deriving DecidableEq

/-- Where a prefetcher stands. -/
inductive ThreadPc
  | absent
  | starting
  | waiting
  | pulling (i : ℕ)
  | returned
  deriving DecidableEq

/-- Where `FetchChunk` stands once it has got the request. -/
inductive FetchPc
  | idle
  | entered
  | drained
  | counted (hit eligible : ℕ)
  | joining (hit eligible : ℕ)
  deriving DecidableEq

inductive CancelStage
  | start
  | found (g : ℕ)
  | flagged (g : ℕ)
  | fanout (k : ℕ)
  | awaiting (k child : ℕ)
  | erasing
  | dropping
  | joining
  | done (acknowledged : Bool)
  | failed
  deriving DecidableEq

structure CancelCall (N : Type) where
  node : N
  stage : CancelStage
  deriving DecidableEq

/-- The fields of the gateway's `RequestState` that only a gateway uses. -/
structure Gate (N Row : Type) where
  clientProducersDone : N → Bool
  ownersResponded : Finset N
  eligibleOwners : ℕ
  prefetchBuf : N → List Row
  prefetchDone : N → Bool
  prefetchStop : Bool
  totalMatched : ℕ

/-- The state of one request. `log` holds the rows the client has been sent, with their
owners, and `finished` what the last chunk said of the owners. -/
structure Sys (N Row : Type) where
  submit : SubmitPc
  gate : Gate N Row
  node : N → Entry Row
  fwd : List (ForwardCall N)
  thread : ℕ → ThreadPc
  pull : List (PullCall N Row)
  fetch : FetchPc
  cancel : List (CancelCall N)
  log : List (N × Row)
  finished : Option (ℕ × ℕ)

def init (N Row : Type) : Sys N Row where
  submit := .idle
  gate := ⟨fun _ => false, ∅, 0, fun _ => [], fun _ => false, false, 0⟩
  node _ := Entry.empty
  fwd := []
  thread _ := .absent
  pull := []
  fetch := .idle
  cancel := []
  log := []
  finished := none

variable {N Query Row : Type} [DecidableEq N]

def Sys.setNode (s : Sys N Row) (n : N) (e : Entry Row) : Sys N Row :=
  { s with node := Function.update s.node n e }

def Sys.setThread (s : Sys N Row) (k : ℕ) (pc : ThreadPc) : Sys N Row :=
  { s with thread := Function.update s.thread k pc }

def Sys.setFwd (s : Sys N Row) (f : ℕ) (c : ForwardCall N) : Sys N Row :=
  { s with fwd := s.fwd.set f c }

def Sys.setPull (s : Sys N Row) (i : ℕ) (c : PullCall N Row) : Sys N Row :=
  { s with pull := s.pull.set i c }

def Sys.setCancel (s : Sys N Row) (j : ℕ) (c : CancelCall N) : Sys N Row :=
  { s with cancel := s.cancel.set j c }

def Sys.markDone (s : Sys N Row) (o : N) : Sys N Row :=
  { s with gate := { s.gate with
      clientProducersDone := Function.update s.gate.clientProducersDone o true } }

section Updates

variable (s : Sys N Row)

@[simp] lemma setNode_self (n : N) (e : Entry Row) : (s.setNode n e).node n = e := by
  simp [Sys.setNode]

lemma setNode_ne {n m : N} (h : n ≠ m) (e : Entry Row) : (s.setNode m e).node n = s.node n := by
  simp [Sys.setNode, h]

omit [DecidableEq N] in
@[simp] lemma setThread_self (k : ℕ) (pc : ThreadPc) : (s.setThread k pc).thread k = pc := by
  simp [Sys.setThread]

omit [DecidableEq N] in
lemma setThread_ne {k k' : ℕ} (h : k' ≠ k) (pc : ThreadPc) :
    (s.setThread k pc).thread k' = s.thread k' := by
  simp [Sys.setThread, h]

end Updates

/-- The error path of a prefetcher: its owner is given up. -/
def Sys.failThread (s : Sys N Row) (k : ℕ) (o : N) : Sys N Row :=
  { (s.markDone o).setThread k .returned with
    gate := { (s.markDone o).gate with
      prefetchDone := Function.update s.gate.prefetchDone o true } }

def Sys.gotChunk (s : Sys N Row) (k : ℕ) (o : N) (out : List Row) (isLast : Bool) : Sys N Row :=
  { s.setThread k (if isLast then .returned else .waiting) with
    gate := { s.gate with
      ownersResponded := insert o s.gate.ownersResponded
      prefetchBuf := Function.update s.gate.prefetchBuf o (s.gate.prefetchBuf o ++ out)
      prefetchDone :=
        if isLast then Function.update s.gate.prefetchDone o true else s.gate.prefetchDone } }

def Sys.stopPrefetch (s : Sys N Row) : Sys N Row :=
  { s with gate := { s.gate with prefetchStop := true } }

def Sys.clearSlots (s : Sys N Row) : Sys N Row :=
  { s with gate := { s.gate with prefetchBuf := fun _ => [] } }

variable (c : Config N Query Row) (q : Query)

/-- The gateway's own state of the request; `SubmitQuery` registers it, once. -/
def Sys.self (s : Sys N Row) : RequestState Row := (s.node c.gateway).obj 0

/-! ### SubmitQuery and ForwardQuery -/

inductive SubmitAct
  | register
  | mark
  | next
  | answered
  | failed (code : StatusCode)
  | relayFailed
  | spawn
  deriving DecidableEq

/-- The owners that are not eligible are done from the start, and the gateway, which drains
its own rows, has responded. -/
def Sys.marked (s : Sys N Row) : Sys N Row :=
  { s with gate := { s.gate with
      clientProducersDone := fun o =>
        if o ∈ c.overlay.dataOwners then decide (o ∉ c.eligible q)
        else s.gate.clientProducersDone o
      eligibleOwners := (c.eligible q).length
      ownersResponded :=
        if c.gateway ∈ c.eligible q then insert c.gateway s.gate.ownersResponded
        else s.gate.ownersResponded } }

/-- The retry loop goes on after a transient failure, or ends without `delivered`. -/
def afterFailure (s : Sys N Row) (k : ℕ) (o : N) (attempt : ℕ) (code : StatusCode) : Sys N Row :=
  if (code = .unavailable ∨ code = .deadlineExceeded) ∧ attempt + 1 < 20 then
    { s with submit := .forwarding k (attempt + 1) }
  else { s.markDone o with submit := .forwarding (k + 1) 0 }

def submitStep (s : Sys N Row) : SubmitAct → Option (Sys N Row)
  | .register =>
    if s.submit = .idle then
      if c.overlay.role c.gateway = .gateway then
        some { s.setNode c.gateway
          (registerRequest (c.shard c.gateway) q 1 (s.node c.gateway)) with submit := .registered }
      else some { s with submit := .failed }
    else none
  | .mark =>
    if s.submit = .registered then some { s.marked c q with submit := .forwarding 0 0 } else none
  | .next =>
    match s.submit with
    | .forwarding k attempt =>
      match (c.eligible q)[k]? with
      | none => some { s with submit := .spawning 0 }
      | some o =>
        if o = c.gateway then some { s with submit := .forwarding (k + 1) 0 }
        else
          match c.overlay.nextHop c.gateway o with
          | .error _ => some { s with submit := .failed }
          | .ok hop =>
            if c.overlay.hasNode hop then
              some { s with
                submit := .awaiting k attempt s.fwd.length
                fwd := s.fwd ++ [⟨o, false, .at hop 8⟩] }
            else some { s with submit := .failed }
    | _ => none
  | .answered =>
    match s.submit with
    | .awaiting k attempt f =>
      match s.fwd[f]? with
      | some ⟨o, _, .answered code⟩ =>
        if code = .ok then some { s with submit := .forwarding (k + 1) 0 }
        else some (afterFailure s k o attempt code)
      | _ => none
    | _ => none
  | .failed code =>
    -- the call of the gateway itself fails
    match s.submit with
    | .awaiting k attempt f =>
      match s.fwd[f]? with
      | some ⟨o, _, _⟩ => if code = .ok then none else some (afterFailure s k o attempt code)
      | none => none
    | _ => none
  | .relayFailed =>
    -- a call behind the first hop fails: the answer of its relay has the status OK
    match s.submit with
    | .awaiting k _ f =>
      match s.fwd[f]? with
      | some ⟨_, true, _⟩ => some { s with submit := .forwarding (k + 1) 0 }
      | _ => none
    | _ => none
  | .spawn =>
    match s.submit with
    | .spawning k =>
      match (c.eligible q)[k]? with
      | none => some { s with submit := .returned }
      | some o =>
        if o = c.gateway ∨ s.gate.clientProducersDone o = true then
          some { s with submit := .spawning (k + 1) }
        else some { s.setThread k .starting with submit := .spawning (k + 1) }
    | _ => none

/-- `ForwardQuery` at the node the call has reached. -/
def forwardStep (s : Sys N Row) (f : ℕ) : Option (Sys N Row) :=
  match s.fwd[f]? with
  | some ⟨o, relayed, .at n ttl⟩ =>
    if ttl = 0 then some (s.setFwd f ⟨o, relayed, .answered .ok⟩)
    else
      match c.overlay.toward o n with
      | .here =>
        some ((s.setNode n (registerRequest (c.shard n) q 1 (s.node n))).setFwd f
          ⟨o, relayed, .answered .ok⟩)
      | .nowhere => some (s.setFwd f ⟨o, relayed, .answered .ok⟩)
      | .unknown _ =>
        some (s.setFwd f ⟨o, relayed, .answered (if relayed then .ok else .unknown)⟩)
      | .hop nh => some (s.setFwd f ⟨o, true, .at nh (ttl - 1)⟩)
  | _ => none

/-! ### The prefetchers and PullChunk -/

inductive PrefetchAct
  | start
  | issue
  | receive
  | failed (code : StatusCode)
  deriving DecidableEq

/-- What a prefetcher does with the outcome of its call. -/
def prefetchResult (s : Sys N Row) (k : ℕ) (o : N) (code : StatusCode) (out : List Row)
    (isLast : Bool) : Sys N Row :=
  if code = .ok then s.gotChunk k o out isLast
  else if code = .deadlineExceeded then s.setThread k .waiting
  else s.failThread k o

def prefetchStep (s : Sys N Row) (k : ℕ) (a : PrefetchAct) : Option (Sys N Row) :=
  match (c.eligible q)[k]? with
  | none => none
  | some o =>
    match s.thread k, a with
    | .starting, .start =>
      match c.overlay.nextHop c.gateway o with
      | .ok _ => some (s.setThread k .waiting)
      | .error _ => some (s.failThread k o)
    | .waiting, .issue =>
      if s.gate.prefetchStop = true ∨ (s.self c).cancelled = true then
        some (s.setThread k .returned)
      else if s.gate.prefetchBuf o = [] then
        if s.gate.prefetchDone o then some (s.setThread k .returned)
        else
          match c.overlay.nextHop c.gateway o with
          | .error _ => none
          | .ok hop =>
            some { s.setThread k (.pulling s.pull.length) with
              pull := s.pull ++ [⟨o, .at hop⟩] }
      else none
    | .pulling i, .receive =>
      match s.pull[i]? with
      | some ⟨_, .replied code out isLast⟩ => some (prefetchResult s k o code out isLast)
      | _ => none
    | .pulling _, .failed code =>
      if code = .ok then none else some (prefetchResult s k o code [] false)
    | _, _ => none

inductive PullAct
  | handle
  | pop (maxRows : ℤ)
  | load
  | decide
  | reply
  | unschedule
  deriving DecidableEq

def serves (impl : Impl) (sh : Shard Query Row) : Bool :=
  match impl with
  | .cpp => sh.size ≠ 0
  | .python => sh.loaded

/-- `PullChunk` at the node the call has reached. -/
def pullStep (s : Sys N Row) (i : ℕ) (a : PullAct) : Option (Sys N Row) :=
  match s.pull[i]? with
  | none => none
  | some ⟨o, stage⟩ =>
    match stage, a with
    | .at n, .handle =>
      match c.overlay.toward o n with
      | .hop nh => some (s.setPull i ⟨o, .at nh⟩)
      | .nowhere => some (s.setPull i ⟨o, .replied .notFound [] false⟩)
      | .unknown _ => some (s.setPull i ⟨o, .replied .unknown [] false⟩)
      | .here =>
        match (s.node o).table with
        | none => some (s.setPull i ⟨o, .replied .notFound [] false⟩)
        | some g =>
          if serves (c.overlay.impl o) (c.shard o) then some (s.setPull i ⟨o, .found g⟩)
          else some (s.setPull i ⟨o, .replied .notFound [] false⟩)
    | .found g, .pop maxRows =>
      some ((s.setNode o ((s.node o).pop g maxRows.toNat)).setPull i
        ⟨o, .popped g (((s.node o).obj g).matched.take maxRows.toNat)⟩)
    | .popped g out, .load =>
      some (s.setPull i ⟨o, .loaded g out ((s.node o).obj g).doneProducing⟩)
    | .loaded g out doneProd, .decide =>
      some (s.setPull i ⟨o, .decided g out
        (doneProd && ((s.node o).obj g).matched.isEmpty && out.isEmpty)⟩)
    | .decided _ out isLast, .reply =>
      if isLast then
        match c.overlay.impl o with
        | .cpp =>
          some ((s.setNode o (dropRequest (s.node o))).setPull i ⟨o, .replied .ok out true⟩)
        | .python => some ((s.setNode o (s.node o).erase).setPull i ⟨o, .dropping out⟩)
      else some (s.setPull i ⟨o, .replied .ok out false⟩)
    | .dropping out, .unschedule =>
      some ((s.setNode o (s.node o).unschedule).setPull i ⟨o, .replied .ok out true⟩)
    | _, _ => none

/-! ### FetchChunk -/

inductive FetchAct
  | start
  | drain (maxRows : ℤ)
  | count
  | erase
  | finish
  deriving DecidableEq

/-- The self partition and the prefetched slots, as the drain goes through them. -/
def sources : List N :=
  c.gateway :: c.overlay.dataOwners.filter fun o => o ≠ c.gateway

def Sys.slots (s : Sys N Row) (o : N) : List Row :=
  if o = c.gateway then (s.self c).matched else s.gate.prefetchBuf o

def Sys.haveData (s : Sys N Row) : Bool := (sources c).any fun o => !(s.slots c o).isEmpty

def Sys.allDrained (s : Sys N Row) : Bool :=
  (s.self c).doneProducing && (s.self c).matched.isEmpty &&
    c.overlay.dataOwners.all fun o =>
      o = c.gateway || s.gate.clientProducersDone o ||
        (s.gate.prefetchDone o && (s.gate.prefetchBuf o).isEmpty)

/-- The locked part of `FetchChunk`: the drain, and the promotion of the drained owners. -/
def drainStep (s : Sys N Row) (maxRows : ℤ) : Sys N Row :=
  let d := drain maxRows (sources c) (s.slots c)
  let self := { s.self c with matched := d.queue c.gateway }
  { s.setNode c.gateway ((s.node c.gateway).setObj 0 self) with
    gate := { s.gate with
      prefetchBuf := fun o => if o = c.gateway then s.gate.prefetchBuf o else d.queue o
      totalMatched := s.gate.totalMatched + d.taken.length
      clientProducersDone := fun o =>
        if o = c.gateway then
          s.gate.clientProducersDone o || (self.doneProducing && self.matched.isEmpty)
        else if o ∈ c.overlay.dataOwners then
          s.gate.clientProducersDone o || (s.gate.prefetchDone o && (d.queue o).isEmpty)
        else s.gate.clientProducersDone o }
    log := s.log ++ d.taken }

def Sys.allDone (s : Sys N Row) : Bool :=
  c.overlay.dataOwners.all s.gate.clientProducersDone

def Sys.joined (s : Sys N Row) : Prop :=
  ∀ k < (c.eligible q).length, s.thread k = .absent ∨ s.thread k = .returned

instance (s : Sys N Row) : Decidable (s.joined c q) :=
  inferInstanceAs (Decidable (∀ k < (c.eligible q).length, _))

def fetchStep (s : Sys N Row) : FetchAct → Option (Sys N Row)
  | .start =>
    if s.fetch = .idle ∧ c.overlay.role c.gateway = .gateway ∧
        (s.node c.gateway).table.isSome = true then some { s with fetch := .entered }
    else none
  | .drain maxRows =>
    if s.fetch = .entered ∧
        ((s.self c).cancelled = true ∨ s.haveData c = true ∨ s.allDrained c = true) then
      let s' := drainStep c s maxRows
      some { s' with fetch := if s'.allDone c then .drained else .idle }
    else none
  | .count =>
    if s.fetch = .drained then
      some { s with fetch := .counted s.gate.ownersResponded.card s.gate.eligibleOwners }
    else none
  | .erase =>
    match s.fetch with
    | .counted hit eligible =>
      let s' := s.setNode c.gateway (dropRequest (s.node c.gateway))
      if (s.node c.gateway).table.isSome then
        some { s'.stopPrefetch with fetch := .joining hit eligible }
      else some { s' with fetch := .idle, finished := some (hit, eligible) }
    | _ => none
  | .finish =>
    match s.fetch with
    | .joining hit eligible =>
      if s.joined c q then some { s with fetch := .idle, finished := some (hit, eligible) }
      else none
    | _ => none

/-! ### CancelQuery -/

inductive CancelAct
  | find
  | flag
  | clear
  | send
  | resume
  | giveUp
  | erase
  | unschedule
  | finish
  deriving DecidableEq

/-- `CancelQuery` at its node. Only a gateway passes it on, to its next hop toward every other
owner; a C++ gateway leaves itself out. -/
def cancelStep (s : Sys N Row) (j : ℕ) (a : CancelAct) : Option (Sys N Row) :=
  match s.cancel[j]? with
  | none => none
  | some ⟨n, stage⟩ =>
    match stage, a with
    | .start, .find =>
      match (s.node n).table with
      | none => some (s.setCancel j ⟨n, .done false⟩)
      | some g => some (s.setCancel j ⟨n, .found g⟩)
    | .found g, .flag =>
      let s' := (s.setNode n ((s.node n).flag g)).setCancel j ⟨n, .flagged g⟩
      some (if n = c.gateway then s'.stopPrefetch else s')
    | .flagged g, .clear =>
      let s' := (s.setNode n ((s.node n).clear g)).setCancel j
        ⟨n, if c.overlay.role n = .gateway then .fanout 0 else .erasing⟩
      some (if n = c.gateway then s'.clearSlots else s')
    | .fanout k, .send =>
      match c.overlay.dataOwners[k]? with
      | none => some (s.setCancel j ⟨n, .erasing⟩)
      | some o =>
        if o = n ∧ c.overlay.impl n = .cpp then some (s.setCancel j ⟨n, .fanout (k + 1)⟩)
        else
          match c.overlay.nextHop n o with
          | .error _ => some (s.setCancel j ⟨n, .failed⟩)
          | .ok hop =>
            if c.overlay.hasNode hop then
              let s' := s.setCancel j ⟨n, .awaiting k s.cancel.length⟩
              some { s' with cancel := s'.cancel ++ [⟨hop, .start⟩] }
            else some (s.setCancel j ⟨n, .failed⟩)
    | .awaiting k child, .resume =>
      match s.cancel[child]? with
      | some ⟨_, .done _⟩ => some (s.setCancel j ⟨n, .fanout (k + 1)⟩)
      | _ => none
    | .awaiting k _, .giveUp => some (s.setCancel j ⟨n, .fanout (k + 1)⟩)
    | .erasing, .erase =>
      match c.overlay.impl n with
      | .cpp =>
        let s' := s.setNode n (dropRequest (s.node n))
        if n = c.gateway ∧ (s.node n).table.isSome = true then
          some (s'.stopPrefetch.setCancel j ⟨n, .joining⟩)
        else some (s'.setCancel j ⟨n, .done true⟩)
      | .python => some ((s.setNode n (s.node n).erase).setCancel j ⟨n, .dropping⟩)
    | .dropping, .unschedule =>
      some ((s.setNode n (s.node n).unschedule).setCancel j ⟨n, .done true⟩)
    | .joining, .finish =>
      if s.joined c q then some (s.setCancel j ⟨n, .done true⟩) else none
    | _, _ => none

/-! ### The system -/

inductive Act (N : Type)
  | submit (a : SubmitAct)
  | forward (f : ℕ)
  | produce (n : N) (a : ProdAct)
  | prefetch (k : ℕ) (a : PrefetchAct)
  | pull (i : ℕ) (a : PullAct)
  | fetch (a : FetchAct)
  | cancelQuery
  | cancel (j : ℕ) (a : CancelAct)
  deriving DecidableEq

def step (s : Sys N Row) : Act N → Option (Sys N Row)
  | .submit a => submitStep c q s a
  | .forward f => forwardStep c q s f
  | .produce n a =>
    (prodStep (c.shard n) (c.overlay.impl n) c.overlay.maxRows (s.node n) a).map (s.setNode n)
  | .prefetch k a => prefetchStep c q s k a
  | .pull i a => pullStep c s i a
  | .fetch a => fetchStep c q s a
  | .cancelQuery => some { s with cancel := s.cancel ++ [⟨c.gateway, .start⟩] }
  | .cancel j a => cancelStep c q s j a

/-! ### Runs along a chain of two -/

/-- An owner next to the gateway with two rows. -/
def twoRows : Config ℕ Unit ℕ := chainConfig 2 [1] fun o => if o = 1 then 2 else 0

/-- `SubmitQuery` for the owner next to the gateway, listed `n` times. -/
def submitted (n : ℕ) : List (Act ℕ) :=
  [.submit .register, .submit .mark] ++
    (List.range n).flatMap (fun f => [.submit .next, .forward f, .submit .answered]) ++
    [.submit .next] ++ List.replicate (n + 1) (.submit .spawn)

/-- The producer of node `o` makes `rows` rows and is done. -/
def produced (o rows : ℕ) : List (Act ℕ) :=
  [.produce o .pick, .produce o .get, .produce o .check, .produce o .room] ++
    (List.replicate rows [.produce o .test, .produce o .push]).flatten ++
    [.produce o .test, .produce o .finish]

/-- The owner next to the gateway serves call `i`. -/
def servedCall (i : ℕ) (maxRows : ℤ) : List (Act ℕ) :=
  [.pull i .handle, .pull i (.pop maxRows), .pull i .load, .pull i .decide, .pull i .reply]

/-- A `FetchChunk`, and one that ends the stream. -/
def fetched : List (Act ℕ) := [.fetch .start, .fetch (.drain 10)]

def fetchedLast : List (Act ℕ) := fetched ++ [.fetch .count, .fetch .erase, .fetch .finish]

/-- The producer of a gateway without rows is done at once. -/
def nothingProduced : List (Act ℕ) := [.produce 0 .pick, .produce 0 .get, .produce 0 .check]

/-- Two prefetchers of one owner, and the first of them gets its reply last. -/
def overtaken : List (Act ℕ) :=
  submitted 2 ++ produced 1 2 ++
    [.prefetch 0 .start, .prefetch 0 .issue, .prefetch 1 .start, .prefetch 1 .issue] ++
    servedCall 0 1 ++ servedCall 1 1 ++
    [.prefetch 1 .receive, .prefetch 0 .receive] ++ fetched

end Mini2.Gather
