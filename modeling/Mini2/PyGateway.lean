import Mini2.Forwarded

/-!
A gateway that runs the Python node. It asks all data owners, itself among them, over RPC and one
after the other while a `FetchChunk` is under way, and gathers their rows in one buffer.

The gateway and the owner are one node, so both have one entry for the request: what the owner
part drops is gone for the gateway too.
-/

namespace Mini2.PyGateway

open Mini2.Proto Mini2.Net Mini2.Request Mini2.Producer Mini2.Gather

variable {N Query Row : Type}

/-- Where `FetchChunk` stands: at the owners that are left of its round, or waiting for the answer
of one of them, or in the `_drop` of its last chunk. -/
inductive PyFetch (N : Type)
  | idle
  | round (g maxRows : ℕ) (rest : List N)
  | pulling (g maxRows : ℕ) (o : N) (rest : List N) (i : ℕ)
  | dropping
  deriving DecidableEq

/-- The state of one request. Of `sys` a Python gateway has `SubmitQuery`'s place, its forwards,
`client_producers_done`, the nodes' entries, the calls and what the client has been sent; `buffer`
is `client_buffer`, each row with its owner. `ended` says that the client has got the last chunk,
and `failed` how a `FetchChunk` before that has ended without one. -/
structure PySys (N Row : Type) where
  sys : Sys N Row
  buffer : List (N × Row)
  fetch : PyFetch N
  ended : Bool
  failed : Option StatusCode

def pyInit (N Row : Type) : PySys N Row := ⟨init N Row, [], .idle, false, none⟩

inductive PySubmitAct | register | mark | next | answered | failed | relayFailed
  deriving DecidableEq

inductive PyFetchAct
  | start (t₁ t₂ : ℕ) (maxRows : ℤ)
  | next (late : Bool)
  | receive
  | failed
  | emit
  | unschedule
  deriving DecidableEq

inductive PyAct (N : Type)
  | submit (a : PySubmitAct)
  | forward (f : ℕ)
  | produce (n : N) (a : ProdAct)
  | pull (i : ℕ) (a : PullAct)
  | fetch (a : PyFetchAct)
  deriving DecidableEq

/-- The data owners in the order of this call; the clock is read twice. -/
def rotated (owners : List N) (t₁ t₂ : ℕ) : List N :=
  owners.drop (t₁ % owners.length) ++ owners.take (t₂ % owners.length)

/-- A `FetchChunk` ends without a chunk. -/
def PySys.fail (x : PySys N Row) (code : StatusCode) : PySys N Row :=
  { x with fetch := .idle, failed := if x.ended then x.failed else some code }

variable [DecidableEq N] (c : Config N Query Row) (q : Query)

def unmark (s : Sys N Row) : Sys N Row :=
  { s with gate := { s.gate with
      clientProducersDone := fun o =>
        if o ∈ c.overlay.dataOwners then false else s.gate.clientProducersDone o } }

/-- `SubmitQuery` makes one attempt for each owner. -/
def pySubmitStep (s : Sys N Row) : PySubmitAct → Option (Sys N Row)
  | .register =>
    if s.submit = .idle then
      if c.overlay.role c.gateway = .gateway then
        some { s.setNode c.gateway
          (registerRequest (c.shard c.gateway) q 1 (s.node c.gateway)) with submit := .registered }
      else some { s with submit := .failed }
    else none
  | .mark =>
    if s.submit = .registered then some { unmark c s with submit := .forwarding 0 0 } else none
  | .next =>
    match s.submit with
    | .forwarding k attempt =>
      match c.overlay.dataOwners[k]? with
      | none => some { s with submit := .returned }
      | some o =>
        if o = c.gateway then some { s with submit := .forwarding (k + 1) 0 }
        else
          match c.overlay.nextHop c.gateway o with
          | .error _ => some { s with submit := .failed }
          | .ok hop =>
            if c.overlay.hasNode hop then
              some { s with
                submit := .awaiting k attempt s.fwd.length
                fwd := s.fwd ++ [⟨o, false, .at hop 8⟩] }
            else some { s with submit := .failed }
    | _ => none
  | .answered =>
    match s.submit with
    | .awaiting k _ f =>
      match s.fwd[f]? with
      | some ⟨o, _, .answered code⟩ =>
        if code = .ok then some { s with submit := .forwarding (k + 1) 0 }
        else some { s.markDone o with submit := .forwarding (k + 1) 0 }
      | _ => none
    | _ => none
  | .failed =>
    match s.submit with
    | .awaiting k _ f =>
      match s.fwd[f]? with
      | some ⟨o, _, _⟩ => some { s.markDone o with submit := .forwarding (k + 1) 0 }
      | none => none
    | _ => none
  | .relayFailed =>
    match s.submit with
    | .awaiting k _ f =>
      match s.fwd[f]? with
      | some ⟨_, true, _⟩ => some { s with submit := .forwarding (k + 1) 0 }
      | _ => none
    | _ => none

def othersDone (s : Sys N Row) : Bool :=
  c.overlay.dataOwners.all fun o => o = c.gateway || s.gate.clientProducersDone o

/-- The round goes on with the next owner that is not done, or ends. -/
def pyNext (x : PySys N Row) (late : Bool) (g maxRows : ℕ) (o : N) (rest : List N) :
    PySys N Row :=
  if ((x.sys.node c.gateway).obj g).cancelled then { x with fetch := .round g maxRows [] }
  else if maxRows ≤ x.buffer.length then { x with fetch := .round g maxRows [] }
  else if x.sys.gate.clientProducersDone o then { x with fetch := .round g maxRows rest }
  else if late then { x with fetch := .round g maxRows [] }
  else
    match c.overlay.nextHop c.gateway o with
    | .error _ => x.fail .unknown
    | .ok hop =>
      if c.overlay.hasNode hop then
        { x with
          sys := { x.sys with pull := x.sys.pull ++ [⟨o, .at hop⟩] }
          fetch := .pulling g maxRows o rest x.sys.pull.length }
      else x.fail .unknown

def pyFetchStep (x : PySys N Row) : PyFetchAct → Option (PySys N Row)
  | .start t₁ t₂ maxRows =>
    if x.fetch = .idle ∧ c.overlay.role c.gateway = .gateway then
      match (x.sys.node c.gateway).table with
      | none => some (x.fail .notFound)
      | some g =>
        if c.overlay.dataOwners = [] then some (x.fail .unknown)
        else some { x with
          fetch := .round g maxRows.toNat (rotated c.overlay.dataOwners t₁ t₂) }
    else none
  | .next late =>
    match x.fetch with
    | .round g maxRows (o :: rest) => some (pyNext c x late g maxRows o rest)
    | _ => none
  | .receive =>
    match x.fetch with
    | .pulling g maxRows o rest i =>
      match x.sys.pull[i]? with
      | some ⟨_, .replied code out isLast⟩ =>
        if code = .ok then
          some { x with
            sys := if isLast then x.sys.markDone o else x.sys
            buffer := x.buffer ++ out.map (o, ·)
            fetch := .round g maxRows rest }
        else some { x with sys := x.sys.markDone o, fetch := .round g maxRows rest }
      | _ => none
    | _ => none
  | .failed =>
    match x.fetch with
    | .pulling g maxRows o rest _ =>
      some { x with sys := x.sys.markDone o, fetch := .round g maxRows rest }
    | _ => none
  | .emit =>
    match x.fetch with
    | .round _ maxRows [] =>
      let out := x.buffer.take maxRows
      let buffer := x.buffer.drop maxRows
      let s := { x.sys with log := x.sys.log ++ out }
      if othersDone c x.sys && buffer.isEmpty && out.isEmpty then
        some { x with
          sys := s.setNode c.gateway (s.node c.gateway).erase
          buffer := buffer
          fetch := .dropping }
      else some { x with sys := s, buffer := buffer, fetch := .idle }
    | _ => none
  | .unschedule =>
    if x.fetch = .dropping then
      some { x with
        sys := x.sys.setNode c.gateway (x.sys.node c.gateway).unschedule
        fetch := .idle
        ended := true }
    else none

def pyStep (x : PySys N Row) : PyAct N → Option (PySys N Row)
  | .submit a => (pySubmitStep c q x.sys a).map fun s => { x with sys := s }
  | .forward f => (forwardStep c q x.sys f).map fun s => { x with sys := s }
  | .produce n a =>
    (prodStep (c.shard n) (c.overlay.impl n) c.overlay.maxRows (x.sys.node n) a).map fun e =>
      { x with sys := x.sys.setNode n e }
  | .pull i a => (pullStep c x.sys i a).map fun s => { x with sys := s }
  | .fetch a => pyFetchStep c x a

/-- A request to a Python gateway along a chain whose node `o` lists the rows `0`, …,
`size o - 1` for it. -/
def pyChain (n : ℕ) (dataOwners : List ℕ) (size : ℕ → ℕ) : Config ℕ Unit ℕ :=
  { chainConfig n dataOwners size with
    overlay := { Overlay.chain n dataOwners with
      nodes := (List.range n).map fun i => (i, ⟨if i = 0 then .gateway else .peer, .python⟩) }
    eligible_sublist := fun _ => List.Sublist.refl _ }

end Mini2.PyGateway
