import Mini2.Gather
import Mini2.Lib.Runs

/-!
A running overlay: any number of requests at once, over the partitions of the data owners. A
node keeps a state of its own for every request, and its producer thread works on one request
at a time.
-/

namespace Mini2.Cluster

open Mini2.Proto Mini2.Store Mini2.Net Mini2.Request Mini2.Gather Mini2.Runs

/-- The overlay with the partitions that are there when it starts, and the smart routing of
its gateway. -/
structure Deployment (N : Type) where
  overlay : Overlay N
  gateway : N
  partition : N → Option Loaded
  eligible : Query → List N
  eligible_sublist : ∀ q, (eligible q).Sublist overlay.dataOwners

variable {N Rid : Type} [DecidableEq N] [DecidableEq Rid]

/-- What a node serves from; only a data owner loads a partition. -/
def Deployment.shard (D : Deployment N) (n : N) : Shard Query TaxiRow :=
  if n ∈ D.overlay.dataOwners then
    match D.partition n with
    | some ld => shardOf ld
    | none => .none ((PartitionStore.ofRows []).fill 0)
  else .none ((PartitionStore.ofRows []).fill 0)

def Deployment.config (D : Deployment N) : Config N Query TaxiRow where
  overlay := D.overlay
  gateway := D.gateway
  shard := D.shard
  eligible := D.eligible
  eligible_sublist := D.eligible_sublist

def Deployment.answer (D : Deployment N) (q : Query) (n : N) : List TaxiRow :=
  if n ∈ D.overlay.dataOwners then
    match D.partition n with
    | some ld => ld.store.rows.filter (satisfies q)
    | none => []
  else []

lemma matchRows_shard (D : Deployment N) (q : Query) (n : N) :
    (D.shard n).matchRows q = D.answer q n := by
  unfold Deployment.shard Deployment.answer
  split
  · cases D.partition n with
    | some ld => exact matchRows_shardOf ld q
    | none => rfl
  · rfl

lemma mem_of_answer {D : Deployment N} {q : Query} {n : N} (h : D.answer q n ≠ []) :
    n ∈ D.overlay.dataOwners := by
  by_contra hn
  exact h (if_neg hn)

/-- The states of all requests, and the request the producer of each node works on. -/
structure Requests (N Rid : Type) where
  request : Rid → Sys N TaxiRow
  busy : N → Option Rid

def Requests.init (N Rid : Type) : Requests N Rid := ⟨fun _ => Gather.init N TaxiRow, fun _ => none⟩

/-- The request a producer has when it takes the step. -/
def holds (rid : Rid) (a : Producer.ProdAct) : Option Rid := if a = .pick then none else some rid

def step (D : Deployment N) (query : Rid → Query) (R : Requests N Rid) :
    Rid × Act N → Option (Requests N Rid)
  | (rid, .produce n a) =>
    -- the producer takes up any request of its list when it is free (which one, its scheduler
    -- decides), and goes on with the one it has
    if R.busy n = holds rid a then
      (Gather.step D.config (query rid) (R.request rid) (.produce n a)).map fun s =>
        { request := Function.update R.request rid s
          busy := Function.update R.busy n
            (if (s.node n).producer = .idle then none else some rid) }
    else none
  | (rid, a) => (Gather.step D.config (query rid) (R.request rid) a).map fun s =>
      { R with request := Function.update R.request rid s }

/-- The same step where each request has a configuration of its own. -/
def stepOf (c : Rid → Config N Query TaxiRow) (query : Rid → Query) (R : Requests N Rid) :
    Rid × Act N → Option (Requests N Rid)
  | (rid, .produce n a) =>
    if R.busy n = holds rid a then
      (Gather.step (c rid) (query rid) (R.request rid) (.produce n a)).map fun s =>
        { request := Function.update R.request rid s
          busy := Function.update R.busy n
            (if (s.node n).producer = .idle then none else some rid) }
    else none
  | (rid, a) => (Gather.step (c rid) (query rid) (R.request rid) a).map fun s =>
      { R with request := Function.update R.request rid s }

variable {D : Deployment N} {c : Rid → Config N Query TaxiRow} {query : Rid → Query}
  {R R' : Requests N Rid}

lemma step_eq : step D query = stepOf (fun _ => D.config) query := rfl

lemma request_stepOf {rid : Rid} {a : Act N} (h : stepOf c query R (rid, a) = some R') :
    ∃ s, Gather.step (c rid) (query rid) (R.request rid) a = some s ∧
      R'.request = Function.update R.request rid s := by
  unfold stepOf at h
  split at h
  next heq =>
    obtain ⟨rfl, rfl⟩ := Prod.mk.inj heq
    split at h
    next =>
      obtain ⟨s, hs, rfl⟩ := Option.map_eq_some_iff.mp h
      exact ⟨s, hs, rfl⟩
    next => cases h
  next heq =>
    obtain ⟨rfl, rfl⟩ := Prod.mk.inj heq
    obtain ⟨s, hs, rfl⟩ := Option.map_eq_some_iff.mp h
    exact ⟨s, hs, rfl⟩

lemma request_step {rid : Rid} {a : Act N} (h : step D query R (rid, a) = some R') :
    ∃ s, Gather.step D.config (query rid) (R.request rid) a = some s ∧
      R'.request = Function.update R.request rid s := request_stepOf h

/-- **A run of the cluster is a run of each of its requests.** -/
theorem request_reachOf {G : Act N → Prop}
    (h : Reach (stepOf c query) (fun _ a => G a.2) (Requests.init N Rid) R) (rid : Rid) :
    Reach (Gather.step (c rid) (query rid)) (fun _ a => G a) (Gather.init N TaxiRow)
      (R.request rid) :=
  h.component (fun R => R.request) (fun rid => Gather.step (c rid) (query rid)) (fun _ _ a => G a)
    (fun _ a _ _ hg hst => ⟨a.1, a.2, hg, request_stepOf hst⟩) rid

theorem request_reach {G : Act N → Prop}
    (h : Reach (step D query) (fun _ a => G a.2) (Requests.init N Rid) R) (rid : Rid) :
    Reach (Gather.step D.config (query rid)) (fun _ a => G a) (Gather.init N TaxiRow)
      (R.request rid) := request_reachOf h rid

end Mini2.Cluster
