import Mini2.ExactlyOnce
import Mini2.PyEnding

/-!
The client of a Python gateway that is no data owner. No partition of its own can take the request
out of the table or be forgotten: the client gets every matching row once, in the order of its
owner, and no error before the last chunk.
-/

namespace Mini2.PyClient

open Mini2.Proto Mini2.Net Mini2.Request Mini2.Producer Mini2.Gather Mini2.GatherSteps
open Mini2.GatherShape Mini2.RoundRobin Mini2.Runs Mini2.Lane Mini2.PyGateway Mini2.PySteps
open Mini2.PyLane Mini2.PyEnding Mini2.ExactlyOnce

variable {N Query Row : Type} [DecidableEq N]

/-- Every row that has been taken in is of a data owner. -/
def Known (c : Config N Query Row) (x : PySys N Row) : Prop :=
  ∀ p ∈ x.sys.log ++ x.buffer, p.1 ∈ c.overlay.dataOwners

variable {c : Config N Query Row} {q : Query} {x x' : PySys N Row} {s' : Sys N Row}

/-! ### One step -/

lemma known_fetch {a : PyFetchAct} (h : PyShape c q x) (hk : Known c x)
    (hst : PyFetches c x a x') : Known c x' := by
  cases hst with
  | @receive g m i o o' rest out isLast hf =>
    have hmem := (h.waits o i ⟨g, m, rest, hf⟩).1
    intro p hp
    have hlog : (if isLast then x.sys.markDone o else x.sys).log = x.sys.log := by
      cases isLast <;> rfl
    have hp' : p ∈ x.sys.log ++ (x.buffer ++ out.map (o, ·)) := hlog ▸ hp
    rw [← List.append_assoc] at hp'
    rcases List.mem_append.mp hp' with hold | hnew
    · exact hk p hold
    · obtain ⟨r, -, rfl⟩ := List.mem_map.mp hnew
      exact hmem
  | @emit g m =>
    intro p hp
    have hp' : p ∈ x.sys.log ++ x.buffer.take m ++ x.buffer.drop m := hp
    rw [List.append_assoc, List.take_append_drop] at hp'
    exact hk p hp'
  | _ => exact hk

lemma known_step {a : PyAct N} (h : PyShape c q x) (hk : Known c x)
    (hst : pyStep c q x a = some x') : Known c x' := by
  -- the other steps leave alone what has been taken in
  have hframe : ∀ {s' : Sys N Row}, s'.log = x.sys.log → Known c { x with sys := s' } := by
    intro s' hlog
    show ∀ p ∈ s'.log ++ x.buffer, _
    rw [hlog]
    exact hk
  cases a with
  | submit a =>
    obtain ⟨s', hs, rfl⟩ := Option.map_eq_some_iff.mp hst
    exact hframe (by cases pySubmits_of_step hs <;> rfl)
  | forward f =>
    obtain ⟨s', hs, rfl⟩ := Option.map_eq_some_iff.mp hst
    exact hframe (by cases forwards_of_step hs <;> rfl)
  | produce n a =>
    obtain ⟨e, he, rfl⟩ := Option.map_eq_some_iff.mp hst
    exact hframe rfl
  | pull i a =>
    obtain ⟨s', hs, rfl⟩ := Option.map_eq_some_iff.mp hst
    exact hframe (by rw [pulls_frame (pulls_of_step hs)])
  | fetch a => exact known_fetch h hk (pyFetches_of_step hst)

/-! ### One request -/

structure Client (c : Config N Query Row) (q : Query) (x : PySys N Row) : Prop where
  shape : PyShape c q x
  known : Known c x
  goes : Open c q x ∨ Over c q x

lemma client_of_reach (hg : c.gateway ∉ c.overlay.dataOwners) (hown : c.overlay.dataOwners ≠ [])
    (hserved : ∀ o ∈ c.overlay.dataOwners, (c.shard o).matchRows q ≠ [] → Served c o)
    (hx : Reach (pyStep c q) Reliable (pyInit N Row) x) : Client c q x := by
  refine hx.invariant ⟨shape_init, fun p hp => (List.not_mem_nil hp).elim, .inl open_init⟩ ?_
  rintro x a x' - ⟨h, hk, ho⟩ hr hst
  have hc := careful_of_apart hg h hst
  refine ⟨shape_step h hr hst, known_step h hk hst, ?_⟩
  rcases ho with ho | hov
  · exact open_step h ho hr hc hst hown (fun hmem => absurd hmem hg) hserved
  · exact .inr (over_step h hov hr hst hown)

lemma Client.isPrefix (h : Client c q x) (o : N) :
    itemsOf x.sys.log o <+: (c.shard o).matchRows q := by
  by_cases ho : o ∈ c.overlay.dataOwners
  case neg =>
    have hnil : itemsOf x.sys.log o = [] := by
      refine List.map_eq_nil_iff.mpr (List.filter_eq_nil_iff.mpr fun p hp => ?_)
      have hmem := h.known p (List.mem_append_left _ hp)
      simpa using fun heq : p.1 = o => ho (heq ▸ hmem)
    rw [hnil]
    exact List.nil_prefix
  rcases h.goes with hopen | hov
  · obtain ⟨v, hseen, hsound, honce⟩ := hopen.lanes o ho
    have hitems : itemsOf x.sys.log o <+: itemsOf (x.sys.log ++ x.buffer) o := by
      rw [itemsOf_append]
      exact List.prefix_append _ _
    rw [← hseen.log] at hitems
    exact hitems.trans (log_isPrefix_of_lane honce hsound)
  · rw [hov.rows o ho]

lemma Client.eq_of_ended (h : Client c q x) (he : x.ended = true) {o : N}
    (ho : o ∈ c.overlay.dataOwners) : itemsOf x.sys.log o = (c.shard o).matchRows q := by
  rcases h.goes with hopen | hov
  · rw [hopen.ended] at he
    cases he
  · exact hov.rows o ho

lemma Client.failed_eq (h : Client c q x) : x.failed = none := by
  rcases h.goes with hopen | hov
  · exact hopen.failed
  · exact hov.failed

/-! ### All requests -/

variable {Rid : Type} [DecidableEq Rid]

/-- The states of all requests, and the request the producer of each node works on. -/
structure PyRequests (N Rid : Type) where
  request : Rid → PySys N TaxiRow
  busy : N → Option Rid

def PyRequests.init (N Rid : Type) : PyRequests N Rid := ⟨fun _ => pyInit N TaxiRow, fun _ => none⟩

/-- A step of one request to a Python gateway. -/
def pyStepOf (c : Rid → Config N Proto.Query TaxiRow) (query : Rid → Proto.Query)
    (R : PyRequests N Rid) : Rid × PyAct N → Option (PyRequests N Rid)
  | (rid, .produce n a) =>
    if R.busy n = Cluster.holds rid a then
      (pyStep (c rid) (query rid) (R.request rid) (.produce n a)).map fun x =>
        { request := Function.update R.request rid x
          busy := Function.update R.busy n
            (if (x.sys.node n).producer = .idle then none else some rid) }
    else none
  | (rid, a) => (pyStep (c rid) (query rid) (R.request rid) a).map fun x =>
      { R with request := Function.update R.request rid x }

variable {cs : Rid → Config N Proto.Query TaxiRow} {query : Rid → Proto.Query}
  {R R' : PyRequests N Rid}

lemma request_pyStepOf {rid : Rid} {a : PyAct N} (h : pyStepOf cs query R (rid, a) = some R') :
    ∃ x, pyStep (cs rid) (query rid) (R.request rid) a = some x ∧
      R'.request = Function.update R.request rid x := by
  unfold pyStepOf at h
  split at h
  next heq =>
    obtain ⟨rfl, rfl⟩ := Prod.mk.inj heq
    split at h
    next =>
      obtain ⟨x, hx, rfl⟩ := Option.map_eq_some_iff.mp h
      exact ⟨x, hx, rfl⟩
    next => cases h
  next heq =>
    obtain ⟨rfl, rfl⟩ := Prod.mk.inj heq
    obtain ⟨x, hx, rfl⟩ := Option.map_eq_some_iff.mp h
    exact ⟨x, hx, rfl⟩

lemma request_pyReachOf
    (h : Reach (pyStepOf cs query) (fun R a => Reliable (R.request a.1) a.2)
      (PyRequests.init N Rid) R) (rid : Rid) :
    Reach (pyStep (cs rid) (query rid)) Reliable (pyInit N TaxiRow) (R.request rid) :=
  h.component (fun R => R.request) (fun rid => pyStep (cs rid) (query rid)) (fun _ => Reliable)
    (fun _ a _ _ hr hst => ⟨a.1, a.2, hr, request_pyStepOf hst⟩) rid

end Mini2.PyClient
