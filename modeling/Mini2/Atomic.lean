import Mini2.Request
import Mini2.Net
import Mini2.Routing
import Mini2.Scheduler

/-!
`SubmitQuery` and `CancelQuery` of a C++ gateway as whole calls on its tables. Looking up the
next hop toward an owner throws where the overlay has no entry, and so does looking up the stub
of a hop that is no node; either ends the handler where it stands.
-/

namespace Mini2.Atomic

open Mini2.Proto Mini2.Net Mini2.Request Mini2.Routing Mini2.Scheduler

variable {N Row : Type} [DecidableEq N]

/-- What a gateway keeps for a request, as far as the two handlers write it. -/
structure GatewayState (N Row : Type) where
  base : RequestState Row
  prefetchStop : Bool
  prefetchBuf : N → List Row
  clientProducersDone : N → Bool
  eligibleOwners : ℕ
  ownersResponded : Finset N

/-- The tables of a node. `requests` leads from an id to its state, `made` counts the states made
so far, and a running prefetcher is known by its state and its owner. -/
structure Tables (N Row : Type) where
  requests : String → Option ℕ
  sched : FairScheduler
  states : ℕ → GatewayState N Row
  made : ℕ
  prefetchers : List (ℕ × N)

structure Service (N Row : Type) where
  overlay : Overlay N
  name : N
  shard : Shard Query Row
  metadata : OwnerMetadata N

/-- How a call ends; `accepted` is the flag of the answer. -/
inductive Reply
  | status (code : StatusCode) (accepted : Bool)
  | threw
  deriving DecidableEq

def Tables.setState (t : Tables N Row) (g : ℕ) (st : GatewayState N Row) : Tables N Row :=
  { t with states := Function.update t.states g st }

variable (sv : Service N Row)

/-! ### SubmitQuery -/

def registerRequest (rid : String) (q : Query) (weight : ℤ) (t : Tables N Row) :
    Tables N Row × ℕ :=
  match t.requests rid with
  | some g => (t, g)
  | none =>
    ({ t with
        requests := Function.update t.requests rid (some t.made)
        sched := add t.sched rid weight
        states := Function.update t.states t.made
          ⟨newState sv.shard q weight, false, fun _ => [], fun _ => false, 0, ∅⟩
        made := t.made + 1 }, t.made)

def markOwners (elig : List N) (st : GatewayState N Row) : GatewayState N Row :=
  { st with
    clientProducersDone := fun o =>
      if o ∈ sv.overlay.dataOwners then decide (o ∉ elig) else st.clientProducersDone o
    eligibleOwners := elig.length
    ownersResponded :=
      if sv.name ∈ elig then insert sv.name st.ownersResponded else st.ownersResponded }

/-- The hop toward an owner, if neither its look-up nor that of its stub throws. -/
def peerHop (owner : N) : Option N :=
  match sv.overlay.nextHop sv.name owner with
  | .error _ => none
  | .ok hop => if sv.overlay.hasNode hop then some hop else none

/-- The retry loop: `rpc attempt` is what an attempt ends with. -/
def delivered (rpc : ℕ → StatusCode) : ℕ → ℕ → Bool
  | 0, _ => false
  | left + 1, attempt =>
    if rpc attempt = .ok then true
    else if rpc attempt = .unavailable ∨ rpc attempt = .deadlineExceeded then
      delivered rpc left (attempt + 1)
    else false

/-- The loop over the eligible owners, and whether it has thrown. -/
def forwardAll (rpc : N → ℕ → StatusCode) :
    List N → GatewayState N Row → GatewayState N Row × Bool
  | [], st => (st, false)
  | owner :: owners, st =>
    if owner = sv.name then forwardAll rpc owners st
    else
      match peerHop sv owner with
      | none => (st, true)
      | some _ =>
        if delivered (rpc owner) 20 0 then forwardAll rpc owners st
        else forwardAll rpc owners
          { st with clientProducersDone := Function.update st.clientProducersDone owner true }

def submitQuery (rpc : N → ℕ → StatusCode) (rid : String) (q : Query) (t : Tables N Row) :
    Tables N Row × Reply :=
  if sv.overlay.role sv.name ≠ .gateway then (t, .status .failedPrecondition false)
  else if rid = "" then (t, .status .ok false)
  else
    let (t, g) := registerRequest sv rid q 1 t
    let elig := eligibleOwners sv.overlay.dataOwners q sv.metadata
    let (st, threw) := forwardAll sv rpc elig (markOwners sv elig (t.states g))
    let t := t.setState g st
    if threw then (t, .threw)
    else
      let owners := elig.filter fun o => o ≠ sv.name && !st.clientProducersDone o
      ({ t with prefetchers := t.prefetchers ++ owners.map fun o => (g, o) }, .status .ok true)

/-! ### CancelQuery -/

/-- The loop over the data owners throws; what a call ends with is not looked at. -/
def cancelThrows : List N → Bool
  | [] => false
  | owner :: owners =>
    if owner = sv.name then cancelThrows owners
    else
      match peerHop sv owner with
      | none => true
      | some _ => cancelThrows owners

/-- The request leaves the tables, and its prefetchers are joined. -/
def dropRequest (rid : String) (t : Tables N Row) : Tables N Row :=
  match t.requests rid with
  | none => { t with sched := remove t.sched rid }
  | some g =>
    { t.setState g { t.states g with prefetchStop := true } with
      requests := Function.update t.requests rid none
      sched := remove t.sched rid
      prefetchers := t.prefetchers.filter fun p => p.1 ≠ g }

def GatewayState.cancel (st : GatewayState N Row) : GatewayState N Row :=
  { st with
    base := { st.base with cancelled := true, matched := [] }
    prefetchStop := true
    prefetchBuf := fun _ => [] }

def cancelQuery (rid : String) (t : Tables N Row) : Tables N Row × Reply :=
  match t.requests rid with
  | none => (t, .status .ok false)
  | some g =>
    let t := t.setState g (t.states g).cancel
    if sv.overlay.role sv.name = .gateway ∧ cancelThrows sv sv.overlay.dataOwners = true then
      (t, .threw)
    else (dropRequest rid t, .status .ok true)

/-! ### What a failure leaves behind -/

/-- A call that throws or is not accepted has changed nothing, neither the tables nor a state
that `requests` leads to. -/
def SubmitAtomic (rpc : N → ℕ → StatusCode) (rid : String) (q : Query) (t : Tables N Row) : Prop :=
  let r := submitQuery sv rpc rid q t
  (r.2 = .threw ∨ ∃ code, r.2 = .status code false) →
    r.1.requests = t.requests ∧ (∀ id g, t.requests id = some g → r.1.states g = t.states g) ∧
      r.1.sched = t.sched ∧ r.1.prefetchers = t.prefetchers

/-- A call that throws has not left the request behind with its mark. -/
def CancelAtomic (rid : String) (t : Tables N Row) : Prop :=
  let r := cancelQuery sv rid t
  r.2 = .threw → ∀ g, r.1.requests rid = some g → (r.1.states g).base.cancelled = false

/-- The owners have a next hop, and it is a node. -/
def AllReached (owners : List N) : Prop :=
  ∀ o ∈ owners, o ≠ sv.name → ∃ hop, sv.overlay.nextHop sv.name o = .ok hop ∧
    sv.overlay.hasNode hop = true

/-- The owners before the first that is not reached. -/
def reachedFirst : List N → List N
  | [] => []
  | owner :: owners =>
    if owner = sv.name then reachedFirst owners
    else if (peerHop sv owner).isSome then owner :: reachedFirst owners
    else []

/-- The state has already what a `SubmitQuery` that throws writes to it: an earlier one has been
through the same. -/
def AlreadyMarked (rpc : N → ℕ → StatusCode) (elig : List N) (st : GatewayState N Row) : Prop :=
  st.eligibleOwners = elig.length ∧ (sv.name ∈ elig → sv.name ∈ st.ownersResponded) ∧
    ∀ o ∈ sv.overlay.dataOwners, st.clientProducersDone o = true ↔
      o ∉ elig ∨ o ∈ reachedFirst sv elig ∧ delivered (rpc o) 20 0 = false

/-- Where `SubmitQuery` is atomic. -/
def SubmitSafe (rpc : N → ℕ → StatusCode) (rid : String) (q : Query) (t : Tables N Row) : Prop :=
  let elig := eligibleOwners sv.overlay.dataOwners q sv.metadata
  sv.overlay.role sv.name ≠ .gateway ∨ rid = "" ∨ AllReached sv elig ∨
    ∃ g, t.requests rid = some g ∧ AlreadyMarked sv rpc elig (t.states g)

/-- Where `CancelQuery` is. -/
def CancelSafe (rid : String) (t : Tables N Row) : Prop :=
  sv.overlay.role sv.name ≠ .gateway ∨ t.requests rid = none ∨
    AllReached sv sv.overlay.dataOwners

variable {sv} {rpc : N → ℕ → StatusCode} {rid : String} {q : Query} {t : Tables N Row}

lemma peerHop_isSome_iff {o : N} : (peerHop sv o).isSome = true ↔
    ∃ hop, sv.overlay.nextHop sv.name o = .ok hop ∧ sv.overlay.hasNode hop = true := by
  unfold peerHop
  cases sv.overlay.nextHop sv.name o with
  | error e => simp
  | ok hop => by_cases h : sv.overlay.hasNode hop = true <;> simp [h]

lemma allReached_cons {o : N} {owners : List N} : AllReached sv (o :: owners) ↔
    (o ≠ sv.name → (peerHop sv o).isSome = true) ∧ AllReached sv owners := by
  unfold AllReached
  rw [List.forall_mem_cons, peerHop_isSome_iff]

/-- The fan-out throws exactly if an owner is not reached, whatever the calls end with. -/
lemma forwardAll_threw (owners : List N) (st : GatewayState N Row) :
    (forwardAll sv rpc owners st).2 = false ↔ AllReached sv owners := by
  induction owners generalizing st with
  | nil => simp [forwardAll, AllReached]
  | cons o owners ih =>
    rw [allReached_cons]
    unfold forwardAll
    by_cases ho : o = sv.name
    · rw [if_pos ho, ih]
      simp [ho]
    · rw [if_neg ho]
      cases hp : peerHop sv o with
      | none => simp [ho]
      | some hop =>
        simp only
        split <;> rw [ih] <;> simp

lemma cancelThrows_eq (owners : List N) :
    cancelThrows sv owners = false ↔ AllReached sv owners := by
  induction owners with
  | nil => simp [cancelThrows, AllReached]
  | cons o owners ih =>
    rw [allReached_cons]
    unfold cancelThrows
    by_cases ho : o = sv.name
    · rw [if_pos ho, ih]
      simp [ho]
    · rw [if_neg ho]
      cases hp : peerHop sv o with
      | none => simp [ho]
      | some hop =>
        simp only
        rw [ih]
        simp

omit [DecidableEq N] in
lemma registerRequest_none (h : t.requests rid = none) :
    (registerRequest sv rid q 1 t).1.requests rid = some t.made := by
  simp [registerRequest, h]

omit [DecidableEq N] in
lemma registerRequest_some {g : ℕ} (h : t.requests rid = some g) :
    registerRequest sv rid q 1 t = (t, g) := by
  simp [registerRequest, h]

/-- What the fan-out writes: it gives up the owners whose forward fails before it ends. -/
lemma forwardAll_state (owners : List N) (st : GatewayState N Row) :
    (forwardAll sv rpc owners st).1 = { st with
      clientProducersDone := fun o => st.clientProducersDone o ||
        decide (o ∈ reachedFirst sv owners ∧ delivered (rpc o) 20 0 = false) } := by
  induction owners generalizing st with
  | nil => simp [forwardAll, reachedFirst]
  | cons o owners ih =>
    unfold forwardAll reachedFirst
    by_cases ho : o = sv.name
    · rw [if_pos ho, if_pos ho, ih]
    · rw [if_neg ho, if_neg ho]
      cases hp : peerHop sv o with
      | none => simp
      | some hop =>
        simp only [Option.isSome_some, if_true]
        cases hd : delivered (rpc o) 20 0 with
        | true =>
          rw [if_pos rfl, ih]
          congr 1
          funext o'
          by_cases hoo : o' = o
          · subst hoo
            simp [hd]
          · simp [hoo]
        | false =>
          rw [if_neg Bool.false_ne_true, ih]
          congr 1
          funext o'
          by_cases hoo : o' = o
          · subst hoo
            simp [hd]
          · simp [hoo]

lemma reachedFirst_subset (owners : List N) : reachedFirst sv owners ⊆ owners := by
  induction owners with
  | nil => simp [reachedFirst]
  | cons o owners ih =>
    unfold reachedFirst
    split
    · exact List.subset_cons_of_subset o ih
    · split
      · exact List.cons_subset_cons o ih
      · exact List.nil_subset _

/-- A failed fan-out leaves the state as it was only if that had all it writes. -/
lemma forwardAll_markOwners {elig : List N} (hel : elig ⊆ sv.overlay.dataOwners)
    (st : GatewayState N Row) :
    (forwardAll sv rpc elig (markOwners sv elig st)).1 = st ↔ AlreadyMarked sv rpc elig st := by
  obtain ⟨base, stop, buf, done, eligible, responded⟩ := st
  rw [forwardAll_state]
  unfold AlreadyMarked markOwners
  simp only [GatewayState.mk.injEq, true_and]
  rw [and_comm, and_assoc, eq_comm (a := elig.length)]
  refine and_congr_right fun _ => and_congr ?_ ?_
  · by_cases hname : sv.name ∈ elig
    · simp [hname]
    · simp [hname]
  · constructor
    · intro h o ho
      have hsame := congrFun h o
      rw [if_pos ho] at hsame
      rw [← hsame]
      simp
    · intro h
      funext o
      by_cases ho : o ∈ sv.overlay.dataOwners
      · rw [if_pos ho, Bool.eq_iff_iff, h o ho]
        simp
      · -- an owner that is none of the data owners is not sent to
        have hout : o ∉ reachedFirst sv elig := fun hmem =>
          ho (hel (reachedFirst_subset elig hmem))
        simp [ho, hout]

/-- The tables a call leaves that throws, of a gateway that knows the id already. -/
lemma submitQuery_threw {g : ℕ} (hrole : sv.overlay.role sv.name = .gateway) (hrid : rid ≠ "")
    (hr : t.requests rid = some g)
    (hall : ¬ AllReached sv (eligibleOwners sv.overlay.dataOwners q sv.metadata)) :
    submitQuery sv rpc rid q t = (t.setState g (forwardAll sv rpc
      (eligibleOwners sv.overlay.dataOwners q sv.metadata) (markOwners sv
        (eligibleOwners sv.overlay.dataOwners q sv.metadata) (t.states g))).1, .threw) := by
  unfold submitQuery
  rw [if_neg (by simpa using hrole), if_neg hrid, registerRequest_some hr]
  have hthrew : (forwardAll sv rpc (eligibleOwners sv.overlay.dataOwners q sv.metadata)
      (markOwners sv (eligibleOwners sv.overlay.dataOwners q sv.metadata) (t.states g))).2 =
      true := by
    rw [← Bool.not_eq_false, forwardAll_threw]
    exact hall
  simp [hthrew]

lemma submitQuery_gateway (hrole : sv.overlay.role sv.name = .gateway) (hrid : rid ≠ "") :
    ((submitQuery sv rpc rid q t).2 = .status .ok true ↔
      AllReached sv (eligibleOwners sv.overlay.dataOwners q sv.metadata)) ∧
    (¬ AllReached sv (eligibleOwners sv.overlay.dataOwners q sv.metadata) →
      (submitQuery sv rpc rid q t).2 = .threw ∧
      (submitQuery sv rpc rid q t).1.requests = (registerRequest sv rid q 1 t).1.requests) := by
  have hthrew := @forwardAll_threw _ _ _ sv rpc
    (eligibleOwners sv.overlay.dataOwners q sv.metadata)
    (markOwners sv (eligibleOwners sv.overlay.dataOwners q sv.metadata)
      ((registerRequest sv rid q 1 t).1.states (registerRequest sv rid q 1 t).2))
  unfold submitQuery
  rw [if_neg (by simpa using hrole), if_neg hrid]
  simp only
  rw [← hthrew]
  cases (forwardAll sv rpc (eligibleOwners sv.overlay.dataOwners q sv.metadata) (markOwners sv
      (eligibleOwners sv.overlay.dataOwners q sv.metadata)
      ((registerRequest sv rid q 1 t).1.states (registerRequest sv rid q 1 t).2))).2 with
  | false => simp
  | true => simp [Tables.setState]

lemma submitAtomic_iff : SubmitAtomic sv rpc rid q t ↔ SubmitSafe sv rpc rid q t := by
  unfold SubmitAtomic SubmitSafe
  by_cases hrole : sv.overlay.role sv.name = .gateway
  swap
  · have hsame : submitQuery sv rpc rid q t = (t, .status .failedPrecondition false) := by
      unfold submitQuery
      rw [if_pos hrole]
    simp [hsame, hrole]
  by_cases hrid : rid = ""
  · have hsame : submitQuery sv rpc rid q t = (t, .status .ok false) := by
      unfold submitQuery
      rw [if_neg (by simpa using hrole), if_pos hrid]
    rw [hsame]
    simp [hrid]
  obtain ⟨hok, hthrow⟩ := @submitQuery_gateway _ _ _ sv rpc rid q t hrole hrid
  by_cases hall : AllReached sv (eligibleOwners sv.overlay.dataOwners q sv.metadata)
  · have hreply := hok.mpr hall
    simp [hreply, hall]
  obtain ⟨hreply, hreq⟩ := hthrow hall
  simp only [hreply, true_or, true_imp_iff, hrole, hrid, hall, ne_eq, not_true_eq_false,
    false_or]
  cases hr : t.requests rid with
  | some g =>
    -- only the state of the request is written
    rw [submitQuery_threw hrole hrid hr hall]
    have hel : eligibleOwners sv.overlay.dataOwners q sv.metadata ⊆ sv.overlay.dataOwners :=
      eligibleOwners_sublist.subset
    simp only [Option.some.injEq, exists_eq_left', ← forwardAll_markOwners hel]
    constructor
    · rintro ⟨-, hstates, -⟩
      simpa [Tables.setState] using hstates rid g hr
    · intro h
      refine ⟨rfl, fun id g' _ => ?_, rfl, rfl⟩
      rw [h]
      simp [Tables.setState]
  | none =>
    -- the id that was not there is in the table when the fan-out throws
    simp only [reduceCtorEq, false_and, exists_false, iff_false]
    rintro ⟨hsame, -⟩
    have hthere : (registerRequest sv rid q 1 t).1.requests rid = some t.made :=
      registerRequest_none hr
    rw [← hreq, hsame, hr] at hthere
    cases hthere

lemma cancelAtomic_iff : CancelAtomic sv rid t ↔ CancelSafe sv rid t := by
  unfold CancelAtomic CancelSafe cancelQuery
  cases hr : t.requests rid with
  | none => simp
  | some g =>
    simp only [reduceCtorEq, false_or]
    by_cases hthrow : sv.overlay.role sv.name = .gateway ∧
        cancelThrows sv sv.overlay.dataOwners = true
    · -- the mark is set before the loop that throws
      rw [if_pos hthrow]
      have hnot : ¬ AllReached sv sv.overlay.dataOwners := by
        rw [← cancelThrows_eq, hthrow.2]
        exact Bool.noConfusion
      simp only [hthrow.1, hnot, or_self, ne_eq, not_true_eq_false, iff_false, true_imp_iff]
      intro h
      have hmark := h g hr
      simp [Tables.setState, GatewayState.cancel] at hmark
    · rw [if_neg hthrow]
      simp only [reduceCtorEq, false_imp_iff, true_iff]
      by_cases hrole : sv.overlay.role sv.name = .gateway
      · refine .inr (cancelThrows_eq _ |>.mp ?_)
        simpa [hrole] using hthrow
      · exact .inl hrole

/-- **When the handlers are atomic.** A failed `SubmitQuery` leaves the tables and the states as
they were, and a `CancelQuery` that throws leaves no marked request behind, exactly where their
conditions hold. -/
theorem atomic_iff (sv : Service N Row) (rpc : N → ℕ → StatusCode) (rid : String) (q : Query)
    (t : Tables N Row) : (SubmitAtomic sv rpc rid q t ↔ SubmitSafe sv rpc rid q t) ∧
      (CancelAtomic sv rid t ↔ CancelSafe sv rid t) :=
  ⟨submitAtomic_iff, cancelAtomic_iff⟩

/-- A gateway `0` with a data owner `1` its routing does not have. -/
def unrouted : Service ℕ TaxiRow where
  overlay := ⟨[(0, ⟨.gateway, .cpp⟩), (1, ⟨.peer, .cpp⟩)], [(0, [])], [1], 4096⟩
  name := 0
  shard := .none ⟨0, 0, 0, 0, 0, 0, 0, 0, false, 0, 0, 0, 0, 0, 0, 0, 0⟩
  metadata := { scheme := "" }

def noRequests : Tables ℕ TaxiRow where
  requests _ := none
  sched := empty .weightedRoundRobin
  states _ := ⟨⟨[], [], 0, false, false, 1⟩, false, fun _ => [], fun _ => false, 0, ∅⟩
  made := 0
  prefetchers := []

/-- The query of the failed `SubmitQuery` stays in the tables, and a `CancelQuery` of it marks it
and fails too. -/
theorem not_atomic : ¬ ∀ (sv : Service ℕ TaxiRow) (rpc : ℕ → ℕ → StatusCode) (rid : String)
    (q : Query) (t : Tables ℕ TaxiRow), SubmitAtomic sv rpc rid q t ∧ CancelAtomic sv rid t := by
  intro h
  have hsub := (h unrouted (fun _ _ => .ok) "r" ⟨[]⟩ noRequests).1 (.inl rfl)
  have hreq := congrFun hsub.1 "r"
  exact absurd hreq (by decide)

end Mini2.Atomic
