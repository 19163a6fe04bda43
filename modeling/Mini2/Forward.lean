import Mini2.Net
import Mini2.Request

/-!
`ForwardQuery` along the relays, and the retry loop of `SubmitQuery` around it.

A handler answers with a status and, under the status OK, with an acknowledgement. A relay
turns every failure of its own call into a rejecting acknowledgement under the status OK,
so the caller of the first hop sees the status of that hop and of no other.
-/

namespace Mini2.Forward

open Mini2.Proto Mini2.Net Mini2.Request

variable {N Rid Query Row : Type} [DecidableEq N] [DecidableEq Rid] [ToString N]

inductive RejectReason (N : Type)
  | ttlExpired
  | noRoute (target : N)
  | relayFailed (s : Status)
  deriving DecidableEq

def RejectReason.text : Impl → RejectReason N → String
  | .cpp, .ttlExpired => "ttl expired"
  | .python, .ttlExpired => "TTL expired"
  | _, .noRoute target => "no route to " ++ toString target
  | .cpp, .relayFailed s => "relay failed: " ++ s.message
  | .python, .relayFailed s => "relay failed: " ++ s.code.pyName

/-- What a node does with a `ForwardedQuery`. The stub of a hop that is no node of the
overlay throws. -/
inductive Decision (N : Type)
  | reject (reason : RejectReason N)
  | register
  | relay (nh : N)
  | throws (nh : N)
  deriving DecidableEq

def forwardDecision (ov : Overlay N) (target : N) (ttl : ℕ) (name : N) : Decision N :=
  if ttl = 0 then .reject .ttlExpired
  else
    match ov.toward target name with
    | .here => .register
    | .nowhere => .reject (.noRoute target)
    | .unknown nh => .throws nh
    | .hop nh => .relay nh

def handlerException (impl : Impl) (nh : N) : Failure where
  code := .unknown
  message :=
    match impl with
    | .cpp => "Unexpected error in RPC handling"
    | .python => "Exception calling application: '" ++ toString nh ++ "'"
  failed := by decide

/-- What the network does to one call. -/
inductive Transport
  | delivered
  | requestLost (f : Failure)
  | replyLost (f : Failure)

/-- The callee runs. -/
def Transport.carries : Transport → Prop
  | .requestLost _ => False
  | _ => True

abbrev Tables (N Rid Row : Type) := N → Rid → Entry Row

structure Peers (N Query Row : Type) where
  overlay : Overlay N
  shard : N → Shard Query Row

def Peers.register (P : Peers N Query Row) (rid : Rid) (q : Query) (n : N)
    (T : Tables N Rid Row) : Tables N Rid Row :=
  Function.update T n
    (Function.update (T n) rid (registerRequest (P.shard n) q 1 (T n rid)))

def rpc (hop : Transport) (callee : Tables N Rid Row → Except Failure QueryAck × Tables N Rid Row)
    (T : Tables N Rid Row) : Except Failure QueryAck × Tables N Rid Row :=
  match hop with
  | .delivered => callee T
  | .requestLost f => (.error f, T)
  | .replyLost f => (.error f, (callee T).2)

def rejectAck (impl : Impl) (r : RejectReason N) : QueryAck := ⟨false, r.text impl⟩

/-- What a relay answers after its own call. -/
def relayAck (N : Type) [ToString N] (impl : Impl) : Except Failure QueryAck → QueryAck
  | .error f => rejectAck (N := N) impl (.relayFailed f.toStatus)
  | .ok ack => ack

/-- `ForwardQuery` at `name`, the `d`-th hop of the call; `hops` is what the network does to
the call over each hop. -/
def forwardQuery (P : Peers N Query Row) (rid : Rid) (q : Query) (target : N)
    (hops : ℕ → Transport) :
    ℕ → ℕ → N → Tables N Rid Row → Except Failure QueryAck × Tables N Rid Row
  | 0, _, name, T => (.ok (rejectAck (N := N) (P.overlay.impl name) .ttlExpired), T)
  | ttl + 1, d, name, T =>
    match forwardDecision P.overlay target (ttl + 1) name with
    | .reject r => (.ok (rejectAck (P.overlay.impl name) r), T)
    | .register => (.ok ⟨true, ""⟩, P.register rid q name T)
    | .throws nh => (.error (handlerException (P.overlay.impl name) nh), T)
    | .relay nh =>
      let res := rpc (hops d) (forwardQuery P rid q target hops ttl (d + 1) nh) T
      (.ok (relayAck N (P.overlay.impl name) res.1), res.2)

def transient (code : StatusCode) : Bool := code = .unavailable || code = .deadlineExceeded

/-- One attempt: the gateway calls its next hop with a time to live of 8. -/
def attemptForward (P : Peers N Query Row) (rid : Rid) (q : Query) (owner hop : N)
    (hops : ℕ → Transport) (T : Tables N Rid Row) :
    Except Failure QueryAck × Tables N Rid Row :=
  rpc (hops 0) (forwardQuery P rid q owner hops 8 1 hop) T

/-- The retry loop with `left` attempts to go; the result is `delivered`. The loop looks at
the status alone. -/
def forwardLoop (P : Peers N Query Row) (rid : Rid) (q : Query) (owner hop : N)
    (hops : ℕ → ℕ → Transport) : ℕ → ℕ → Tables N Rid Row → Bool × Tables N Rid Row
  | 0, _, T => (false, T)
  | left + 1, attempt, T =>
    match attemptForward P rid q owner hop (hops attempt) T with
    | (.ok _, T') => (true, T')
    | (.error f, T') =>
      if transient f.code then forwardLoop P rid q owner hop hops left (attempt + 1) T'
      else (false, T')

/-- What `SubmitQuery` at `gw` does to forward the query to one owner; `none` when it throws. -/
def forwardOwner (P : Peers N Query Row) (rid : Rid) (q : Query) (gw owner : N)
    (hops : ℕ → ℕ → Transport) (T : Tables N Rid Row) : Option (Bool × Tables N Rid Row) :=
  match P.overlay.nextHop gw owner with
  | .error _ => none
  | .ok hop =>
    if P.overlay.hasNode hop then some (forwardLoop P rid q owner hop hops 20 0 T) else none

/-! ### What a call that is carried to the owner leaves behind -/

section Decision

variable {ov : Overlay N} {target name nh : N} {ttl : ℕ}

omit [ToString N] in
lemma decision_register_iff :
    forwardDecision ov target ttl name = .register ↔ 0 < ttl ∧ name = target := by
  unfold forwardDecision
  rw [← @toward_here_iff _ _ ov]
  rcases Nat.eq_zero_or_pos ttl with h0 | h0
  · simp [h0]
  · cases ov.toward target name <;> simp [h0, h0.ne']

omit [ToString N] in
lemma decision_relay_iff :
    forwardDecision ov target ttl name = .relay nh ↔
      0 < ttl ∧ ov.toward target name = .hop nh := by
  unfold forwardDecision
  rcases Nat.eq_zero_or_pos ttl with h0 | h0
  · simp [h0]
  · cases ov.toward target name <;> simp [h0, h0.ne']

end Decision

/-- The call that reaches `n` with the time to live `ttl` is carried on to the target: the
tables lead there in time, and no hop from the `d`-th on loses the request. -/
def Carried (ov : Overlay N) (target : N) (hops : ℕ → Transport) (d ttl : ℕ) (n : N) : Prop :=
  ∃ k < ttl, Routes ov target k n ∧ ∀ j < k, (hops (d + j)).carries

section Carried

variable {ov : Overlay N} {target : N} {hops : ℕ → Transport} {d ttl : ℕ} {n nh : N}

omit [ToString N] in
lemma carried_of_register (h : forwardDecision ov target ttl n = .register) :
    Carried ov target hops d ttl n := by
  obtain ⟨h0, rfl⟩ := decision_register_iff.mp h
  exact ⟨0, h0, rfl, fun j hj => absurd hj (Nat.not_lt_zero j)⟩

omit [ToString N] in
lemma carried_relay_iff (h : forwardDecision ov target (ttl + 1) n = .relay nh) :
    Carried ov target hops d (ttl + 1) n ↔
      (hops d).carries ∧ Carried ov target hops (d + 1) ttl nh := by
  obtain ⟨-, hd⟩ := decision_relay_iff.mp h
  constructor
  · rintro ⟨k, hk, hr, hc⟩
    cases k with
    | zero => exact absurd hr (toward_hop_iff.mp hd).1
    | succ k =>
      obtain ⟨m, hm, hr⟩ := hr
      obtain rfl : m = nh := by simpa using hm.symm.trans hd
      refine ⟨by simpa using hc 0 (Nat.succ_pos k), k, by omega, hr, fun j hj => ?_⟩
      have := hc (j + 1) (by omega)
      rwa [show d + (j + 1) = d + 1 + j by omega] at this
  · rintro ⟨h0, k, hk, hr, hc⟩
    refine ⟨k + 1, by omega, ⟨nh, hd, hr⟩, fun j hj => ?_⟩
    cases j with
    | zero => simpa using h0
    | succ j =>
      have := hc j (by omega)
      rwa [show d + (j + 1) = d + 1 + j by omega]

omit [ToString N] in
lemma Carried.decision (h : Carried ov target hops d ttl n) :
    forwardDecision ov target ttl n = .register ∨
      ∃ nh, forwardDecision ov target ttl n = .relay nh := by
  obtain ⟨k, hk, hr, -⟩ := h
  cases k with
  | zero => exact .inl (decision_register_iff.mpr ⟨by omega, hr⟩)
  | succ k =>
    obtain ⟨nh, hn, -⟩ := hr
    exact .inr ⟨nh, decision_relay_iff.mpr ⟨by omega, hn⟩⟩

end Carried

section Tables

variable (P : Peers N Query Row) (rid : Rid) (q : Query) (target : N) (hops : ℕ → Transport)

lemma forwardQuery_carried {ttl d : ℕ} {n : N} (T : Tables N Rid Row)
    (h : Carried P.overlay target hops d ttl n) :
    (forwardQuery P rid q target hops ttl d n T).2 = P.register rid q target T := by
  induction ttl generalizing d n with
  | zero =>
    obtain ⟨k, hk, -⟩ := h
    exact absurd hk (Nat.not_lt_zero k)
  | succ ttl ih =>
    unfold forwardQuery
    rcases h.decision with hd | ⟨nh, hd⟩
    · obtain ⟨-, rfl⟩ := decision_register_iff.mp hd
      rw [hd]
    · obtain ⟨hc, h'⟩ := (carried_relay_iff hd).mp h
      rw [hd]
      show (rpc (hops d) _ T).2 = _
      unfold rpc
      cases hx : hops d with
      | delivered => exact ih h'
      | replyLost f => exact ih h'
      | requestLost f =>
        rw [hx] at hc
        exact hc.elim

lemma forwardQuery_not_carried {ttl d : ℕ} {n : N} (T : Tables N Rid Row)
    (h : ¬ Carried P.overlay target hops d ttl n) :
    (forwardQuery P rid q target hops ttl d n T).2 = T := by
  induction ttl generalizing d n with
  | zero => rfl
  | succ ttl ih =>
    unfold forwardQuery
    cases hd : forwardDecision P.overlay target (ttl + 1) n with
    | reject r => rfl
    | register => exact absurd (carried_of_register hd) h
    | throws nh => rfl
    | relay nh =>
      show (rpc (hops d) _ T).2 = _
      unfold rpc
      cases hx : hops d with
      | requestLost f => rfl
      | delivered =>
        exact ih fun h' => h ((carried_relay_iff hd).mpr ⟨by rw [hx]; trivial, h'⟩)
      | replyLost f =>
        exact ih fun h' => h ((carried_relay_iff hd).mpr ⟨by rw [hx]; trivial, h'⟩)

/-- A node answers with the status OK unless its own stub throws, whatever happens to the
call beyond it. -/
lemma forwardQuery_status (ttl d : ℕ) {n : N} (T : Tables N Rid Row) :
    (∃ ack, (forwardQuery P rid q target hops ttl d n T).1 = .ok ack) ∨
      ∃ nh, forwardDecision P.overlay target ttl n = .throws nh ∧
        (forwardQuery P rid q target hops ttl d n T).1 =
          .error (handlerException (P.overlay.impl n) nh) := by
  cases ttl with
  | zero => exact .inl ⟨_, rfl⟩
  | succ ttl =>
    unfold forwardQuery
    cases forwardDecision P.overlay target (ttl + 1) n with
    | reject r => exact .inl ⟨_, rfl⟩
    | register => exact .inl ⟨_, rfl⟩
    | relay nh => exact .inl ⟨_, rfl⟩
    | throws nh => exact .inr ⟨nh, rfl, rfl⟩

/-- Where the tables lead to the target in time, the query is accepted unless some hop fails,
and only a failed hop has it rejected. -/
lemma forwardQuery_routed (ttl d : ℕ) {k : ℕ} {n : N} (T : Tables N Rid Row)
    (hr : Routes P.overlay target k n) (hk : k < ttl) :
    ∃ ack, (forwardQuery P rid q target hops ttl d n T).1 = .ok ack ∧
      (ack = ⟨true, ""⟩ ∨ ∃ impl f, ack = rejectAck (N := N) impl (.relayFailed f)) ∧
      ((∀ j < k, hops (d + j) = .delivered) → ack = ⟨true, ""⟩) := by
  induction k generalizing ttl d n with
  | zero =>
    obtain ⟨ttl, rfl⟩ : ∃ t, ttl = t + 1 := ⟨ttl - 1, by omega⟩
    refine ⟨⟨true, ""⟩, ?_, .inl rfl, fun _ => rfl⟩
    have hd : forwardDecision P.overlay target (ttl + 1) n = .register :=
      decision_register_iff.mpr ⟨by omega, hr⟩
    unfold forwardQuery
    rw [hd]
  | succ k ih =>
    obtain ⟨ttl, rfl⟩ : ∃ t, ttl = t + 1 := ⟨ttl - 1, by omega⟩
    obtain ⟨nh, hn, hr'⟩ := hr
    have hd : forwardDecision P.overlay target (ttl + 1) n = .relay nh :=
      decision_relay_iff.mpr ⟨by omega, hn⟩
    obtain ⟨ack, hack, hkind, hdel⟩ := ih ttl (d + 1) hr' (by omega)
    unfold forwardQuery
    rw [hd]
    simp only
    unfold rpc
    cases hx : hops d with
    | delivered =>
      refine ⟨ack, by rw [hack]; rfl, hkind, fun hall => hdel fun j hj => ?_⟩
      have := hall (j + 1) (by omega)
      rwa [show d + (j + 1) = d + 1 + j by omega] at this
    | requestLost f =>
      refine ⟨_, rfl, .inr ⟨_, f.toStatus, rfl⟩, fun hall => ?_⟩
      have := hall 0 (by omega)
      rw [Nat.add_zero, hx] at this
      cases this
    | replyLost f =>
      refine ⟨_, rfl, .inr ⟨_, f.toStatus, rfl⟩, fun hall => ?_⟩
      have := hall 0 (by omega)
      rw [Nat.add_zero, hx] at this
      cases this

end Tables

end Mini2.Forward
