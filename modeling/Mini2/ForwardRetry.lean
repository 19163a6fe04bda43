import Mini2.Forward

/-!
What `delivered` means at the end of the retry loop of `SubmitQuery`: the gateway's next
hop has answered. Whether the query has reached its owner by then is decided by the hops
behind it, whose failures the loop neither sees nor retries.
-/

namespace Mini2.ForwardRetry

open Mini2.Proto Mini2.Net Mini2.Request Mini2.Forward

variable {N Rid Query Row : Type} [DecidableEq N] [DecidableEq Rid] [ToString N]

def Registered (T : Tables N Rid Row) (owner : N) (rid : Rid) : Prop :=
  (T owner rid).table ≠ none

instance (T : Tables N Rid Row) (owner : N) (rid : Rid) : Decidable (Registered T owner rid) :=
  inferInstanceAs (Decidable (_ ≠ _))

/-- The status code the gateway sees when the network does `t` to its call. -/
def firstCode (ov : Overlay N) (owner hop : N) : Transport → StatusCode
  | .delivered =>
    match forwardDecision ov owner 8 hop with
    | .throws _ => .unknown
    | _ => .ok
  | .requestLost f => f.code
  | .replyLost f => f.code

/-- The attempt carries the request over every hop from the gateway to the owner. -/
def AttemptCarried (ov : Overlay N) (owner hop : N) (hops : ℕ → Transport) : Prop :=
  (hops 0).carries ∧ Carried ov owner hops 1 8 hop

section Attempt

variable (P : Peers N Query Row) (rid : Rid) (q : Query) (owner hop : N) (hops : ℕ → Transport)
  (T : Tables N Rid Row)

omit [ToString N] in
lemma registered_register : Registered (P.register rid q owner T) owner rid := by
  unfold Registered Peers.register
  rw [Function.update_self, Function.update_self]
  exact registerRequest_table _ _ _ _

lemma attempt_registered :
    Registered (attemptForward P rid q owner hop hops T).2 owner rid ↔
      Registered T owner rid ∨ AttemptCarried P.overlay owner hop hops := by
  have hrun : Registered (forwardQuery P rid q owner hops 8 1 hop T).2 owner rid ↔
      Registered T owner rid ∨ Carried P.overlay owner hops 1 8 hop := by
    by_cases hc : Carried P.overlay owner hops 1 8 hop
    · rw [forwardQuery_carried P rid q owner hops T hc]
      exact iff_of_true (registered_register P rid q owner T) (.inr hc)
    · rw [forwardQuery_not_carried P rid q owner hops T hc]
      exact ⟨.inl, fun h => h.resolve_right hc⟩
  unfold attemptForward rpc AttemptCarried
  cases hops 0 with
  | delivered => simpa [Transport.carries] using hrun
  | replyLost f => simpa [Transport.carries] using hrun
  | requestLost f => simp [Transport.carries]

lemma attempt_code :
    (∃ ack, (attemptForward P rid q owner hop hops T).1 = .ok ack ∧
        firstCode P.overlay owner hop (hops 0) = .ok) ∨
      ∃ f, (attemptForward P rid q owner hop hops T).1 = .error f ∧
        firstCode P.overlay owner hop (hops 0) = f.code := by
  unfold attemptForward rpc
  cases hops 0 with
  | requestLost f => exact .inr ⟨f, rfl, rfl⟩
  | replyLost f => exact .inr ⟨f, rfl, rfl⟩
  | delivered =>
    simp only [firstCode]
    rcases forwardQuery_status P rid q owner hops 8 1 (n := hop) T with
      ⟨ack, h⟩ | ⟨nh, hd, h⟩
    · refine .inl ⟨ack, h, ?_⟩
      split
      · next nh hd =>
        exfalso
        unfold forwardQuery at h
        rw [hd] at h
        cases h
      · rfl
    · refine .inr ⟨_, h, ?_⟩
      rw [hd]
      rfl

end Attempt

section Loop

variable (P : Peers N Query Row) (rid : Rid) (q : Query) (owner hop : N)
  (hops : ℕ → ℕ → Transport)

/-- Attempt `a` is the first one that the next hop answers, and the ones before it fail in a
way that is retried. -/
def FirstAnswered (ov : Overlay N) (a : ℕ) : Prop :=
  firstCode ov owner hop (hops a 0) = .ok ∧
    ∀ b < a, transient (firstCode ov owner hop (hops b 0)) = true

lemma forwardLoop_of_ok (left a : ℕ) (T : Tables N Rid Row) {ack : QueryAck}
    (h : (attemptForward P rid q owner hop (hops a) T).1 = .ok ack) :
    forwardLoop P rid q owner hop hops (left + 1) a T =
      (true, (attemptForward P rid q owner hop (hops a) T).2) := by
  rw [forwardLoop]
  split
  · next h' => rw [h']
  · next h' => rw [h'] at h; cases h

lemma forwardLoop_of_error (left a : ℕ) (T : Tables N Rid Row) {f : Failure}
    (h : (attemptForward P rid q owner hop (hops a) T).1 = .error f) :
    forwardLoop P rid q owner hop hops (left + 1) a T =
      if transient f.code then
        forwardLoop P rid q owner hop hops left (a + 1)
          (attemptForward P rid q owner hop (hops a) T).2
      else (false, (attemptForward P rid q owner hop (hops a) T).2) := by
  rw [forwardLoop]
  split
  · next h' => rw [h'] at h; cases h
  · next f' T' h' =>
    rw [h'] at h
    obtain rfl : f' = f := Except.error.inj h
    rw [h']

/-- The loop from attempt `a` on ends with `delivered` exactly when some attempt is the
first to be answered; the owner is registered then if it was before or one of the attempts
so far has been carried to it. -/
lemma forwardLoop_spec (left a : ℕ) (T : Tables N Rid Row) :
    ((forwardLoop P rid q owner hop hops left a T).1 = true →
      ∃ i < left, firstCode P.overlay owner hop (hops (a + i) 0) = .ok ∧
        ∀ j < i, transient (firstCode P.overlay owner hop (hops (a + j) 0)) = true) ∧
    ∀ i < left, firstCode P.overlay owner hop (hops (a + i) 0) = .ok →
      (∀ j < i, transient (firstCode P.overlay owner hop (hops (a + j) 0)) = true) →
      (forwardLoop P rid q owner hop hops left a T).1 = true ∧
        (Registered (forwardLoop P rid q owner hop hops left a T).2 owner rid ↔
          Registered T owner rid ∨
            ∃ j ≤ i, AttemptCarried P.overlay owner hop (hops (a + j))) := by
  induction left generalizing a T with
  | zero => exact ⟨fun h => (Bool.false_ne_true h).elim, fun i hi => absurd hi (Nat.not_lt_zero i)⟩
  | succ left ih =>
    have hreg := attempt_registered P rid q owner hop (hops a) T
    rcases attempt_code P rid q owner hop (hops a) T with ⟨ack, hr, hcode⟩ | ⟨f, hr, hcode⟩
    · -- answered: the loop stops here
      rw [forwardLoop_of_ok P rid q owner hop hops left a T hr]
      refine ⟨fun _ => ⟨0, by omega, hcode, fun j hj => absurd hj (Nat.not_lt_zero j)⟩, ?_⟩
      intro i _ _ hbefore
      have hi : i = 0 := by
        by_contra hne
        have := hbefore 0 (Nat.pos_of_ne_zero hne)
        rw [Nat.add_zero, hcode] at this
        exact absurd this (by decide)
      subst hi
      refine ⟨rfl, hreg.trans (or_congr_right ?_)⟩
      simp
    · rw [forwardLoop_of_error P rid q owner hop hops left a T hr]
      cases ht : transient f.code with
      | false =>
        rw [if_neg Bool.false_ne_true]
        refine ⟨fun h => (Bool.false_ne_true h).elim, fun i _ hok hbefore => ?_⟩
        exfalso
        rcases Nat.eq_zero_or_pos i with rfl | hi
        · rw [Nat.add_zero, hcode] at hok
          exact f.failed hok
        · have := hbefore 0 hi
          rw [Nat.add_zero, hcode, ht] at this
          cases this
      | true =>
        -- retried: the attempts shift by one
        obtain ⟨ih1, ih2⟩ := ih (a + 1) (attemptForward P rid q owner hop (hops a) T).2
        rw [if_pos rfl]
        constructor
        · intro h
          obtain ⟨i, hi, hok, hb⟩ := ih1 h
          refine ⟨i + 1, by omega, by rwa [show a + (i + 1) = a + 1 + i by omega], fun j hj => ?_⟩
          cases j with
          | zero => rw [Nat.add_zero, hcode, ht]
          | succ j =>
            have := hb j (by omega)
            rwa [show a + (j + 1) = a + 1 + j by omega]
        · intro i hi hok hb
          cases i with
          | zero =>
            rw [Nat.add_zero, hcode] at hok
            exact absurd hok f.failed
          | succ i =>
            obtain ⟨h1, h2⟩ := ih2 i (by omega)
              (by rwa [show a + 1 + i = a + (i + 1) by omega])
              (fun j hj => by
                have := hb (j + 1) (by omega)
                rwa [show a + (j + 1) = a + 1 + j by omega] at this)
            refine ⟨h1, h2.trans ?_⟩
            rw [hreg, or_assoc]
            refine or_congr_right ?_
            constructor
            · rintro (h | ⟨j, hj, h⟩)
              · exact ⟨0, by omega, h⟩
              · exact ⟨j + 1, by omega, by rwa [show a + (j + 1) = a + 1 + j by omega]⟩
            · rintro ⟨j, hj, h⟩
              cases j with
              | zero => exact .inl h
              | succ j =>
                exact .inr ⟨j, by omega, by rwa [show a + 1 + j = a + (j + 1) by omega]⟩

end Loop

/-- A forward to the owner that ends with `delivered` leaves the id registered there. -/
def DeliveredIsRegistered (P : Peers N Query Row) (rid : Rid) (q : Query) (gw owner : N)
    (hops : ℕ → ℕ → Transport) (T : Tables N Rid Row) : Prop :=
  ∀ T', forwardOwner P rid q gw owner hops T = some (true, T') → Registered T' owner rid

/-- **`delivered` means registered exactly when** an attempt up to the first answered one has
been carried over all hops to the owner, or the owner held the id already. -/
theorem deliveredIsRegistered_iff (P : Peers N Query Row) (rid : Rid) (q : Query) (gw owner : N)
    (hops : ℕ → ℕ → Transport) (T : Tables N Rid Row) :
    DeliveredIsRegistered P rid q gw owner hops T ↔
      ∀ hop, P.overlay.nextHop gw owner = .ok hop → P.overlay.hasNode hop = true →
        ∀ a < 20, FirstAnswered owner hop hops P.overlay a →
          Registered T owner rid ∨ ∃ b ≤ a, AttemptCarried P.overlay owner hop (hops b) := by
  unfold DeliveredIsRegistered forwardOwner
  cases hn : P.overlay.nextHop gw owner with
  | error e => simp
  | ok hop =>
    cases hh : P.overlay.hasNode hop with
    | false => simp [hh]
    | true =>
      obtain ⟨h1, h2⟩ := forwardLoop_spec P rid q owner hop hops 20 0 T
      simp only [Nat.zero_add] at h1 h2
      simp only [hh, if_true, Except.ok.injEq]
      constructor
      · rintro h hop' rfl - a ha ⟨hok, hb⟩
        obtain ⟨ht, hr⟩ := h2 a ha hok hb
        exact hr.mp (h _ (congrArg some (Prod.ext ht rfl)))
      · intro h T' hT
        have hpair := Option.some.inj hT
        obtain ⟨a, ha, hok, hb⟩ := h1 (by rw [hpair])
        have := (h2 a ha hok hb).2.mpr (h hop rfl hh a ha ⟨hok, hb⟩)
        rwa [hpair] at this

/-- The nodes of a chain of three: `A` is the gateway, `C` owns the data. -/
inductive Chain | a | b | c
  deriving DecidableEq

instance : ToString Chain where
  toString | .a => "A" | .b => "B" | .c => "C"

/-- `A - B - C` with a data owner at its far end; the shards hold numbered rows. -/
def chainPeers : Peers Chain Unit ℕ where
  overlay :=
    { nodes := [(.a, ⟨.gateway, .cpp⟩), (.b, ⟨.peer, .cpp⟩), (.c, ⟨.peer, .cpp⟩)]
      routing :=
        [(.a, [(.a, .a), (.b, .b), (.c, .b)]), (.b, [(.a, .a), (.b, .b), (.c, .c)]),
         (.c, [(.a, .b), (.b, .b), (.c, .c)])]
      dataOwners := [.c]
      maxRows := 4096 }
  shard _ := ⟨true, 1, fun _ => true, fun _ => [0], id, by decide⟩

/-- In every attempt the owner, still starting up, refuses the call of the relay. -/
def refused : ℕ → ℕ → Transport
  | _, 1 => .requestLost ⟨⟨.unavailable, "connection refused"⟩, by decide⟩
  | _, _ => .delivered

/-- **A transient failure behind the first hop** is taken for a delivery at once. -/
theorem not_deliveredIsRegistered_chain :
    ¬ DeliveredIsRegistered chainPeers (0 : ℕ) () .a .c refused fun _ _ => Entry.empty := by
  intro h
  refine h (forwardLoop chainPeers (0 : ℕ) () .c .b refused 20 0 fun _ _ => Entry.empty).2 ?_ rfl
  rfl

end Mini2.ForwardRetry
