import Mini2.Client
import Mini2.Lib.Runs

/-!
The client's requests beside a gateway: each thread of the client submits its query, fetches one
chunk after the other, and counts what it gets. Of the gateway it takes part in, only the calls and
the answers are seen here.
-/

namespace Mini2.Session

open Mini2.Client Mini2.Runs

/-- A gateway as the client of one request sees it. -/
structure Gateway (S A Row : Type) where
  step : S → A → Option S
  init : S
  /-- `SubmitQuery` has returned. -/
  submitted : S → Bool
  /-- A `FetchChunk`, and a `CancelQuery`, begins. -/
  starts : A → Bool
  cancels : A → Bool
  /-- No `FetchChunk` is under way. -/
  idle : S → Bool
  /-- A `FetchChunk` would find no request, and the last one has ended without a chunk. -/
  unknown : S → Bool
  failed : S → Bool
  /-- The rows that have been sent. -/
  log : S → List Row
  /-- What the last chunk says of the owners. -/
  last : S → Option (ℕ × ℕ)

/-- Where `run_one` stands; a call has been made when so many rows had been sent. -/
inductive Pc
  | submitting
  | ready
  | waiting (sent : ℕ)
  | cancelling (called : Bool)
  | returned
  deriving DecidableEq

structure Thread (Row : Type) where
  pc : Pc := .submitting
  result : ReqResult := {}
  printed : List Row := []

inductive Move (A : Type)
  | server (a : A)
  | submitted
  | refused (err : String)
  | call (a : A)
  | unknown (message : String)
  | fails (message : String)
  | answered
  | cancel (a : A)
  | cancelled

variable {S A Row : Type}

/-- The chunk that a `FetchChunk` has sent, which began when so many rows had been sent. -/
def chunkOf (G : Gateway S A Row) (s : S) (sent : ℕ) : Chunk Row where
  rows := (G.log s).drop sent
  isLast := (G.last s).isSome
  ownersHit := ((G.last s).getD (0, 0)).1
  ownersEligible := ((G.last s).getD (0, 0)).2

def Thread.fail (k : Thread Row) (err : String) : Thread Row :=
  { k with pc := .returned, result := { k.result with err := err } }

def Thread.got (args : CliArgs) (size : Chunk Row → ℕ) (k : Thread Row) (ch : Chunk Row) :
    Thread Row :=
  let r := k.result.count size ch
  let printed := k.printed ++ args.toPrint r ch
  match args.next r ch.isLast with
  | .cancel => ⟨.cancelling false, r, printed⟩
  | .abandon => ⟨.returned, { r with ok := true }, printed⟩
  | .finish =>
    ⟨.returned, { r with
      ok := true
      ownersHit := ch.ownersHit
      ownersEligible := ch.ownersEligible }, printed⟩
  | .fetch => ⟨.ready, r, printed⟩

/-- What a move makes of a thread, and the step of the gateway that belongs to it. The calls of
the client are its own; all else the gateway does by itself. -/
def move (G : Gateway S A Row) (args : CliArgs) (size : Chunk Row → ℕ) (s : S) (k : Thread Row) :
    Move A → Option (Option A × Thread Row)
  | .server a => if G.starts a || G.cancels a then none else some (some a, k)
  | .submitted =>
    if k.pc = .submitting ∧ G.submitted s then some (none, { k with pc := .ready }) else none
  | .refused err => if k.pc = .submitting then some (none, k.fail err) else none
  | .call a =>
    if k.pc = .ready ∧ G.starts a ∧ G.unknown s = false then
      some (some a, { k with pc := .waiting (G.log s).length })
    else none
  | .unknown message =>
    match k.pc with
    | .ready => if G.unknown s then some (none, k.fail ("FetchChunk: " ++ message)) else none
    | .waiting _ => if G.failed s then some (none, k.fail ("FetchChunk: " ++ message)) else none
    | _ => none
  | .fails message =>
    match k.pc with
    | .waiting _ => some (none, k.fail ("FetchChunk: " ++ message))
    | _ => none
  | .answered =>
    match k.pc with
    | .waiting sent =>
      if G.idle s ∧ G.failed s = false then some (none, k.got args size (chunkOf G s sent))
      else none
    | _ => none
  | .cancel a =>
    if k.pc = .cancelling false ∧ G.cancels a then some (some a, { k with pc := .cancelling true })
    else none
  | .cancelled =>
    match k.pc with
    | .cancelling _ =>
      some (none, { k with pc := .returned, result := { k.result with ok := true } })
    | _ => none

structure Joint (S Row : Type) where
  server : S
  thread : Thread Row

def jointStep (G : Gateway S A Row) (args : CliArgs) (size : Chunk Row → ℕ)
    (x : Joint S Row) (m : Move A) : Option (Joint S Row) :=
  (move G args size x.server x.thread m).bind fun p =>
    match p.1 with
    | none => some ⟨x.server, p.2⟩
    | some a => (G.step x.server a).map fun s => ⟨s, p.2⟩

/-- What the client relies on in a step of the gateway. -/
structure Keeps (G : Gateway S A Row) (s : S) (a : A) (s' : S) : Prop where
  submitted : G.submitted s = true → G.submitted s' = true
  /-- Nothing is sent between two calls. -/
  rest : G.starts a = false → G.idle s = true →
    G.idle s' = true ∧ G.log s' = G.log s ∧ G.last s' = G.last s
  grows : G.log s <+: G.log s'
  /-- The last chunk is the end of a call. -/
  ends : G.last s = none → G.last s' ≠ none → G.idle s' = true

structure Lawful (G : Gateway S A Row) : Prop where
  idle_init : G.idle G.init = true
  log_init : G.log G.init = []
  last_init : G.last G.init = none
  keeps : ∀ s a s', G.step s a = some s' → Keeps G s a s'

lemma Keeps.same {G : Gateway S A Row} {s s' : S} {a : A}
    (hsub : G.submitted s = true → G.submitted s' = true) (hi : G.idle s' = G.idle s)
    (hl : G.log s' = G.log s) (hlast : G.last s' = G.last s) : Keeps G s a s' where
  submitted := hsub
  rest _ hidle := ⟨hi.trans hidle, hl, hlast⟩
  grows := hl ▸ List.prefix_rfl
  ends hn hne := absurd (hlast.trans hn) hne

lemma Keeps.busy {G : Gateway S A Row} {s s' : S} {a : A}
    (hsub : G.submitted s = true → G.submitted s' = true) (hi : G.idle s = false)
    (hl : G.log s <+: G.log s') (hends : G.last s' = G.last s ∨ G.idle s' = true) :
    Keeps G s a s' where
  submitted := hsub
  rest _ hidle := absurd (hi.symm.trans hidle) Bool.false_ne_true
  grows := hl
  ends hn hne := hends.resolve_left fun hsame => hne (hsame.trans hn)

variable {G : Gateway S A Row} {args : CliArgs} {size : Chunk Row → ℕ} {x x' : Joint S Row}
  {m : Move A}

section Cases

variable (G args size)

inductive Moves (x : Joint S Row) : Move A → Joint S Row → Prop
  | server {a : A} {s : S} (ha : G.starts a = false) (hc : G.cancels a = false)
      (hs : G.step x.server a = some s) : Moves x (.server a) ⟨s, x.thread⟩
  | submitted (h : x.thread.pc = .submitting) (hs : G.submitted x.server = true) :
      Moves x .submitted ⟨x.server, { x.thread with pc := .ready }⟩
  | refused {err : String} (h : x.thread.pc = .submitting) :
      Moves x (.refused err) ⟨x.server, x.thread.fail err⟩
  | call {a : A} {s : S} (h : x.thread.pc = .ready) (hu : G.unknown x.server = false)
      (hs : G.step x.server a = some s) :
      Moves x (.call a) ⟨s, { x.thread with pc := .waiting (G.log x.server).length }⟩
  | unknown {message : String} (h : x.thread.pc = .ready) (hu : G.unknown x.server = true) :
      Moves x (.unknown message) ⟨x.server, x.thread.fail ("FetchChunk: " ++ message)⟩
  | failed {message : String} {n : ℕ} (h : x.thread.pc = .waiting n)
      (hf : G.failed x.server = true) :
      Moves x (.unknown message) ⟨x.server, x.thread.fail ("FetchChunk: " ++ message)⟩
  | fails {message : String} {n : ℕ} (h : x.thread.pc = .waiting n) :
      Moves x (.fails message) ⟨x.server, x.thread.fail ("FetchChunk: " ++ message)⟩
  | answered {n : ℕ} (h : x.thread.pc = .waiting n) (hi : G.idle x.server = true) :
      Moves x .answered ⟨x.server, x.thread.got args size (chunkOf G x.server n)⟩
  | cancel {a : A} {s : S} (h : x.thread.pc = .cancelling false) (ha : G.cancels a = true)
      (hs : G.step x.server a = some s) :
      Moves x (.cancel a) ⟨s, { x.thread with pc := .cancelling true }⟩
  | cancelled {called : Bool} (h : x.thread.pc = .cancelling called) :
      Moves x .cancelled ⟨x.server, { x.thread with
        pc := .returned
        result := { x.thread.result with ok := true } }⟩

end Cases

lemma moves_of_step (h : jointStep G args size x m = some x') : Moves G args size x m x' := by
  obtain ⟨⟨a, k⟩, hm, h⟩ := Option.bind_eq_some_iff.mp h
  cases m with
  | server a =>
    simp only [move, Option.ite_none_left_eq_some, Bool.or_eq_true, not_or,
      Bool.not_eq_true] at hm
    obtain ⟨⟨ha, hc⟩, hm⟩ := hm
    cases hm
    obtain ⟨s, hs, rfl⟩ := Option.map_eq_some_iff.mp h
    exact .server ha hc hs
  | submitted =>
    simp only [move, Option.ite_none_right_eq_some] at hm
    obtain ⟨⟨hp, hs⟩, hm⟩ := hm
    cases hm
    cases h
    exact .submitted hp hs
  | refused err =>
    simp only [move, Option.ite_none_right_eq_some] at hm
    obtain ⟨hp, hm⟩ := hm
    cases hm
    cases h
    exact .refused hp
  | call a =>
    simp only [move, Option.ite_none_right_eq_some] at hm
    obtain ⟨⟨hp, -, hu⟩, hm⟩ := hm
    cases hm
    obtain ⟨s, hs, rfl⟩ := Option.map_eq_some_iff.mp h
    exact .call hp hu hs
  | unknown message =>
    simp only [move] at hm
    split at hm
    next hp =>
      obtain ⟨hu, hm⟩ := Option.ite_none_right_eq_some.mp hm
      cases hm
      cases h
      exact .unknown hp hu
    next n hp =>
      obtain ⟨hf, hm⟩ := Option.ite_none_right_eq_some.mp hm
      cases hm
      cases h
      exact .failed hp hf
    next => cases hm
  | fails message =>
    simp only [move] at hm
    split at hm
    next n hp =>
      cases hm
      cases h
      exact .fails hp
    next => cases hm
  | answered =>
    simp only [move] at hm
    split at hm
    next n hp =>
      obtain ⟨⟨hi, -⟩, hm⟩ := Option.ite_none_right_eq_some.mp hm
      cases hm
      cases h
      exact .answered hp hi
    next => cases hm
  | cancel a =>
    simp only [move, Option.ite_none_right_eq_some] at hm
    obtain ⟨⟨hp, ha⟩, hm⟩ := hm
    cases hm
    obtain ⟨s, hs, rfl⟩ := Option.map_eq_some_iff.mp h
    exact .cancel hp ha hs
  | cancelled =>
    simp only [move] at hm
    split at hm
    next called hp =>
      cases hm
      cases h
      exact .cancelled hp
    next => cases hm

/-! ### What a thread has counted -/

/-- Everything that has been sent has been counted, and no call is under way. -/
def Rested (G : Gateway S A Row) (s : S) (r : ReqResult) : Prop :=
  G.idle s = true ∧ G.last s = none ∧ r.rows = (G.log s).length

/-- What a result says of the gateway, by where the thread stands. -/
def Counts (G : Gateway S A Row) (args : CliArgs) (s : S) (r : ReqResult) : Pc → Prop
  | .submitting => r.ok = false ∧ Rested G s r
  | .ready => r.ok = false ∧ Rested G s r ∧ G.submitted s = true
  | .waiting n => r.ok = false ∧ (r.rows = n ∧ n ≤ (G.log s).length) ∧
      (G.last s ≠ none → G.idle s = true) ∧ G.submitted s = true
  | .cancelling _ => args.cancelAfter = true
  | .returned => r.ok = true → args.cancelAfter = false →
      G.idle s = true ∧ r.rows = (G.log s).length ∧
        (args.limitChunks < 0 → G.last s = some (r.ownersHit, r.ownersEligible))

/-- What a thread has counted is what has been sent to it. -/
def Counted (G : Gateway S A Row) (args : CliArgs) (x : Joint S Row) : Prop :=
  Counts G args x.server x.thread.result x.thread.pc

lemma counted_init (hG : Lawful G) : Counted G args ⟨G.init, {}⟩ :=
  ⟨rfl, hG.idle_init, hG.last_init, by rw [hG.log_init]; rfl⟩

lemma Counted.at {pc : Pc} (h : Counted G args x) (hp : x.thread.pc = pc) :
    Counts G args x.server x.thread.result pc := hp ▸ h

lemma counted_fail (hok : x.thread.result.ok = false) (err : String) :
    Counted G args ⟨x.server, x.thread.fail err⟩ :=
  fun h => absurd (hok.symm.trans h) Bool.false_ne_true

lemma counted_server (hG : Lawful G) (h : Counted G args x) {a : A} {s : S}
    (ha : G.starts a = false) (hs : G.step x.server a = some s) :
    Counted G args ⟨s, x.thread⟩ := by
  have hrested : Rested G x.server x.thread.result → Rested G s x.thread.result := by
    rintro ⟨hidle, hlast, hrows⟩
    obtain ⟨hidle', hlog, hlast'⟩ := (hG.keeps _ _ _ hs).rest ha hidle
    exact ⟨hidle', hlast'.trans hlast, by rw [hlog, hrows]⟩
  show Counts G args s x.thread.result x.thread.pc
  cases hp : x.thread.pc with
  | submitting =>
    obtain ⟨hok, hr⟩ := h.at hp
    exact ⟨hok, hrested hr⟩
  | ready =>
    obtain ⟨hok, hr, hsub⟩ := h.at hp
    exact ⟨hok, hrested hr, (hG.keeps _ _ _ hs).submitted hsub⟩
  | waiting n =>
    obtain ⟨hok, ⟨hrows, hle⟩, hends, hsub⟩ := h.at hp
    refine ⟨hok, ⟨hrows, hle.trans (hG.keeps _ _ _ hs).grows.length_le⟩, fun hne => ?_,
      (hG.keeps _ _ _ hs).submitted hsub⟩
    by_cases hlast : G.last x.server = none
    · exact (hG.keeps _ _ _ hs).ends hlast hne
    · exact ((hG.keeps _ _ _ hs).rest ha (hends hlast)).1
  | cancelling called => exact h.at hp
  | returned =>
    intro hok hc
    obtain ⟨hidle, hrows, hlimit⟩ := h.at hp hok hc
    obtain ⟨hidle', hlog, hlast'⟩ := (hG.keeps _ _ _ hs).rest ha hidle
    exact ⟨hidle', by rw [hlog, hrows], fun hl => hlast'.trans (hlimit hl)⟩

lemma next_spec (args : CliArgs) (r : ReqResult) (isLast : Bool) :
    (args.next r isLast = .cancel → args.cancelAfter = true) ∧
      (args.next r isLast = .abandon → 0 ≤ args.limitChunks) ∧
      (args.next r isLast = .finish → isLast = true) ∧
      (args.next r isLast = .fetch → isLast = false) := by
  unfold CliArgs.next
  split_ifs <;> simp_all

lemma count_rows {n : ℕ} (hrows : x.thread.result.rows = n)
    (hle : n ≤ (G.log x.server).length) :
    (x.thread.result.count size (chunkOf G x.server n)).rows = (G.log x.server).length := by
  show x.thread.result.rows + ((G.log x.server).drop n).length = _
  rw [List.length_drop]
  omega

lemma counted_got (h : Counted G args x) {n : ℕ} (hp : x.thread.pc = .waiting n)
    (hi : G.idle x.server = true) :
    Counted G args ⟨x.server, x.thread.got args size (chunkOf G x.server n)⟩ := by
  obtain ⟨hok, ⟨hrows, hle⟩, -, hsub⟩ := h.at hp
  have hall : (x.thread.result.count size (chunkOf G x.server n)).rows =
      (G.log x.server).length := count_rows hrows hle
  obtain ⟨hcancel, habandon, hfinish, hfetch⟩ := next_spec args
    (x.thread.result.count size (chunkOf G x.server n)) (chunkOf G x.server n).isLast
  unfold Thread.got
  dsimp only
  cases hnext : args.next (x.thread.result.count size (chunkOf G x.server n))
    (chunkOf G x.server n).isLast with
  | cancel => exact hcancel hnext
  | abandon => exact fun _ _ => ⟨hi, hall, fun hl => absurd (habandon hnext) (not_le.mpr hl)⟩
  | finish =>
    refine fun _ _ => ⟨hi, hall, fun _ => ?_⟩
    obtain ⟨p, hp⟩ := Option.isSome_iff_exists.mp (hfinish hnext)
    simp [chunkOf, hp]
  | fetch =>
    have hlast : G.last x.server = none := by simpa [chunkOf] using hfetch hnext
    exact ⟨hok, ⟨hi, hlast, hall⟩, hsub⟩

lemma counted_step (hG : Lawful G) (h : Counted G args x)
    (hst : jointStep G args size x m = some x') : Counted G args x' := by
  cases moves_of_step hst with
  | server ha _ hs => exact counted_server hG h ha hs
  | submitted hp hs =>
    obtain ⟨hok, hr⟩ := h.at hp
    exact ⟨hok, hr, hs⟩
  | refused hp => exact counted_fail (h.at hp).1 _
  | call hp hu hs =>
    obtain ⟨hok, ⟨-, hlast, hrows⟩, hsub⟩ := h.at hp
    exact ⟨hok, ⟨hrows, (hG.keeps _ _ _ hs).grows.length_le⟩, (hG.keeps _ _ _ hs).ends hlast,
      (hG.keeps _ _ _ hs).submitted hsub⟩
  | unknown hp => exact counted_fail (h.at hp).1 _
  | failed hp => exact counted_fail (h.at hp).1 _
  | fails hp => exact counted_fail (h.at hp).1 _
  | answered hp hi => exact counted_got h hp hi
  | cancel hp => exact h.at hp
  | cancelled hp =>
    intro _ hc
    exact absurd (hc.symm.trans (h.at hp)) Bool.false_ne_true

/-- **A thread has always counted what has been sent to it.** -/
theorem counted_of_reach (hG : Lawful G) {H : Joint S Row → Move A → Prop}
    (h : Reach (jointStep G args size) H ⟨G.init, {}⟩ x) : Counted G args x :=
  h.invariant (I := Counted G args) (counted_init hG) fun _ _ _ _ hi _ hst =>
    counted_step hG hi hst

/-! ### What a thread has printed -/

/-- A thread has printed the first of the rows it has counted. -/
structure Prints (G : Gateway S A Row) (args : CliArgs) (x : Joint S Row) : Prop where
  le : x.thread.result.rows ≤ (G.log x.server).length
  eq : (G.log x.server).length < 2 ^ 31 → x.thread.printed =
    ((G.log x.server).take x.thread.result.rows).take args.printRows.toNat

lemma take_take_append {l : List Row} {p : ℤ} {n : ℕ} (hp : 0 < p) :
    (l.take n).take p.toNat ++
      (l.drop n).take (min (max 0 (p - n)) ((l.drop n).length : ℤ)).toNat =
      l.take p.toNat := by
  rcases le_or_gt p n with hle | hlt
  · have hzero : (min (max 0 (p - n)) ((l.drop n).length : ℤ)).toNat = 0 := by omega
    rw [hzero, List.take_zero, List.append_nil, List.take_take, min_eq_left (by omega)]
  · have hsum : p.toNat = n + (p - n).toNat := by omega
    have htake : (l.drop n).take (min (max 0 (p - n)) ((l.drop n).length : ℤ)).toNat =
        (l.drop n).take (p - n).toNat := by
      rw [List.take_eq_take_iff]
      omega
    rw [htake, List.take_take, min_eq_right (by omega), hsum, List.take_add]

lemma prints_got (hc : Counted G args x) (h : Prints G args x) {n : ℕ}
    (hp : x.thread.pc = .waiting n) :
    Prints G args ⟨x.server, x.thread.got args size (chunkOf G x.server n)⟩ := by
  obtain ⟨-, ⟨hrows, hle⟩, -⟩ := hc.at hp
  have hall : (x.thread.result.count size (chunkOf G x.server n)).rows =
      (G.log x.server).length := count_rows hrows hle
  have hresult : (x.thread.got args size (chunkOf G x.server n)).result.rows =
      (G.log x.server).length := by
    unfold Thread.got
    dsimp only
    split <;> exact hall
  have hprinted : (x.thread.got args size (chunkOf G x.server n)).printed = x.thread.printed ++
      args.toPrint (x.thread.result.count size (chunkOf G x.server n)) (chunkOf G x.server n) := by
    unfold Thread.got
    dsimp only
    split <;> rfl
  refine ⟨hresult.le, fun hlt => ?_⟩
  have hlt : (G.log x.server).length < 2 ^ 31 := hlt
  show (x.thread.got args size (chunkOf G x.server n)).printed = _
  rw [hprinted, h.eq hlt, hresult, List.take_length, hrows]
  unfold CliArgs.toPrint
  by_cases hpos : 0 < args.printRows
  · rw [if_pos hpos, hall]
    have hlen : ((chunkOf G x.server n).rows.length : ℤ) = (G.log x.server).length - n := by
      show (((G.log x.server).drop n).length : ℤ) = _
      rw [List.length_drop]
      omega
    have halready : (((G.log x.server).length : ℤ) - (chunkOf G x.server n).rows.length).bmod
        (2 ^ 32) = n := by
      rw [hlen, sub_sub_cancel]
      exact Int.bmod_eq_of_le (by omega) (by omega)
    dsimp only
    rw [halready]
    exact take_take_append hpos
  · rw [if_neg hpos, show args.printRows.toNat = 0 by omega, List.take_zero, List.take_zero,
      List.append_nil]

lemma prints_step (hG : Lawful G) (hc : Counted G args x) (h : Prints G args x)
    (hst : jointStep G args size x m = some x') : Prints G args x' := by
  have hgrow : ∀ {a : A} {s : S} {k : Thread Row}, G.step x.server a = some s →
      k.result = x.thread.result → k.printed = x.thread.printed → Prints G args ⟨s, k⟩ := by
    intro a s k hs hresult hprinted
    obtain ⟨new, hnew⟩ := (hG.keeps _ _ _ hs).grows
    have hle : (G.log x.server).length ≤ (G.log s).length := (hG.keeps _ _ _ hs).grows.length_le
    refine ⟨?_, fun hlt => ?_⟩
    · show k.result.rows ≤ (G.log s).length
      rw [hresult]
      exact h.le.trans hle
    · show k.printed = _
      rw [hprinted, h.eq (hle.trans_lt hlt), hresult, ← hnew, List.take_append_of_le_length h.le]
  cases moves_of_step hst with
  | server _ _ hs => exact hgrow hs rfl rfl
  | call _ _ hs => exact hgrow hs rfl rfl
  | cancel _ _ hs => exact hgrow hs rfl rfl
  | answered hp => exact prints_got hc h hp
  | _ => exact ⟨h.le, h.eq⟩

theorem prints_of_reach (hG : Lawful G) {H : Joint S Row → Move A → Prop}
    (h : Reach (jointStep G args size) H ⟨G.init, {}⟩ x) : Prints G args x := by
  refine h.invariant (I := Prints G args) ⟨Nat.zero_le _, fun _ => ?_⟩
    fun _ _ _ hr hi _ hst => prints_step hG (counted_of_reach hG hr) hi hst
  simp

/-! ### All threads -/

/-- The requests at the nodes, and the threads of the client, one for each request. -/
structure Clients (R I Row : Type) where
  requests : R
  thread : I → Thread Row

variable {R I : Type} [DecidableEq I]

section System

variable (G : I → Gateway S A Row) (args : CliArgs) (size : Chunk Row → ℕ)
  (stepOf : R → I × A → Option R) (request : R → I → S)

/-- A move of one thread; the step of the gateway that belongs to it is one of all requests. -/
def clientsStep (X : Clients R I Row) (a : I × Move A) : Option (Clients R I Row) :=
  (move (G a.1) args size (request X.requests a.1) (X.thread a.1) a.2).bind fun p =>
    match p.1 with
    | none => some { X with thread := Function.update X.thread a.1 p.2 }
    | some act => (stepOf X.requests (a.1, act)).map fun R =>
        ⟨R, Function.update X.thread a.1 p.2⟩

def joint (X : Clients R I Row) (i : I) : Joint S Row := ⟨request X.requests i, X.thread i⟩

/-- A step of all requests is one of one request. -/
def Componentwise : Prop := ∀ R a R', stepOf R a = some R' →
  ∃ s, (G a.1).step (request R a.1) a.2 = some s ∧
    request R' = Function.update (request R) a.1 s

end System

variable {G : I → Gateway S A Row} {stepOf : R → I × A → Option R} {request : R → I → S}
  {X X' : Clients R I Row} {H : Clients R I Row → I × Move A → Prop}

lemma joint_clientsStep (hcomp : Componentwise G stepOf request) {a : I × Move A}
    (h : clientsStep G args size stepOf request X a = some X') :
    ∃ x, jointStep (G a.1) args size (joint request X a.1) a.2 = some x ∧
      joint request X' = Function.update (joint request X) a.1 x := by
  obtain ⟨⟨act, k⟩, hm, h⟩ := Option.bind_eq_some_iff.mp h
  cases act with
  | none =>
    cases h
    refine ⟨_, Option.bind_eq_some_iff.mpr ⟨_, hm, rfl⟩, funext fun i => ?_⟩
    by_cases hi : i = a.1
    · subst hi
      simp [joint]
    · simp [joint, hi]
  | some b =>
    obtain ⟨R', hR, rfl⟩ := Option.map_eq_some_iff.mp h
    obtain ⟨s, hs, hreq⟩ := hcomp _ _ _ hR
    refine ⟨⟨s, k⟩, Option.bind_eq_some_iff.mpr ⟨_, hm, Option.map_eq_some_iff.mpr ⟨s, hs, rfl⟩⟩,
      funext fun i => ?_⟩
    by_cases hi : i = a.1
    · subst hi
      simp [joint, hreq]
    · simp [joint, hreq, hi]

variable {R₀ : R}

lemma joint_reach (hcomp : Componentwise G stepOf request)
    (hinit : ∀ i, request R₀ i = (G i).init)
    (h : Reach (clientsStep G args size stepOf request) H ⟨R₀, fun _ => {}⟩ X) (i : I) :
    Reach (jointStep (G i) args size) (fun _ _ => True) ⟨(G i).init, {}⟩ (joint request X i) := by
  have hreach := h.component (joint request) (fun i => jointStep (G i) args size)
    (fun _ _ _ => True)
    (fun _ a _ _ _ hst => ⟨a.1, a.2, trivial, joint_clientsStep hcomp hst⟩) i
  rwa [show joint request ⟨R₀, fun _ => {}⟩ i = ⟨(G i).init, {}⟩ by rw [joint, hinit]] at hreach

lemma requests_reach {K : R → I × A → Prop}
    (hK : ∀ X a, Reach (clientsStep G args size stepOf request) H ⟨R₀, fun _ => {}⟩ X → H X a →
      ∀ act k, move (G a.1) args size (request X.requests a.1) (X.thread a.1) a.2 =
        some (some act, k) → K X.requests (a.1, act))
    (h : Reach (clientsStep G args size stepOf request) H ⟨R₀, fun _ => {}⟩ X) :
    Reach stepOf K R₀ X.requests := by
  induction h with
  | init => exact .init
  | @step X X' a hr hH hst ih =>
    obtain ⟨⟨act, k⟩, hm, h⟩ := Option.bind_eq_some_iff.mp hst
    cases act with
    | none =>
      cases h
      exact ih
    | some act =>
      obtain ⟨R', hR, rfl⟩ := Option.map_eq_some_iff.mp h
      exact .step ih (hK X a hr hH act k hm) hR

/-! ### Runs in which every call is answered -/

/-- Every call of the client is answered, and the gateway's own calls are as `K` says. -/
def CallsAnswered (K : R → I × A → Prop) (X : Clients R I Row) (a : I × Move A) : Prop :=
  match a.2 with
  | .refused _ => False
  | .fails _ => False
  | .server act => K X.requests (a.1, act)
  | _ => True

/-- What the client relies on where every call is answered: the gateway knows the request as long
as its stream has not ended, and no `FetchChunk` ends without a chunk. -/
structure Reliant (G : I → Gateway S A Row) (stepOf : R → I × A → Option R) (request : R → I → S)
    (R₀ : R) (K : R → I × A → Prop) : Prop where
  lawful : ∀ i, Lawful (G i)
  componentwise : Componentwise G stepOf request
  init : ∀ i, request R₀ i = (G i).init
  starts : ∀ R i a, (G i).starts a = true → (G i).submitted (request R i) = true → K R (i, a)
  known : ∀ R, Reach stepOf K R₀ R → ∀ i, (G i).submitted (request R i) = true →
    (G i).idle (request R i) = true → (G i).last (request R i) = none →
    (G i).unknown (request R i) = false
  sound : ∀ R, Reach stepOf K R₀ R → ∀ i, (G i).failed (request R i) = false

variable {K : R → I × A → Prop}

/-- A client that does not cancel leaves the requests to a run of their own. -/
lemma Reliant.requests (hG : Reliant G stepOf request R₀ K) (hc : args.cancelAfter = false)
    (h : Reach (clientsStep G args size stepOf request) (CallsAnswered K) ⟨R₀, fun _ => {}⟩ X) :
    Reach stepOf K R₀ X.requests := by
  refine requests_reach (fun X a hr hH act k hm => ?_) h
  have hcount := counted_of_reach (hG.lawful a.1) (joint_reach hG.componentwise hG.init hr a.1)
  obtain ⟨i, m⟩ := a
  cases m with
  | server b =>
    simp only [move, Option.ite_none_left_eq_some] at hm
    obtain rfl : b = act := Option.some.inj (congrArg Prod.fst (Option.some.inj hm.2))
    exact hH
  | call b =>
    simp only [move, Option.ite_none_right_eq_some] at hm
    obtain ⟨⟨hp, hs, -⟩, hm⟩ := hm
    obtain rfl : b = act := Option.some.inj (congrArg Prod.fst (Option.some.inj hm))
    exact hG.starts _ _ _ hs (hcount.at hp).2.2
  | cancel b =>
    simp only [move, Option.ite_none_right_eq_some] at hm
    exact absurd (hc.symm.trans (hcount.at hm.1.1)) Bool.false_ne_true
  | submitted =>
    simp only [move, Option.ite_none_right_eq_some] at hm
    cases hm.2
  | refused => exact hH.elim
  | fails => exact hH.elim
  | unknown message =>
    simp only [move] at hm
    split at hm
    · cases (Option.ite_none_right_eq_some.mp hm).2
    · cases (Option.ite_none_right_eq_some.mp hm).2
    · cases hm
  | answered =>
    simp only [move] at hm
    split at hm
    · cases (Option.ite_none_right_eq_some.mp hm).2
    · cases hm
  | cancelled =>
    simp only [move] at hm
    split at hm
    · cases hm
    · cases hm

/-- **Every request that has returned has ended well.** -/
theorem Reliant.ok (hG : Reliant G stepOf request R₀ K) (hc : args.cancelAfter = false)
    (h : Reach (clientsStep G args size stepOf request) (CallsAnswered K) ⟨R₀, fun _ => {}⟩ X)
    (i : I) (hp : (X.thread i).pc = .returned) : (X.thread i).result.ok = true := by
  have hall : ∀ i, (X.thread i).pc = .returned → (X.thread i).result.ok = true := by
    refine h.invariant (I := fun X => ∀ i, (X.thread i).pc = .returned →
      (X.thread i).result.ok = true) (fun i hp => by cases hp) ?_
    intro X a X' hr hi hH hst j hp
    obtain ⟨x, hx, hjoint⟩ := joint_clientsStep hG.componentwise hst
    have hthread : X'.thread j = (joint request X' j).thread := rfl
    rw [hthread, hjoint] at hp ⊢
    by_cases hj : j = a.1
    · subst hj
      rw [Function.update_self] at hp ⊢
      have hcount := counted_of_reach (hG.lawful a.1) (joint_reach hG.componentwise hG.init hr a.1)
      have hreq := hG.requests hc hr
      obtain ⟨i, m⟩ := a
      cases moves_of_step hx with
      | server => exact hi i hp
      | submitted => cases hp
      | refused => exact hH.elim
      | call => cases hp
      | unknown hready hu =>
        obtain ⟨-, ⟨hidle, hlast, -⟩, hsub⟩ := hcount.at hready
        exact absurd (hG.known _ hreq i hsub hidle hlast ▸ hu) Bool.false_ne_true
      | failed _ hf => exact absurd (hG.sound _ hreq i ▸ hf) Bool.false_ne_true
      | fails => exact hH.elim
      | @answered n hwait =>
        revert hp
        unfold Thread.got
        dsimp only
        split
        · exact fun hp => by cases hp
        · exact fun _ => rfl
        · exact fun _ => rfl
        · exact fun hp => by cases hp
      | cancel => cases hp
      | cancelled => rfl
    · rw [Function.update_of_ne hj] at hp ⊢
      exact hi j hp
  exact hall i hp

end Mini2.Session
