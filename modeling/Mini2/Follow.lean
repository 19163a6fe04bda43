import Mini2.Course
import Mini2.Progress
import Mini2.Resubmit

/-!
All `SubmitQuery`s of a request seen as one, which is always as far as the first of them, and all
prefetchers of an owner as one. As long as no owner gets the request back and no two prefetchers
ask for the same chunk, the others change nothing that the nodes could tell from it.
-/

namespace Mini2.Follow

open Mini2.Proto Mini2.Net Mini2.Request Mini2.Producer Mini2.Gather Mini2.GatherSteps
open Mini2.GatherShape Mini2.Runs Mini2.Lane Mini2.Finish Mini2.Forwarded Mini2.Delivery
open Mini2.ExactlyOnce Mini2.Progress Mini2.Traces Mini2.Course Mini2.Resubmit

variable {N Query Row : Type}

/-- The one `SubmitQuery` that stands for all: its place, its forwards and its prefetchers, and the
owners that are done if the flags are set by this one only. -/
structure Single (N : Type) where
  submit : SubmitPc
  done : N → Bool
  fwd : List (ForwardCall N)
  thread : ℕ → ThreadPc

/-- The request, had it been submitted by `v` only. -/
def Single.on (v : Single N) (s : Sys N Row) : Sys N Row :=
  { s with
    submit := v.submit
    gate := { s.gate with clientProducersDone := v.done }
    fwd := v.fwd
    thread := v.thread }

/-- `SubmitQuery` at `pc` is not further than at `pc'`. -/
def Behind (pc pc' : SubmitPc) : Prop :=
  phase pc < phase pc' ∨ phase pc = phase pc' ∧ spot pc ≤ spot pc'

/-- The prefetchers of the `k`-th owner ask for nothing any more. -/
def Spent (c : Config N Query Row) (q : Query) (s : Sys N Row) (k : ℕ) : Prop :=
  s.gate.prefetchStop = true ∨ ∃ o ∈ (c.eligible q)[k]?, s.gate.prefetchDone o = true

/-- What the prefetchers `pool` of one owner are to the one that stands for them; at most one of
them waits for a call. -/
def Merged (spent : Prop) (pool : ℕ → ThreadPc) : ThreadPc → Prop
  | .absent => ∀ j, pool j = .absent
  | .starting => (∀ j, pool j = .absent ∨ pool j = .starting) ∧ ∃ j, pool j = .starting
  | .waiting => (∀ j i, pool j ≠ .pulling i) ∧ ∃ j, pool j = .waiting
  | .pulling i => ∃ j, pool j = .pulling i ∧ ∀ j' i', pool j' = .pulling i' → j' = j
  | .returned => (∀ j i, pool j ≠ .pulling i) ∧ spent

variable [DecidableEq N]

structure Tracks (c : Config N Query Row) (q : Query) (x : ReSys N Row) (v : Single N) :
    Prop where
  behind : ∀ j, Behind (x.submit j) v.submit
  ahead : v.submit = .idle ∨ ∃ j < x.calls, Behind v.submit (x.submit j)
  unborn : ∀ j, x.calls ≤ j → x.submit j = .idle
  begun : v.submit = .idle ∨ 1 ≤ phase v.submit ∧ 0 < (x.sys.node c.gateway).gens
  awaiting : ∀ j k a f, x.submit j = .awaiting k a f →
    ∃ p, x.sys.fwd[f]? = some p ∧ (c.eligible q)[k]? = some p.owner ∧ Arrives c x.sys p
  sent : ∀ p ∈ x.sys.fwd, p.owner ≠ c.gateway ∧
    ∃ k, (c.eligible q)[k]? = some p.owner ∧ Asked v.submit k
  told : ∀ k a f p, v.submit = .awaiting k a f → v.fwd[f]? = some p →
    0 < (x.sys.node p.owner).gens → answered p.stage = true

structure Pooled (c : Config N Query Row) (q : Query) (x : ReSys N Row) (v : Single N) :
    Prop where
  spawned : ∀ j k, x.thread j k ≠ .absent → Passed (x.submit j) k
  merged : ∀ k, Merged (Spent c q x.sys k) (fun j => x.thread j k) (v.thread k)

structure Follows (c : Config N Query Row) (q : Query) (x : ReSys N Row) (v : Single N) :
    Prop where
  once : x.renewed = false
  done : ∀ o, x.sys.gate.clientProducersDone o = true → v.done o = true
  spare : ∀ o ∈ c.overlay.dataOwners, o ∉ c.eligible q → v.done o = true →
    x.sys.gate.clientProducersDone o = true
  tracks : Tracks c q x v
  pooled : Pooled c q x v

variable {c : Config N Query Row} {q : Query} {x : ReSys N Row} {v : Single N}

def Single.init (N : Type) : Single N := ⟨.idle, fun _ => false, [], fun _ => .absent⟩

lemma follows_init : Follows c q (reInit N Row) (Single.init N) where
  once := rfl
  done _ h := h
  spare _ _ _ h := h
  tracks :=
    { behind := fun j => .inr ⟨rfl, le_rfl⟩
      ahead := .inl rfl
      unborn := fun j _ => rfl
      begun := .inl rfl
      awaiting := fun j k a f h => by cases h
      sent := fun p hp => by cases hp
      told := fun k a f p h => by cases h }
  pooled :=
    { spawned := fun j k h => absurd rfl h
      merged := fun k j => rfl }

/-! ### Places -/

lemma Behind.refl (pc : SubmitPc) : Behind pc pc := .inr ⟨rfl, le_rfl⟩

lemma Behind.trans {p₁ p₂ p₃ : SubmitPc} (h : Behind p₁ p₂) (h' : Behind p₂ p₃) :
    Behind p₁ p₃ := by
  unfold Behind at *
  omega

lemma behind_of_le {pc pc' : SubmitPc} (hs : spot pc = 0) (h : phase pc ≤ phase pc') :
    Behind pc pc' := by
  unfold Behind
  omega

lemma behind_forwarding {k a : ℕ} {pc : SubmitPc} :
    Behind (.forwarding k a) pc ↔ 2 < phase pc ∨ 2 = phase pc ∧ 2 * k ≤ spot pc := Iff.rfl

lemma behind_awaiting {k a f : ℕ} {pc : SubmitPc} :
    Behind (.awaiting k a f) pc ↔ 2 < phase pc ∨ 2 = phase pc ∧ 2 * k + 1 ≤ spot pc := Iff.rfl

lemma behind_spawning {k : ℕ} {pc : SubmitPc} :
    Behind (.spawning k) pc ↔ 3 < phase pc ∨ 3 = phase pc ∧ k ≤ spot pc := Iff.rfl

lemma phase_le (pc : SubmitPc) : phase pc ≤ 4 := by
  cases pc <;> simp [phase]

lemma Behind.asked {pc pc' : SubmitPc} (h : Behind pc pc') {k : ℕ} (hk : Asked pc k) :
    Asked pc' k := by
  unfold Behind at h
  unfold Asked at *
  omega

lemma Behind.passed {pc pc' : SubmitPc} (h : Behind pc pc') {k : ℕ} (hk : Passed pc k) :
    Passed pc' k := by
  have hle := phase_le pc'
  unfold Behind at h
  unfold Passed at *
  omega

lemma eq_registered {pc : SubmitPc} (h : phase pc = 1) : pc = .registered := by
  cases pc <;> first | rfl | simp [phase] at h

lemma exists_forwarding (pc : SubmitPc) {k : ℕ} (h : phase pc = 2) (hs : spot pc = 2 * k) :
    ∃ a, pc = .forwarding k a := by
  cases pc with
  | forwarding k' a =>
    obtain rfl : k' = k := by simpa [spot] using hs
    exact ⟨a, rfl⟩
  | awaiting k' a f =>
    simp only [spot] at hs
    omega
  | _ => simp [phase] at h

lemma exists_awaiting (pc : SubmitPc) {k : ℕ} (h : phase pc = 2) (hs : spot pc = 2 * k + 1) :
    ∃ a f, pc = .awaiting k a f := by
  cases pc with
  | awaiting k' a f =>
    obtain rfl : k' = k := by simpa [spot] using hs
    exact ⟨a, f, rfl⟩
  | forwarding k' a =>
    simp only [spot] at hs
    omega
  | _ => simp [phase] at h

lemma eq_returned {pc : SubmitPc} (h : phase pc = 4) : pc = .returned := by
  cases pc <;> first | rfl | simp [phase] at h

lemma exists_spawning (pc : SubmitPc) (h : phase pc = 3) : pc = .spawning (spot pc) := by
  cases pc <;> first | rfl | simp [phase] at h

/-! ### The prefetchers of one owner -/

section Pool

variable {spent spent' : Prop} {pool : ℕ → ThreadPc} {rep : ThreadPc} {j i : ℕ}

lemma Merged.mono (h : Merged spent pool rep) (hs : spent → spent') : Merged spent' pool rep := by
  cases rep with
  | returned => exact ⟨h.1, hs h.2⟩
  | _ => exact h

lemma pulling_of_update {pc : ThreadPc} (hpc : ∀ i, pc ≠ .pulling i) {j' i' : ℕ}
    (h : Function.update pool j pc j' = .pulling i') : pool j' = .pulling i' ∧ j' ≠ j := by
  by_cases hjj : j' = j
  · subst hjj
    rw [Function.update_self] at h
    exact absurd h (hpc i')
  · rw [Function.update_of_ne hjj] at h
    exact ⟨h, hjj⟩

lemma update_eq {pc pc' : ThreadPc} {j' : ℕ} (h : pool j' = pc') (hj : pool j ≠ pc') :
    Function.update pool j pc j' = pc' := by
  have hne : j' ≠ j := by
    rintro rfl
    exact hj h
  rw [Function.update_of_ne hne, h]

lemma Merged.join (h : Merged spent pool rep) (hj : pool j = .absent) (hrep : rep ≠ .absent) :
    Merged spent (Function.update pool j .starting) rep := by
  have hpull : ∀ {j' i'}, Function.update pool j .starting j' = .pulling i' →
      pool j' = .pulling i' := fun hp => (pulling_of_update (by simp) hp).1
  cases rep with
  | absent => exact absurd rfl hrep
  | starting =>
    refine ⟨fun j' => ?_, j, Function.update_self ..⟩
    by_cases hjj : j' = j
    · subst hjj
      exact .inr (Function.update_self ..)
    · rw [Function.update_of_ne hjj]
      exact h.1 j'
  | waiting =>
    obtain ⟨hno, j', hw⟩ := h
    exact ⟨fun j' i' hp => hno j' i' (hpull hp), j', update_eq hw (by simp [hj])⟩
  | pulling i =>
    obtain ⟨j', hp, hone⟩ := h
    exact ⟨j', update_eq hp (by simp [hj]), fun j'' i' hp' => hone j'' i' (hpull hp')⟩
  | returned => exact ⟨fun j' i' hp => h.1 j' i' (hpull hp), h.2⟩

lemma Merged.spawn (h : Merged spent pool .absent) (j : ℕ) :
    Merged spent (Function.update pool j .starting) .starting := by
  refine ⟨fun j' => ?_, j, Function.update_self ..⟩
  by_cases hjj : j' = j
  · subst hjj
    exact .inr (Function.update_self ..)
  · rw [Function.update_of_ne hjj]
    exact .inl (h j')

lemma Merged.start (h : Merged spent pool rep) (hj : pool j = .starting) :
    rep = .starting ∧ Merged spent (Function.update pool j .waiting) .waiting ∨
      Merged spent (Function.update pool j .waiting) rep := by
  have hpull : ∀ {j' i'}, Function.update pool j .waiting j' = .pulling i' →
      pool j' = .pulling i' := fun hp => (pulling_of_update (by simp) hp).1
  cases rep with
  | absent =>
    rw [h j] at hj
    cases hj
  | starting =>
    refine .inl ⟨rfl, fun j' i' hp => ?_, j, Function.update_self ..⟩
    rcases h.1 j' with h' | h' <;> rw [hpull hp] at h' <;> cases h'
  | waiting => exact .inr ⟨fun j' i' hp => h.1 j' i' (hpull hp), j, Function.update_self ..⟩
  | pulling i =>
    obtain ⟨j', hp, hone⟩ := h
    exact .inr ⟨j', update_eq hp (by simp [hj]), fun j'' i' hp' => hone j'' i' (hpull hp')⟩
  | returned => exact .inr ⟨fun j' i' hp => h.1 j' i' (hpull hp), h.2⟩

lemma Merged.stop (h : Merged spent pool rep) (hj : pool j = .waiting) (hs : spent) :
    rep = .waiting ∧ Merged spent (Function.update pool j .returned) .returned ∨
      Merged spent (Function.update pool j .returned) rep := by
  have hpull : ∀ {j' i'}, Function.update pool j .returned j' = .pulling i' →
      pool j' = .pulling i' := fun hp => (pulling_of_update (by simp) hp).1
  cases rep with
  | absent =>
    rw [h j] at hj
    cases hj
  | starting =>
    rcases h.1 j with h' | h' <;> rw [hj] at h' <;> cases h'
  | waiting => exact .inl ⟨rfl, fun j' i' hp => h.1 j' i' (hpull hp), hs⟩
  | pulling i =>
    obtain ⟨j', hp, hone⟩ := h
    exact .inr ⟨j', update_eq hp (by simp [hj]), fun j'' i' hp' => hone j'' i' (hpull hp')⟩
  | returned => exact .inr ⟨fun j' i' hp => h.1 j' i' (hpull hp), h.2⟩

/-- A prefetcher that waits for a call is the only one, and stands for all. -/
lemma Merged.pulling (h : Merged spent pool rep) (hj : pool j = .pulling i) :
    rep = .pulling i ∧ ∀ j' i', pool j' = .pulling i' → j' = j := by
  cases rep with
  | absent =>
    rw [h j] at hj
    cases hj
  | starting =>
    rcases h.1 j with h' | h' <;> rw [hj] at h' <;> cases h'
  | waiting => exact absurd hj (h.1 j i)
  | pulling i' =>
    obtain ⟨j', hp, hone⟩ := h
    obtain rfl := hone j i hj
    exact ⟨hp.symm.trans hj, hone⟩
  | returned => exact absurd hj (h.1 j i)

lemma Merged.issue (h : Merged spent pool rep) (hj : pool j = .waiting) (hs : ¬ spent)
    (hno : ∀ j' i', pool j' ≠ .pulling i') (i : ℕ) :
    rep = .waiting ∧ Merged spent (Function.update pool j (.pulling i)) (.pulling i) := by
  have hmerged : Merged spent (Function.update pool j (.pulling i)) (.pulling i) := by
    refine ⟨j, Function.update_self .., fun j' i' hp => ?_⟩
    by_contra hjj
    rw [Function.update_of_ne hjj] at hp
    exact hno j' i' hp
  cases rep with
  | absent =>
    rw [h j] at hj
    cases hj
  | starting =>
    rcases h.1 j with h' | h' <;> rw [hj] at h' <;> cases h'
  | waiting => exact ⟨rfl, hmerged⟩
  | pulling i' =>
    obtain ⟨j', hp, -⟩ := h
    exact absurd hp (hno j' i')
  | returned => exact absurd h.2 hs

lemma Merged.receive (h : Merged spent pool rep) (hj : pool j = .pulling i) {pc : ThreadPc}
    (hpc : pc = .waiting ∨ pc = .returned ∧ spent') :
    Merged spent' (Function.update pool j pc) pc := by
  have hone := (h.pulling hj).2
  have hnone : ∀ j' i', Function.update pool j pc j' ≠ .pulling i' := by
    intro j' i' hp
    obtain ⟨hp, hjj⟩ := pulling_of_update (by rcases hpc with rfl | ⟨rfl, -⟩ <;> simp) hp
    exact hjj (hone j' i' hp)
  rcases hpc with rfl | ⟨rfl, hs⟩
  · exact ⟨hnone, j, Function.update_self ..⟩
  · exact ⟨hnone, hs⟩

lemma Merged.joined (h : Merged spent pool rep)
    (hj : ∀ j, pool j = .absent ∨ pool j = .returned) : rep = .absent ∨ rep = .returned := by
  have hnone : ∀ {j pc}, pool j = pc → pc = .absent ∨ pc = .returned := fun hp => hp ▸ hj _
  cases rep with
  | absent => exact .inl rfl
  | returned => exact .inr rfl
  | starting => exact hnone h.2.choose_spec
  | waiting => exact hnone h.2.choose_spec
  | pulling i => exact hnone h.choose_spec.1

end Pool

/-! ### Steps on what all calls share -/

variable (c q) in
/-- The request can be in this state with one `SubmitQuery`, too. -/
def Followed (x : ReSys N Row) : Prop :=
  ∃ v : Single N, Reach (step c q) (fun _ a => AllAnswered a) (init N Row) (v.on x.sys) ∧
    Follows c q x v

lemma arrives_mono {s s' : Sys N Row} {p : ForwardCall N} (h : Arrives c s p)
    (hg : ∀ n, (s.node n).gens ≤ (s'.node n).gens) : Arrives c s' p := by
  unfold Arrives at h ⊢
  split
  next n ttl hp =>
    rw [hp] at h
    exact h
  next code hp =>
    rw [hp] at h
    exact ⟨h.1, h.2.trans_le (hg _)⟩

lemma Tracks.frame (h : Tracks c q x v) {s' : Sys N Row} (hfwd : s'.fwd = x.sys.fwd)
    (hg : ∀ n, (s'.node n).gens = (x.sys.node n).gens) :
    Tracks c q { x with sys := s' } v where
  behind := h.behind
  ahead := h.ahead
  unborn := h.unborn
  begun := by
    rw [hg]
    exact h.begun
  awaiting j k a f hs := by
    obtain ⟨p, hp, hk, harr⟩ := h.awaiting j k a f hs
    exact ⟨p, hfwd ▸ hp, hk, arrives_mono harr fun n => (hg n).ge⟩
  sent p hp := h.sent p (hfwd ▸ hp)
  told k a f p hs hp hpos := h.told k a f p hs hp (hg _ ▸ hpos)

omit [DecidableEq N] in
lemma Spent.mono {s s' : Sys N Row} {k : ℕ} (h : Spent c q s k)
    (hstop : s.gate.prefetchStop = true → s'.gate.prefetchStop = true)
    (hdone : ∀ o, s.gate.prefetchDone o = true → s'.gate.prefetchDone o = true) :
    Spent c q s' k := by
  rcases h with h | ⟨o, ho, hd⟩
  · exact .inl (hstop h)
  · exact .inr ⟨o, ho, hdone o hd⟩

lemma Follows.lt_calls (h : Follows c q x v) {j k : ℕ} (ht : x.thread j k ≠ .absent) :
    j < x.calls := by
  by_contra hlt
  have hp := h.pooled.spawned j k ht
  rw [h.tracks.unborn j (Nat.le_of_not_lt hlt)] at hp
  rcases hp with ⟨hp, -⟩ | hp <;> cases hp

lemma Follows.frame (h : Follows c q x v) {s' : Sys N Row} (hfwd : s'.fwd = x.sys.fwd)
    (hg : ∀ n, (s'.node n).gens = (x.sys.node n).gens)
    (hflags : s'.gate.clientProducersDone = x.sys.gate.clientProducersDone)
    (hstop : x.sys.gate.prefetchStop = true → s'.gate.prefetchStop = true)
    (hdone : s'.gate.prefetchDone = x.sys.gate.prefetchDone) :
    Follows c q { x with sys := s' } v where
  once := h.once
  done o hd := h.done o (hflags ▸ hd)
  spare o ho he hd := by
    rw [hflags]
    exact h.spare o ho he hd
  tracks := h.tracks.frame hfwd hg
  pooled :=
    { spawned := h.pooled.spawned
      merged := fun k => (h.pooled.merged k).mono fun hs =>
        hs.mono hstop fun o hd => by rwa [hdone] }

lemma pullStep_on (v : Single N) (s : Sys N Row) (i : ℕ) (a : PullAct) :
    pullStep c (v.on s) i a = (pullStep c s i a).map v.on := by
  have hpull : (v.on s).pull = s.pull := rfl
  have hnode : (v.on s).node = s.node := rfl
  unfold pullStep
  rw [hpull, hnode]
  cases s.pull[i]? with
  | none => rfl
  | some p =>
    obtain ⟨o, stage⟩ := p
    cases stage <;> cases a <;> try rfl
    case at.handle n =>
      simp only
      cases c.overlay.toward o n with
      | here =>
        cases (s.node o).table with
        | none => rfl
        | some g =>
          simp only
          split <;> rfl
      | _ => rfl
    case decided.reply g out isLast =>
      cases isLast with
      | true =>
        simp only [if_true]
        cases c.overlay.impl o <;> rfl
      | false => rfl

/-- Most of `FetchChunk` looks at nothing that is different. -/
lemma fetchStep_on (v : Single N) (s : Sys N Row) {a : FetchAct} (hd : ∀ m, a ≠ .drain m)
    (hf : a ≠ .finish) : fetchStep c q (v.on s) a = (fetchStep c q s a).map v.on := by
  cases a with
  | start =>
    unfold fetchStep
    simp only
    rw [apply_ite (Option.map v.on)]
    rfl
  | drain m => exact absurd rfl (hd m)
  | count =>
    unfold fetchStep
    simp only
    rw [apply_ite (Option.map v.on)]
    rfl
  | erase =>
    have hfetch : (v.on s).fetch = s.fetch := rfl
    unfold fetchStep
    simp only [hfetch]
    cases s.fetch with
    | counted hit eligible =>
      simp only
      rw [apply_ite (Option.map v.on)]
      rfl
    | _ => rfl
  | finish => exact absurd rfl hf

section Steps

variable (hreach : Reach (step c q) (fun _ a => AllAnswered a) (init N Row) (v.on x.sys))
  (h : Follows c q x v)

include hreach h

lemma followed_call : Followed c q { x with calls := x.calls + 1 } := by
  refine ⟨v, hreach, h.once, h.done, h.spare, ?_, h.pooled.spawned, h.pooled.merged⟩
  have ht := h.tracks
  refine ⟨ht.behind, ht.ahead.imp_right ?_, fun j hj => ht.unborn j (Nat.le_of_succ_le hj),
    ht.begun, ht.awaiting, ht.sent, ht.told⟩
  rintro ⟨j, hj, hb⟩
  exact ⟨j, Nat.lt_succ_of_lt hj, hb⟩

/-- A forward that is sent once more is for an owner that has been sent one. -/
lemma followed_again {p p' : ForwardCall N} (hp : p ∈ x.sys.fwd) (ho : p'.owner = p.owner) :
    Followed c q { x with sys := { x.sys with fwd := x.sys.fwd ++ [p'] } } := by
  refine ⟨v, hreach, h.once, h.done, h.spare, ?_, h.pooled.spawned, h.pooled.merged⟩
  have ht := h.tracks
  refine ⟨ht.behind, ht.ahead, ht.unborn, ht.begun, fun j k a f hs => ?_, fun r hr => ?_, ht.told⟩
  · obtain ⟨r, hr, hk, harr⟩ := ht.awaiting j k a f hs
    have hlt := (List.getElem?_eq_some_iff.mp hr).1
    exact ⟨r, (List.getElem?_append_left hlt).trans hr, hk, harr⟩
  · rcases List.mem_append.mp hr with hr | hr
    · exact ht.sent r hr
    · obtain rfl := List.mem_singleton.mp hr
      rw [ho]
      exact ht.sent p hp

lemma followed_produce {n : N} {a : ProdAct} {e : Entry Row}
    (hst : prodStep (c.shard n) (c.overlay.impl n) c.overlay.maxRows (x.sys.node n) a = some e) :
    Followed c q { x with sys := x.sys.setNode n e } := by
  have hmakes := (prodStep_spec ((shape_of_reach hreach).entries n) hst).2
  have hstep : step c q (v.on x.sys) (.produce n a) = some (v.on (x.sys.setNode n e)) := by
    show (prodStep (c.shard n) (c.overlay.impl n) c.overlay.maxRows (x.sys.node n) a).map _ = _
    rw [hst]
    rfl
  refine ⟨v, .step (a := .produce n a) hreach trivial hstep,
    h.frame rfl (fun m => ?_) rfl id rfl⟩
  by_cases hm : m = n
  · subst hm
    rw [setNode_self]
    exact hmakes.gens
  · rw [setNode_ne _ hm]

lemma followed_pull {i : ℕ} {a : PullAct} {s' : Sys N Row} (hst : pullStep c x.sys i a = some s') :
    Followed c q { x with sys := s' } := by
  have hstep : step c q (v.on x.sys) (.pull i a) = some (v.on s') := by
    rw [step, pullStep_on, hst]
    rfl
  have hframe := pulls_frame (pulls_of_step hst)
  have hgens : ∀ n, ((v.on s').node n).gens = ((v.on x.sys).node n).gens := fun n =>
    gens_eq (steps_of_step hstep) (shape_of_reach hreach).entries (by simp) (by simp)
  refine ⟨v, .step (a := .pull i a) hreach trivial hstep, h.frame ?_ hgens ?_ ?_ ?_⟩
  · rw [hframe]
  · rw [hframe]
  · rw [hframe]
    exact id
  · rw [hframe]

lemma followed_fetch {a : FetchAct} {s' : Sys N Row} (hd : ∀ m, a ≠ .drain m) (hf : a ≠ .finish)
    (hst : fetchStep c q x.sys a = some s') : Followed c q { x with sys := s' } := by
  have hstep : step c q (v.on x.sys) (.fetch a) = some (v.on s') := by
    rw [step, fetchStep_on v x.sys hd hf, hst]
    rfl
  have hgens : ∀ n, ((v.on s').node n).gens = ((v.on x.sys).node n).gens := fun n =>
    gens_eq (steps_of_step hstep) (shape_of_reach hreach).entries (by simp) (by simp)
  refine ⟨v, .step (a := .fetch a) hreach trivial hstep, ?_⟩
  cases fetches_of_step hst with
  | start => exact h.frame rfl hgens rfl id rfl
  | drain m => exact absurd rfl (hd m)
  | count => exact h.frame rfl hgens rfl id rfl
  | erase => exact h.frame rfl hgens rfl (fun _ => rfl) rfl
  | erased => exact h.frame rfl hgens rfl id rfl
  | finish => exact absurd rfl hf

omit hreach in
lemma joined_of_joined (hj : x.joined c q) : (v.on x.sys).joined c q := by
  have hpool : ∀ j, ∀ k < (c.eligible q).length, x.thread j k = .absent ∨
      x.thread j k = .returned := by
    intro j k hk
    by_cases ht : x.thread j k = .absent
    · exact .inl ht
    · exact hj j (h.lt_calls ht) k hk
  exact fun k hk => (h.pooled.merged k).joined fun j => hpool j k hk

lemma followed_finish {hit eligible : ℕ} (hf : x.sys.fetch = .joining hit eligible)
    (hj : x.joined c q) : Followed c q
      { x with sys := { x.sys with fetch := .idle, finished := some (hit, eligible) } } := by
  have hfetch : (v.on x.sys).fetch = .joining hit eligible := hf
  have hstep : step c q (v.on x.sys) (.fetch .finish) =
      some (v.on { x.sys with fetch := .idle, finished := some (hit, eligible) }) := by
    show fetchStep c q (v.on x.sys) .finish = _
    unfold fetchStep
    simp only [hfetch, if_pos (joined_of_joined h hj)]
    rfl
  exact ⟨v, .step (a := .fetch .finish) hreach trivial hstep,
    h.frame rfl (fun _ => rfl) rfl id rfl⟩

end Steps

/-! ### The drain -/

section Drain

variable (hown : (c.eligible q).Nodup) (hr : WithinTtl c q)
  (hreach : Reach (step c q) (fun _ a => AllAnswered a) (init N Row) (v.on x.sys))

include hr hreach

lemma sound_on {o : N} {k : ℕ} (hl : IsLane c q o k) : Sound c q o True (lane o k (v.on x.sys)) :=
  sound_of_answered hl hr (fun _ _ ha => ha.forwardsAnswered) (notCancelled fun _ _ => id)
    (fun _ _ hs ha => keepsRows_of_callsAwaited ha (callsAwaited_of_reach (fun _ _ => id) hs) o)
    hreach

include hown

lemma drained_of_done {o : N} (he : o ∈ c.eligible q) (hd : v.done o = true) :
    if o = c.gateway then (x.sys.self c).doneProducing = true ∧ (x.sys.self c).matched = []
    else x.sys.gate.prefetchDone o = true ∧ x.sys.gate.prefetchBuf o = [] := by
  split
  next hg =>
    subst hg
    exact (((closing_of_reach hreach).selfDone hd).resolve_left (not_not_intro he)).2
  next hne =>
    obtain ⟨k, hk⟩ := List.getElem?_of_mem he
    have hl : IsLane c q o k := ⟨hown, hk, hne⟩
    exact ⟨(onCourse_of_reach hown hr hreach).promoted o he hne hd,
      ((sound_on hr hreach hl).done hd).1⟩

/-- The drain finds the same owners done, whether or not it has found them done before. -/
lemma drained_eq (h : Follows c q x v) (m : ℤ) {o : N} (ho : o ∈ c.overlay.dataOwners) :
    (drainStep c x.sys m).gate.clientProducersDone o =
      (drainStep c (v.on x.sys) m).gate.clientProducersDone o := by
  by_cases hd : v.done o = true
  · have htrue : (drainStep c (v.on x.sys) m).gate.clientProducersDone o = true := by
      simp only [drainStep, Single.on, hd, Bool.true_or, ite_self]
    rw [htrue]
    by_cases he : o ∈ c.eligible q
    · have hempty := drained_of_done hown hr hreach he hd
      by_cases hg : o = c.gateway
      · subst hg
        rw [if_pos rfl] at hempty
        have hself := drain_self (c := c) x.sys m
        rw [hempty.2, eq_comm, List.append_eq_nil_iff] at hself
        have hqueue := hself.2
        simp only [drainStep, Sys.self, Sys.setNode, Entry.setObj, Function.update_self] at hqueue
        simp [drainStep, hempty.1, hqueue]
      · rw [if_neg hg] at hempty
        have hslot := drain_slot (c := c) x.sys m hg
        rw [hempty.2, eq_comm, List.append_eq_nil_iff] at hslot
        have hqueue := hslot.2
        simp only [drainStep, if_neg hg] at hqueue
        simp [drainStep, hg, ho, hempty.1, hqueue]
    · have hx := h.spare o ho he hd
      simp only [drainStep, hx, Bool.true_or, ite_self]
  · have hx : x.sys.gate.clientProducersDone o = false :=
      Bool.eq_false_of_not_eq_true fun hx => hd (h.done o hx)
    have hv : (v.on x.sys).gate.clientProducersDone o = false := Bool.eq_false_of_not_eq_true hd
    simp only [drainStep, hx, hv]
    rfl

omit hown hr hreach in
lemma allDrained_on (h : Follows c q x v) (hd : x.sys.allDrained c = true) :
    (v.on x.sys).allDrained c = true := by
  unfold Sys.allDrained at hd ⊢
  rw [Bool.and_eq_true, List.all_eq_true] at hd ⊢
  refine ⟨hd.1, fun o ho => ?_⟩
  have := hd.2 o ho
  simp only [Bool.or_eq_true] at this ⊢
  exact this.imp_left fun h' => h'.imp_right (h.done o)

lemma followed_drain (h : Follows c q x v) {m : ℤ} {s' : Sys N Row}
    (hst : fetchStep c q x.sys (.drain m) = some s') : Followed c q { x with sys := s' } := by
  have hflags := fun {o : N} => drained_eq hown hr hreach h m (o := o)
  have hall : (drainStep c (v.on x.sys) m).allDone c = (drainStep c x.sys m).allDone c := by
    unfold Sys.allDone
    rw [Bool.eq_iff_iff, List.all_eq_true, List.all_eq_true]
    exact forall₂_congr fun o ho => by rw [hflags ho]
  let w : Single N :=
    { v with done := (drainStep c (v.on x.sys) m).gate.clientProducersDone }
  have hstep : step c q (v.on x.sys) (.fetch (.drain m)) = some (w.on s') := by
    unfold fetchStep at hst
    simp only at hst
    split at hst
    next hcond =>
      obtain rfl := Option.some.inj hst
      show fetchStep c q (v.on x.sys) (.drain m) = _
      unfold fetchStep
      have hcond' : (v.on x.sys).fetch = .entered ∧ (((v.on x.sys).self c).cancelled = true ∨
          (v.on x.sys).haveData c = true ∨ (v.on x.sys).allDrained c = true) :=
        ⟨hcond.1, hcond.2.imp_right (Or.imp_right (allDrained_on h))⟩
      simp only
      rw [if_pos hcond', hall]
      rfl
    next => cases hst
  refine ⟨w, .step (a := .fetch (.drain m)) hreach trivial hstep, ?_⟩
  cases fetches_of_step hst with
  | drain =>
    have hgens : ∀ n, ((drainStep c x.sys m).node n).gens = (x.sys.node n).gens := by
      intro n
      by_cases hn : n = c.gateway
      · subst hn
        simp [drainStep, Entry.setObj]
      · simp [drainStep, Sys.setNode, hn]
    have htracks : Tracks c q { x with sys := { drainStep c x.sys m with
        fetch := if (drainStep c x.sys m).allDone c then .drained else .idle } } v :=
      h.tracks.frame rfl hgens
    refine ⟨h.once, fun o hd => ?_, fun o ho _ hd => (hflags ho).trans hd, ?_, h.pooled.spawned,
      h.pooled.merged⟩
    · by_cases ho : o ∈ c.overlay.dataOwners
      · exact (hflags ho).symm.trans hd
      · by_cases hg : o = c.gateway
        · subst hg
          simp only [w, drainStep, if_true, Bool.or_eq_true] at hd ⊢
          exact hd.imp_left (h.done _)
        · simp only [w, drainStep, if_neg hg, if_neg ho] at hd ⊢
          exact h.done o hd
    · exact ⟨htracks.behind, htracks.ahead, htracks.unborn, htracks.begun, htracks.awaiting,
        htracks.sent, htracks.told⟩

end Drain

end Mini2.Follow
