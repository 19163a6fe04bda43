import Mini2.PySteps

/-!
One owner's part of a request to a Python gateway, seen as a lane. `FetchChunk` stands for the
prefetcher of the owner it asks, the buffer of the gateway belongs to what has been delivered,
and the gateway's own partition is a lane like the others.
-/

namespace Mini2.PyLane

open Mini2.Proto Mini2.Net Mini2.Request Mini2.Producer Mini2.Gather Mini2.GatherSteps
open Mini2.GatherShape Mini2.RoundRobin Mini2.Lane Mini2.Forwarded Mini2.PyGateway
open Mini2.PySteps

variable {N Query Row : Type} [DecidableEq N]

/-- The owner can be told of the request, and asked for its rows. -/
def Served (c : Config N Query Row) (o : N) : Prop := Near c o ∧ Reaches c o

/-- Where the prefetcher of `o` would stand, as long as `o` is not done. -/
def pcOf (f : PyFetch N) (o : N) : ThreadPc :=
  match f with
  | .pulling _ _ o' _ i => if o' = o then .pulling i else .waiting
  | _ => .waiting

structure Seen (x : PySys N Row) (o : N) (v : View N Row) : Prop where
  entry : v.entry = x.sys.node o
  pull : v.pull = (lane o 0 x.sys).pull
  slot : v.slot = []
  done : v.done = x.sys.gate.clientProducersDone o
  log : v.log = itemsOf (x.sys.log ++ x.buffer) o
  absent : x.sys.submit ≠ .returned → v.thread = .absent
  thread : x.sys.submit = .returned → v.done = false → v.thread = pcOf x.fetch o

/-- What the gateway has got of `o` is in order. -/
def Laned (c : Config N Query Row) (q : Query) (x : PySys N Row) (o : N) : Prop :=
  ∃ v, Seen x o v ∧ Sound c q o (Served c o) v ∧ Once (c.shard o) q v

variable {c : Config N Query Row} {q : Query} {x x' : PySys N Row} {s' : Sys N Row} {o : N}
  {v v' : View N Row}

lemma pcOf_eq_waiting {f : PyFetch N} (h : ∀ g m rest i, f ≠ .pulling g m o rest i) :
    pcOf f o = .waiting := by
  unfold pcOf
  split
  next g m o' rest i =>
    split
    next ho => exact absurd (by rw [ho]) (h g m rest i)
    next => rfl
  next => rfl

lemma pcOf_pulling {f : PyFetch N} {i : ℕ} (h : Waits f o i) : pcOf f o = .pulling i := by
  obtain ⟨g, m, rest, rfl⟩ := h
  simp [pcOf]

lemma Seen.congr (h : Seen x o v) (hnode : x'.sys.node o = x.sys.node o)
    (hpull : (lane o 0 x'.sys).pull = (lane o 0 x.sys).pull)
    (hdone : x'.sys.gate.clientProducersDone o = x.sys.gate.clientProducersDone o)
    (hlog : itemsOf (x'.sys.log ++ x'.buffer) o = itemsOf (x.sys.log ++ x.buffer) o)
    (hsub : x'.sys.submit = .returned ↔ x.sys.submit = .returned)
    (hpc : x.sys.submit = .returned → v.done = false → pcOf x'.fetch o = pcOf x.fetch o) :
    Seen x' o v where
  entry := h.entry.trans hnode.symm
  pull := h.pull.trans hpull.symm
  slot := h.slot
  done := h.done.trans hdone.symm
  log := h.log.trans hlog.symm
  absent hs := h.absent fun hr => hs (hsub.mpr hr)
  thread hs hd := (h.thread (hsub.mp hs) hd).trans (hpc (hsub.mp hs) hd).symm

/-- The registration of an owner that is served is behind `SubmitQuery`. -/
lemma gens_pos (h : PyShape c q x) (ho : o ∈ c.overlay.dataOwners) (hs : Served c o)
    (hret : x.sys.submit = .returned) : 0 < (x.sys.node o).gens := by
  by_cases hg : o = c.gateway
  · subst hg
    exact h.registered (by rw [hret]; rfl)
  · obtain ⟨k, hk⟩ := List.getElem?_of_mem ho
    refine h.told.past k o hk hg ?_ hs.1
    rw [hret]
    trivial

lemma keeps {a : Act N} (hs : Sound c q o (Served c o) v) (ho : Once (c.shard o) q v)
    (hst : LaneStep c q o 0 v a v') (hcalm : ¬ Loses 0 v a) (hnc : ∀ j act, a ≠ .cancel j act)
    (hdl : ∀ code, a ≠ .prefetch 0 (.failed code))
    (hreg : Served c o → v'.thread ≠ .absent → 0 < v'.entry.gens)
    (hkept : Served c o → ∀ act, a = .submit act → v'.done = true → v.done = true)
    (ht : InTime v a) : Sound c q o (Served c o) v' ∧ Once (c.shard o) q v' := by
  refine ⟨sound_step hs And.right ⟨hst, hcalm, hnc, fun code ha => ?_, hreg, hkept⟩,
    once_step ho ht hst⟩
  exact absurd ha (hdl code)

lemma laned_of_step {a : Act N} (h' : PyShape c q x') (ho : o ∈ c.overlay.dataOwners)
    (hs : Sound c q o (Served c o) v) (h1 : Once (c.shard o) q v)
    (hst : LaneStep c q o 0 v a v') (hseen : Seen x' o v') (hcalm : ¬ Loses 0 v a)
    (hnc : ∀ j act, a ≠ .cancel j act) (hdl : ∀ code, a ≠ .prefetch 0 (.failed code))
    (hkept : Served c o → ∀ act, a = .submit act → v'.done = true → v.done = true)
    (ht : InTime v a) : Laned c q x' o := by
  refine ⟨v', hseen, keeps hs h1 hst hcalm hnc hdl (fun hserved habs => ?_) hkept ht⟩
  rw [hseen.entry]
  refine gens_pos h' ho hserved ?_
  by_contra hne
  exact habs (hseen.absent hne)

/-! ### SubmitQuery -/

lemma unserved_of_nil (h : Seen x o v) (hnil : x.sys.pull = []) : v.Unserved := by
  intro i stage hi
  rw [h.pull] at hi
  simp [lane, hnil] at hi

lemma kept_of_dead (h : PyShape c q x) {f : ℕ} {r : Bool} {code : StatusCode}
    (hf : x.sys.fwd[f]? = some ⟨o, r, .answered code⟩) (hc : code ≠ .ok) : ¬ Served c o := by
  rintro ⟨hn, -⟩
  have harr : Arriving (everyone c) x.sys ⟨o, r, .answered code⟩ :=
    h.told.arriving _ (List.mem_of_getElem? hf)
  exact hc (harr hn).1

lemma laned_submit {a : PySubmitAct} (h : PyShape c q x) (hst : PySubmits c q x.sys a s')
    (hnf : a ≠ .failed) (hnr : a ≠ .relayFailed) (ho : o ∈ c.overlay.dataOwners)
    (hl : Laned c q x o) : Laned c q { x with sys := s' } o := by
  have h' := shape_submit h hst hnf hnr
  obtain ⟨hfetch, hearly, hnil⟩ := h.early_of_submits hst
  have hret : x.sys.submit ≠ .returned := by
    intro hs
    rw [hs] at hearly
    cases hearly
  obtain ⟨v, hseen, hsound, honce⟩ := hl
  have hsame : s'.node o = x.sys.node o → s'.pull = x.sys.pull → s'.log = x.sys.log →
      s'.gate.clientProducersDone o = x.sys.gate.clientProducersDone o →
      s'.submit ≠ .returned → Laned c q { x with sys := s' } o := by
    intro hnode hpull hlog hdone hret'
    refine ⟨v, hseen.congr hnode ?_ hdone ?_ (iff_of_false hret' hret) fun _ _ => rfl, hsound,
      honce⟩
    · simp [lane, hpull]
    · rw [show itemsOf (s'.log ++ x.buffer) o = _ from by rw [hlog]]
  cases hst with
  | register hs =>
    by_cases hg : o = c.gateway
    · subst hg
      refine laned_of_step (a := .forward 0) h' ho hsound honce .register ?_ id (by simp) (by simp)
        (by simp) fun _ _ _ => unserved_of_nil hseen hnil
      exact ⟨by simp [hseen.entry], hseen.pull, hseen.slot, hseen.done, hseen.log,
        fun _ => hseen.absent hret, fun hs' => by cases hs'⟩
    · exact hsame (setNode_ne _ hg _) rfl rfl rfl (by simp)
  | refuse => exact hsame rfl rfl rfl rfl (by simp)
  | throws => exact hsame rfl rfl rfl rfl (by simp)
  | itself => exact hsame rfl rfl rfl rfl (by simp)
  | call => exact hsame rfl rfl rfl rfl (by simp)
  | delivered => exact hsame rfl rfl rfl rfl (by simp)
  | mark hs =>
    refine laned_of_step (a := .submit .mark) h' ho hsound honce .mark ?_ id (by simp) (by simp)
      (by simp) (by simp [InTime])
    exact ⟨hseen.entry, hseen.pull, hseen.slot, by simp [unmark, ho], hseen.log,
      fun _ => hseen.absent hret, fun hs' => by cases hs'⟩
  | finish hs hk =>
    cases hd : v.done with
    | true =>
      exact ⟨v, ⟨hseen.entry, hseen.pull, hseen.slot, hseen.done, hseen.log,
        fun hne => absurd rfl hne, fun _ hd' => by rw [hd] at hd'; cases hd'⟩, hsound, honce⟩
    | false =>
      -- the prefetcher is spawned and starts
      have habs := hseen.absent hret
      have hpos : Served c o → 0 < v.entry.gens := by
        intro hserved
        have hpos := gens_pos h' ho hserved rfl
        exact hseen.entry ▸ hpos
      obtain ⟨hsound1, honce1⟩ := keeps hsound honce (.spawn habs hd) id (by simp) (by simp)
        (fun hserved _ => hpos hserved) (by simp [hd]) (by simp [InTime])
      refine laned_of_step h' ho hsound1 honce1 (.start rfl) ?_ id (by simp) (by simp) (by simp)
        (by simp [InTime])
      exact ⟨hseen.entry, hseen.pull, hseen.slot, hseen.done, hseen.log,
        fun hne => absurd rfl hne, fun _ _ => (pcOf_eq_waiting (by simp [hfetch])).symm⟩
  | @dead _ _ f o' r code hs hf hc =>
    by_cases hoo : o = o'
    · subst hoo
      refine laned_of_step h' ho hsound honce (.dead (.inl rfl) (hseen.absent hret)) ?_ id
        (by simp) (by simp) (fun hserved => ?_) (by simp [InTime])
      · exact ⟨hseen.entry, hseen.pull, hseen.slot, by simp [Sys.markDone], hseen.log,
          fun _ => hseen.absent hret, fun hs' => by cases hs'⟩
      · exact absurd hserved (kept_of_dead h hf hc)
    · exact hsame rfl rfl rfl (by simp [Sys.markDone, hoo]) (by simp)
  | failed => exact absurd rfl hnf
  | relayFailed => exact absurd rfl hnr

/-! ### The nodes -/

lemma laned_forward {f : ℕ} (h : PyShape c q x) (hst : forwardStep c q x.sys f = some s')
    (ho : o ∈ c.overlay.dataOwners) (hl : Laned c q x o) :
    Laned c q { x with sys := s' } o := by
  have h' := shape_forward h hst
  obtain ⟨v, hseen, hsound, honce⟩ := hl
  have hsame : s'.node o = x.sys.node o → s'.pull = x.sys.pull → s'.log = x.sys.log →
      s'.gate = x.sys.gate → s'.submit = x.sys.submit → Laned c q { x with sys := s' } o := by
    intro hnode hpull hlog hgate hsub
    refine ⟨v, hseen.congr hnode ?_ ?_ ?_ ?_ fun _ _ => rfl, hsound, honce⟩
    · simp [lane, hpull]
    · exact congrArg (fun g => g.clientProducersDone o) hgate
    · exact congrArg (fun l => itemsOf (l ++ x.buffer) o) hlog
    · exact iff_of_eq (congrArg (· = SubmitPc.returned) hsub)
  cases forwards_of_step hst with
  | @register o' r ttl hf ht =>
    by_cases hoo : o = o'
    · subst hoo
      -- `SubmitQuery` waits for this forward, so nothing has been asked for yet
      obtain ⟨k, attempt, hs⟩ := h.pending f _ o ttl hf rfl
      have hnil := h.told.quiet (by rw [hs]; rfl)
      refine laned_of_step (a := .forward f) h' ho hsound honce .register ?_ id (by simp)
        (by simp) (by simp) fun _ _ _ => unserved_of_nil hseen hnil
      exact ⟨by simp [hseen.entry, Sys.setFwd], hseen.pull, hseen.slot, hseen.done, hseen.log,
        hseen.absent, hseen.thread⟩
    · exact hsame (setNode_ne _ hoo _) rfl rfl rfl rfl
  | _ => exact hsame rfl rfl rfl rfl rfl

lemma laned_produce {n : N} {a : ProdAct} {e : Entry Row} (h : PyShape c q x)
    (hst : prodStep (c.shard n) (c.overlay.impl n) c.overlay.maxRows (x.sys.node n) a = some e)
    (ho : o ∈ c.overlay.dataOwners) (hl : Laned c q x o) :
    Laned c q { x with sys := x.sys.setNode n e } o := by
  have h' := shape_produce h hst
  obtain ⟨v, hseen, hsound, honce⟩ := hl
  by_cases hn : o = n
  · subst hn
    rw [← hseen.entry] at hst
    refine laned_of_step (a := .produce o a) h' ho hsound honce (.produce hst) ?_ id (by simp)
      (by simp) (by simp) (by simp [InTime])
    exact ⟨by simp, hseen.pull, hseen.slot, hseen.done, hseen.log, hseen.absent, hseen.thread⟩
  · exact ⟨v, hseen.congr (setNode_ne _ hn _) rfl rfl rfl Iff.rfl fun _ _ => rfl, hsound, honce⟩

/-- A step of `PullChunk` takes place between the owner's entry and its calls. -/
lemma pull_frame {i : ℕ} {a : PullAct} {w w' : View N Row}
    (hst : LaneStep c q o 0 w (.pull i a) w') (he : v.entry = w.entry) (hp : v.pull = w.pull) :
    LaneStep c q o 0 v (.pull i a) { v with entry := w'.entry, pull := w'.pull } := by
  obtain ⟨entry, thread, pull, slot, prefetchDone, done, responded, log⟩ := v
  subst he hp
  cases hst with
  | relay hp hn => exact .relay hp hn
  | noRoute hp hh hn hc => exact .noRoute hp hh hn hc
  | missing hp hm => exact .missing hp hm
  | found hp ht => exact .found hp ht
  | pop hp maxRows =>
    refine .pop ?_ maxRows
    exact hp
  | load hp => exact .load hp
  | decide hp => exact .decide hp
  | more hp => exact .more hp
  | last hp => exact .last hp
  | erase hp => exact .erase hp
  | unschedule hp => exact .unschedule hp

lemma thread_of_call (h : PyShape c q x) (hseen : Seen x o v) {i : ℕ} {stage : PullStage N Row}
    (hp : v.pull i = some stage) (hs : ∀ code out isLast, stage ≠ .replied code out isLast) :
    v.thread = .pulling i := by
  rw [hseen.pull] at hp
  obtain ⟨⟨o', stage'⟩, hpi, hst⟩ := Option.bind_eq_some_iff.mp hp
  split at hst
  next ho =>
    obtain rfl : stage' = stage := Option.some.inj hst
    obtain rfl : o' = o := ho
    have hw : Waits x.fetch o' i := by
      refine (h.calls i o' stage' hpi).resolve_left ?_
      rintro ⟨code, out, isLast, hrep⟩
      exact hs code out isLast hrep
    have hidle : x.fetch ≠ .idle := by
      obtain ⟨g, m, rest, hf⟩ := hw
      simp [hf]
    have hdone := (h.waits o' i hw).2.1
    rw [← pcOf_pulling hw]
    exact hseen.thread (h.returned hidle) (hseen.done.trans hdone)
  next => cases hst

lemma laned_pull {i : ℕ} {a : PullAct} (h : PyShape c q x) (hst : Pulls c x.sys i a s')
    (ho : o ∈ c.overlay.dataOwners) (hl : Laned c q x o) :
    Laned c q { x with sys := s' } o := by
  have h' := shape_pull h hst
  have hframe := pulls_frame hst
  have hgate : s'.gate = x.sys.gate := by rw [hframe]
  have hlog : s'.log = x.sys.log := by rw [hframe]
  have hsub : s'.submit = x.sys.submit := by rw [hframe]
  obtain ⟨v, hseen, hsound, honce⟩ := hl
  have hdone : s'.gate.clientProducersDone o = x.sys.gate.clientProducersDone o := by rw [hgate]
  have hitems : itemsOf (s'.log ++ x.buffer) o = itemsOf (x.sys.log ++ x.buffer) o := by
    rw [hlog]
  rcases lane_pulls (q := q) (o := o) (k := 0) hst with hsame | hstep
  · refine ⟨v, hseen.congr (congrArg View.entry hsame) (congrArg View.pull hsame) hdone hitems
      (iff_of_eq (congrArg (· = SubmitPc.returned) hsub)) fun _ _ => rfl, hsound, honce⟩
  · refine laned_of_step h' ho hsound honce (pull_frame hstep hseen.entry hseen.pull) ?_ ?_
      (by simp) (by simp) (by simp) (by simp [InTime])
    · exact ⟨rfl, rfl, hseen.slot, hseen.done.trans hdone.symm, hseen.log.trans hitems.symm,
        fun hne => hseen.absent fun hr => hne (hsub.trans hr),
        fun hr hd => hseen.thread (hsub.symm.trans hr) hd⟩
    · unfold Loses
      split
      next heq => cases heq
      next heq => cases heq
      next heq =>
        rintro ⟨hne, g, hp, -⟩
        obtain ⟨rfl, -⟩ := Act.pull.inj heq
        exact hne (thread_of_call h hseen hp (by simp))
      next => exact id

/-! ### FetchChunk -/

lemma pcOf_ne {f : PyFetch N} {g m i : ℕ} {o' : N} {rest : List N}
    (h : f = .pulling g m o' rest i) (hne : o' ≠ o) : pcOf f o = .waiting := by
  refine pcOf_eq_waiting fun g' m' rest' i' hf => hne ?_
  obtain ⟨-, -, rfl, -, -⟩ := PyFetch.pulling.inj (h.symm.trans hf)
  rfl

lemma itemsOf_tag (o : N) (l : List Row) : itemsOf (l.map (o, ·)) o = l := by
  induction l with
  | nil => rfl
  | cons r l ih => simpa [itemsOf] using ih

lemma itemsOf_tag_ne {o' : N} (h : o' ≠ o) (l : List Row) : itemsOf (l.map (o', ·)) o = [] := by
  simp [itemsOf, h]

lemma laned_issue {g m : ℕ} {o' hop : N} {rest : List N} (h' : PyShape c q { x with
      sys := { x.sys with pull := x.sys.pull ++ [⟨o', .at hop⟩] }
      fetch := .pulling g m o' rest x.sys.pull.length })
    (hret : x.sys.submit = .returned) (hf : x.fetch = .round g m (o' :: rest))
    (hd : x.sys.gate.clientProducersDone o' = false)
    (hn : c.overlay.nextHop c.gateway o' = .ok hop)
    (ho : o ∈ c.overlay.dataOwners) (hl : Laned c q x o) : Laned c q { x with
      sys := { x.sys with pull := x.sys.pull ++ [⟨o', .at hop⟩] }
      fetch := .pulling g m o' rest x.sys.pull.length } o := by
  obtain ⟨v, hseen, hsound, honce⟩ := hl
  have hwait : pcOf x.fetch o = .waiting := pcOf_eq_waiting (by simp [hf])
  by_cases hoo : o' = o
  · subst hoo
    have hdone : v.done = false := hseen.done.trans hd
    have ht : v.thread = .waiting := (hseen.thread hret hdone).trans hwait
    have hpd : v.prefetchDone = false := by
      by_contra hp
      have := (hsound.prefetchDone (Bool.eq_true_of_not_eq_false hp)).1
      rw [ht] at this
      cases this
    have hnone : v.pull x.sys.pull.length = none := by
      rw [hseen.pull]
      simp [lane]
    refine laned_of_step h' ho hsound honce (.issue ht hseen.slot hpd hnone hn) ?_ id
      (by simp) (by simp) (by simp) (by simp [InTime])
    refine ⟨hseen.entry, ?_, hseen.slot, hseen.done, hseen.log, fun hne => absurd hret hne,
      fun _ _ => (pcOf_pulling ⟨g, m, rest, rfl⟩).symm⟩
    funext j
    simp only [View.setPull, lane]
    rw [getElem?_snoc, hseen.pull]
    by_cases hj : j = x.sys.pull.length <;> simp [hj, lane]
  · refine ⟨v, hseen.congr rfl ?_ rfl rfl Iff.rfl fun _ _ => ?_, hsound, honce⟩
    · funext j
      simp only [lane]
      rw [getElem?_snoc]
      by_cases hj : j = x.sys.pull.length <;> simp [hj, hoo]
    · rw [hwait]
      exact pcOf_ne rfl hoo

lemma laned_receive {g m i : ℕ} {o' : N} {rest : List N} {out : List Row} {isLast : Bool}
    (h : PyShape c q x) (hf : x.fetch = .pulling g m o' rest i)
    (hp : x.sys.pull[i]? = some ⟨o', .replied .ok out isLast⟩)
    (h' : PyShape c q { x with
      sys := if isLast then x.sys.markDone o' else x.sys
      buffer := x.buffer ++ out.map (o', ·)
      fetch := .round g m rest })
    (ho : o ∈ c.overlay.dataOwners) (hl : Laned c q x o) : Laned c q { x with
      sys := if isLast then x.sys.markDone o' else x.sys
      buffer := x.buffer ++ out.map (o', ·)
      fetch := .round g m rest } o := by
  have hret := h.returned (by simp [hf])
  have hd := (h.waits o' i ⟨g, m, rest, hf⟩).2.1
  obtain ⟨v, hseen, hsound, honce⟩ := hl
  -- of the system only a mark has changed
  generalize hs : (if isLast then x.sys.markDone o' else x.sys) = s at h' ⊢
  have hframe : s.node = x.sys.node ∧ s.pull = x.sys.pull ∧ s.log = x.sys.log ∧
      s.submit = x.sys.submit := by
    subst hs
    cases isLast <;> exact ⟨rfl, rfl, rfl, rfl⟩
  obtain ⟨hnode, hpull, hlog, hsub⟩ := hframe
  have hlane : (lane o 0 s).pull = (lane o 0 x.sys).pull := by simp only [lane, hpull]
  have hitems : ∀ l : List (N × Row),
      itemsOf (s.log ++ (x.buffer ++ l)) o = itemsOf (x.sys.log ++ x.buffer) o ++ itemsOf l o := by
    intro l
    rw [hlog, ← List.append_assoc, itemsOf_append]
  by_cases hoo : o' = o
  · subst hoo
    have hdone : v.done = false := hseen.done.trans hd
    have ht : v.thread = .pulling i :=
      (hseen.thread hret hdone).trans (pcOf_pulling ⟨g, m, rest, hf⟩)
    have hcall : v.pull i = some (.replied .ok out isLast) := by
      rw [hseen.pull]
      exact lane_pull o' 0 x.sys hp
    have hpos : Served c o' → 0 < v.entry.gens := by
      intro hserved
      rw [hseen.entry]
      exact gens_pos h ho hserved hret
    have hpd : v.prefetchDone = false := by
      by_contra hp
      have := (hsound.prefetchDone (Bool.eq_true_of_not_eq_false hp)).1
      rw [ht] at this
      cases this
    have hmark : s.gate.clientProducersDone o' = isLast := by
      subst hs
      cases isLast
      · exact hd
      · exact Function.update_self ..
    -- the chunk comes in, and goes into the buffer
    obtain ⟨hsound1, honce1⟩ := keeps hsound honce (.receive ht hcall) id (by simp) (by simp)
      (fun hserved _ => hpos hserved) (by simp) (by simp [InTime])
    have hslot : v.slot ++ out = out ++ [] := by
      rw [hseen.slot, List.nil_append, List.append_nil]
    refine laned_of_step (a := .fetch (.drain 0)) h' ho hsound1 honce1 (.drain hslot) ?_ id
      (by simp) (by simp) (by simp) (by simp [InTime])
    refine ⟨?_, ?_, rfl, ?_, ?_, fun hne => absurd (hsub.trans hret) hne, fun _ hd' => ?_⟩
    · rw [hnode]
      exact hseen.entry
    · rw [hlane]
      exact hseen.pull
    · rw [hmark]
      simp [hdone, hpd]
    · rw [hitems, itemsOf_tag, ← hseen.log]
    · cases isLast with
      | false => rfl
      | true => simp at hd'
  · refine ⟨v, hseen.congr (congrFun hnode o) hlane ?_ ?_
      (iff_of_eq (congrArg (· = SubmitPc.returned) hsub)) fun _ _ => ?_, hsound, honce⟩
    · subst hs
      cases isLast
      · rfl
      · exact Function.update_of_ne (Ne.symm hoo) _ _
    · rw [hitems, itemsOf_tag_ne hoo, List.append_nil]
    · rw [pcOf_ne hf hoo]
      rfl

lemma laned_refused {g m i : ℕ} {o' : N} {rest : List N} {code : StatusCode} {out : List Row}
    {isLast : Bool} (h : PyShape c q x) (hf : x.fetch = .pulling g m o' rest i)
    (hp : x.sys.pull[i]? = some ⟨o', .replied code out isLast⟩) (hc : code ≠ .ok)
    (h' : PyShape c q { x with sys := x.sys.markDone o', fetch := .round g m rest })
    (ho : o ∈ c.overlay.dataOwners) (hl : Laned c q x o) :
    Laned c q { x with sys := x.sys.markDone o', fetch := .round g m rest } o := by
  have hret := h.returned (by simp [hf])
  have hd := (h.waits o' i ⟨g, m, rest, hf⟩).2.1
  obtain ⟨v, hseen, hsound, honce⟩ := hl
  by_cases hoo : o' = o
  · subst hoo
    have ht : v.thread = .pulling i :=
      (hseen.thread hret (hseen.done.trans hd)).trans (pcOf_pulling ⟨g, m, rest, hf⟩)
    have hcall : v.pull i = some (.replied code out isLast) := by
      rw [hseen.pull]
      exact lane_pull o' 0 x.sys hp
    refine laned_of_step h' ho hsound honce (.refused ht hcall hc) ?_ id (by simp) (by simp)
      (by simp) (by simp [InTime])
    exact ⟨hseen.entry, hseen.pull, hseen.slot, by simp [View.fail, Sys.markDone], hseen.log,
      fun hne => absurd hret hne, fun _ hd' => by cases hd'⟩
  · refine ⟨v, hseen.congr rfl rfl (Function.update_of_ne (Ne.symm hoo) _ _) rfl Iff.rfl
      fun _ _ => ?_, hsound, honce⟩
    rw [pcOf_ne hf hoo]
    rfl

lemma laned_fetch {a : PyFetchAct} (h : PyShape c q x) (hr : Reliable x (.fetch a))
    (hst : PyFetches c x a x') (hopen : x'.fetch ≠ .dropping ∧ x'.ended = false)
    (ho : o ∈ c.overlay.dataOwners) (hl : Laned c q x o) : Laned c q x' o := by
  have h' := shape_fetch h hr hst
  have hsame : x'.sys = x.sys → x'.buffer = x.buffer →
      (∀ g m rest i, x.fetch ≠ .pulling g m o rest i) →
      (∀ g m rest i, x'.fetch ≠ .pulling g m o rest i) → Laned c q x' o := by
    intro hsys hbuf hf hf'
    obtain ⟨v, hseen, hgood⟩ := hl
    refine ⟨v, hseen.congr ?_ ?_ ?_ ?_ ?_ fun _ _ => ?_, hgood⟩
    · rw [hsys]
    · rw [hsys]
    · rw [hsys]
    · rw [hsys, hbuf]
    · rw [hsys]
    · rw [pcOf_eq_waiting hf, pcOf_eq_waiting hf']
  cases hst with
  | unknown hf => exact hsame rfl rfl (by simp [hf]) (by simp [PySys.fail])
  | noOwners hf => exact hsame rfl rfl (by simp [hf]) (by simp [PySys.fail])
  | start hf => exact hsame rfl rfl (by simp [hf]) (by simp)
  | stop hf => exact hsame rfl rfl (by simp [hf]) (by simp)
  | skip hf => exact hsame rfl rfl (by simp [hf]) (by simp)
  | raises hf => exact hsame rfl rfl (by simp [hf]) (by simp [PySys.fail])
  | issue hf hd hn => exact laned_issue h' (h.returned (by simp [hf])) hf hd hn ho hl
  | receive hf hp =>
    obtain rfl := h.call_owner hf hp
    exact laned_receive h hf hp h' ho hl
  | refused hf hp hc =>
    obtain rfl := h.call_owner hf hp
    exact laned_refused h hf hp hc h' ho hl
  | failed => exact hr.elim
  | last => exact absurd rfl hopen.1
  | @emit g m hf =>
    obtain ⟨v, hseen, hgood⟩ := hl
    refine ⟨v, hseen.congr rfl rfl rfl ?_ Iff.rfl fun _ _ => ?_, hgood⟩
    · rw [List.append_assoc, List.take_append_drop]
    · rw [pcOf_eq_waiting (f := x.fetch) (by simp [hf])]
      rfl
  | unschedule => exact absurd hopen.2 (by simp)

end Mini2.PyLane
