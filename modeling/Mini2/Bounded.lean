import Mini2.Budget
import Mini2.ExactlyOnce

/-!
Buffers stay bounded, whatever the sizes of results, weights and chunks and in whatever order
the threads run: a producer leaves its buffer when it is full, and a prefetcher asks for a chunk
only when its slot is empty.
-/

namespace Mini2.Bounded

open Mini2.Proto Mini2.Net Mini2.Request Mini2.Producer Mini2.Gather Mini2.GatherSteps
open Mini2.GatherShape Mini2.RoundRobin Mini2.Runs Mini2.Budget Mini2.Cluster Mini2.ExactlyOnce

variable {N Query Row : Type}

/-! ### The buffer of an owner -/

/-- The producer is about to fill a place of the buffer of state `g`. -/
def Fills (p : Producer) (g : ℕ) : Prop :=
  ∃ i limit, p = .batch g i limit ∨ p = .filling g i limit

/-- The buffers are not too long, and one the producer is filling has room. -/
structure BuffersOk (e : Entry Row) : Prop where
  le : ∀ g, (e.obj g).matched.length ≤ maxBuffered
  room : ∀ g, Fills e.producer g → (e.obj g).matched.length < maxBuffered

/-- A step that leaves the producer where it is, and adds to no buffer. -/
structure Shrinks (e e' : Entry Row) : Prop where
  producer : e'.producer = e.producer
  matched : ∀ g, (e'.obj g).matched.length ≤ (e.obj g).matched.length

lemma Shrinks.refl (e : Entry Row) : Shrinks e e := ⟨rfl, fun _ => Nat.le_refl _⟩

lemma BuffersOk.shrinks {e e' : Entry Row} (h : BuffersOk e) (hs : Shrinks e e') :
    BuffersOk e' where
  le g := (hs.matched g).trans (h.le g)
  room g hf := (hs.matched g).trans_lt (h.room g (hs.producer ▸ hf))

lemma shrinks_setObj {e : Entry Row} {g : ℕ} {st : RequestState Row}
    (h : st.matched.length ≤ (e.obj g).matched.length) : Shrinks e (e.setObj g st) := by
  refine ⟨rfl, fun g' => ?_⟩
  by_cases hg : g' = g
  · subst hg
    simpa [Entry.setObj] using h
  · simp [Entry.setObj, hg]

lemma shrinks_register (sh : Shard Query Row) (q : Query) (w : ℤ) (e : Entry Row) :
    Shrinks e (registerRequest sh q w e) := by
  have hnew : (newState sh q w).matched = [] := by
    unfold newState
    simp only
    split
    · rfl
    · split <;> rfl
  unfold registerRequest
  split
  · exact Shrinks.refl e
  · refine ⟨rfl, fun g => ?_⟩
    by_cases hg : g = e.gens
    · subst hg
      simp [hnew]
    · simp [hg]

/-- **The producer adds a row only where there is room**, and goes on only while there is. -/
lemma BuffersOk.produces {sh : Shard Query Row} {impl : Impl} {e e' : Entry Row} {act : ProdAct}
    (h : BuffersOk e) (hst : Produces sh impl e act e') : BuffersOk e' := by
  -- the producer moves on to a place where it fills nothing
  have hmove : ∀ {p : Producer}, (∀ g, ¬ Fills p g) → BuffersOk { e with producer := p } :=
    fun hp => ⟨h.le, fun g hf => absurd hf (hp g)⟩
  -- it stores something else into a state
  have hstore : ∀ {p : Producer} {g : ℕ} {st : RequestState Row},
      st.matched = (e.obj g).matched → (∀ g', ¬ Fills p g') →
      BuffersOk { e.setObj g st with producer := p } := by
    intro p g st hst hp
    have hshrinks : Shrinks e (e.setObj g st) := shrinks_setObj (congrArg List.length hst).le
    exact ⟨(h.shrinks hshrinks).le, fun g' hf => absurd hf (hp g')⟩
  cases hst with
  | pick => exact hmove (by simp [Fills])
  | lost => exact hmove (by simp [Fills])
  | get => exact hmove (by simp [Fills])
  | pass => exact hmove (by simp [Fills])
  | nothing => exact hstore rfl (by simp [Fills])
  | check => exact hmove (by simp [Fills])
  | full => exact hmove (by simp [Fills])
  | @room g limit hp hb =>
    refine ⟨h.le, fun g' hf => ?_⟩
    obtain rfl : g = g' := by
      obtain ⟨i', limit', hf | hf⟩ := hf
      · exact (Producer.batch.inj hf).1
      · cases hf
    exact hb
  | @fill g i limit hp =>
    refine ⟨h.le, fun g' hf => h.room g' ?_⟩
    obtain ⟨i', limit', hf | hf⟩ := hf
    · cases hf
    · obtain ⟨rfl, rfl, rfl⟩ := Producer.filling.inj hf
      exact ⟨i, limit, .inl hp⟩
  | leave => exact hmove (by simp [Fills])
  | @push g i limit idx hp hi =>
    have hroom := h.room g ⟨i, limit, .inr hp⟩
    have hlen : ((e.obj g).matched ++ [sh.fill idx]).length = (e.obj g).matched.length + 1 := by
      simp
    refine ⟨fun g' => ?_, fun g' hf => ?_⟩
    · by_cases hg : g' = g
      · subst hg
        simp only [Entry.setObj, Function.update_self, hlen]
        omega
      · simpa [Entry.setObj, hg] using h.le g'
    · -- it goes on only if the buffer is not full now
      simp only at hf
      split at hf
      next => simp [Fills] at hf
      next hlt =>
        obtain rfl : g = g' := by
          obtain ⟨i', limit', hf | hf⟩ := hf
          · exact (Producer.batch.inj hf).1
          · cases hf
        simpa [Entry.setObj] using hlt
  | finish => exact hstore rfl (by simp [Fills])

/-! ### The steps of a request -/

variable [DecidableEq N] {c : Config N Query Row} {q : Query} {s s' : Sys N Row} {a : Act N}

lemma shrinks_setNode {n m : N} {e : Entry Row} (h : Shrinks (s.node m) e) :
    Shrinks (s.node n) ((s.setNode m e).node n) := by
  by_cases hn : n = m
  · subst hn
    rwa [setNode_self]
  · rw [setNode_ne s hn]
    exact Shrinks.refl _

lemma shrinks_step (hst : Steps c q s a s') (ha : ∀ n act, a ≠ .produce n act) (n : N) :
    Shrinks (s.node n) (s'.node n) := by
  cases hst with
  | submit hst =>
    cases hst with
    | register => exact shrinks_setNode (shrinks_register _ _ _ _)
    | _ => exact Shrinks.refl _
  | forward hst =>
    cases hst with
    | register => exact shrinks_setNode (shrinks_register _ _ _ _)
    | _ => exact Shrinks.refl _
  | @produce m act => exact absurd rfl (ha m act)
  | prefetch hst => cases hst <;> exact Shrinks.refl _
  | pull hst =>
    cases hst with
    | pop => exact shrinks_setNode (shrinks_setObj (by simp))
    | last => exact shrinks_setNode ⟨rfl, fun _ => Nat.le_refl _⟩
    | erase => exact shrinks_setNode ⟨rfl, fun _ => Nat.le_refl _⟩
    | unschedule => exact shrinks_setNode ⟨rfl, fun _ => Nat.le_refl _⟩
    | _ => exact Shrinks.refl _
  | fetch hst =>
    cases hst with
    | drain maxRows =>
      refine shrinks_setNode (shrinks_setObj ?_)
      have hself := congrArg List.length (drain_self (c := c) s maxRows)
      have hrest : ((drainStep c s maxRows).self c).matched =
          (drain maxRows (sources c) (s.slots c)).queue c.gateway := by
        simp [drainStep, Sys.self, Sys.setNode, Entry.setObj]
      rw [List.length_append, hrest] at hself
      exact (Nat.le_add_left _ _).trans hself.ge
    | erase => exact shrinks_setNode ⟨rfl, fun _ => Nat.le_refl _⟩
    | erased => exact shrinks_setNode ⟨rfl, fun _ => Nat.le_refl _⟩
    | _ => exact Shrinks.refl _
  | cancelQuery => exact Shrinks.refl _
  | cancel hst =>
    cases hst with
    | flag => split <;> exact shrinks_setNode (shrinks_setObj (Nat.le_refl _))
    | clear => split <;> exact shrinks_setNode (shrinks_setObj (Nat.zero_le _))
    | dropJoin => exact shrinks_setNode ⟨rfl, fun _ => Nat.le_refl _⟩
    | drop => exact shrinks_setNode ⟨rfl, fun _ => Nat.le_refl _⟩
    | erase => exact shrinks_setNode ⟨rfl, fun _ => Nat.le_refl _⟩
    | unschedule => exact shrinks_setNode ⟨rfl, fun _ => Nat.le_refl _⟩
    | _ => exact Shrinks.refl _

lemma producer_eq (hst : Steps c q s a s') {n : N} (ha : ∀ act, a ≠ .produce n act) :
    (s'.node n).producer = (s.node n).producer := by
  by_cases hprod : ∃ m act, a = .produce m act
  · obtain ⟨m, act, rfl⟩ := hprod
    have hne : n ≠ m := by
      rintro rfl
      exact ha act rfl
    cases hst with
    | produce => rw [setNode_ne s hne]
  · exact (shrinks_step hst (fun m act heq => hprod ⟨m, act, heq⟩) n).producer

lemma buffersOk_step (hst : Steps c q s a s') (h : ∀ n, BuffersOk (s.node n)) (n : N) :
    BuffersOk (s'.node n) := by
  by_cases ha : ∃ m act, a = .produce m act
  · obtain ⟨m, act, rfl⟩ := ha
    cases hst with
    | @produce _ _ e' hst =>
      by_cases hn : n = m
      · subst hn
        rw [setNode_self]
        exact (h n).produces (produces_of_step hst)
      · rw [setNode_ne s hn]
        exact h n
  · exact (h n).shrinks (shrinks_step hst (fun m act heq => ha ⟨m, act, heq⟩) n)

/-! ### The slots of the gateway -/

/-- A slot holds what is left of one reply, and is empty while its prefetcher waits for the
next one. -/
structure Slots (c : Config N Query Row) (q : Query) (s : Sys N Row) : Prop where
  reply : ∀ o, s.gate.prefetchBuf o = [] ∨ ∃ out isLast,
    ⟨o, .replied .ok out isLast⟩ ∈ s.pull ∧ s.gate.prefetchBuf o <:+ out
  empty : ∀ k i o, s.thread k = .pulling i → (c.eligible q)[k]? = some o →
    s.gate.prefetchBuf o = []

omit [DecidableEq N] in
lemma slots_init : Slots c q (init N Row) := ⟨fun _ => .inl rfl, fun _ _ _ h => by cases h⟩

omit [DecidableEq N] in
/-- Answers stay answers, no prefetcher begins to wait, and rows are only taken away. -/
lemma Slots.mono (h : Slots c q s)
    (hreply : ∀ o out isLast, (⟨o, .replied .ok out isLast⟩ : PullCall N Row) ∈ s.pull →
      ⟨o, .replied .ok out isLast⟩ ∈ s'.pull)
    (hthread : ∀ k i, s'.thread k = .pulling i → s.thread k = .pulling i)
    (hbuf : ∀ o, s'.gate.prefetchBuf o <:+ s.gate.prefetchBuf o) : Slots c q s' := by
  refine ⟨fun o => ?_, fun k i o hk ho => ?_⟩
  · have hs := hbuf o
    rcases h.reply o with hnil | ⟨out, isLast, hmem, hout⟩
    · rw [hnil, List.suffix_nil] at hs
      exact .inl hs
    · exact .inr ⟨out, isLast, hreply o out isLast hmem, hs.trans hout⟩
  · have hs := hbuf o
    rwa [h.empty k i o (hthread k i hk) ho, List.suffix_nil] at hs

omit [DecidableEq N] in
lemma Slots.frame (h : Slots c q s) (hpull : s'.pull = s.pull)
    (hthread : ∀ k i, s'.thread k = .pulling i → s.thread k = .pulling i)
    (hbuf : s'.gate.prefetchBuf = s.gate.prefetchBuf) : Slots c q s' := by
  refine h.mono (fun o out isLast hmem => ?_) hthread fun o => ?_
  · rwa [hpull]
  · rw [hbuf]

omit [DecidableEq N] in
lemma pulling_of_update {k k' i : ℕ} {pc : ThreadPc} (hpc : ∀ i, pc ≠ .pulling i)
    (h : Function.update s.thread k pc k' = .pulling i) : s.thread k' = .pulling i := by
  by_cases hk : k' = k
  · rw [hk, Function.update_self] at h
    exact absurd h (hpc i)
  · rwa [Function.update_of_ne hk] at h

/-- **A prefetcher fills its slot with one reply**, for owners that are listed once. -/
lemma slots_prefetch {k : ℕ} {act : PrefetchAct} (hown : (c.eligible q).Nodup)
    (hsh : Threads c q s) (hst : Prefetches c q s k act s') (h : Slots c q s) :
    Slots c q s' := by
  cases hst with
  | start => exact h.frame rfl (fun _ _ => pulling_of_update (by simp)) rfl
  | noHop => exact h.frame rfl (fun _ _ => pulling_of_update (by simp)) rfl
  | stop => exact h.frame rfl (fun _ _ => pulling_of_update (by simp)) rfl
  | expired => exact h.frame rfl (fun _ _ => pulling_of_update (by simp)) rfl
  | refused => exact h.frame rfl (fun _ _ => pulling_of_update (by simp)) rfl
  | timeout => exact h.frame rfl (fun _ _ => pulling_of_update (by simp)) rfl
  | failed => exact h.frame rfl (fun _ _ => pulling_of_update (by simp)) rfl
  | @issue o hop hk ht hb =>
    refine ⟨fun o' => ?_, fun k' i o' hk' ho' => ?_⟩
    · refine (h.reply o').imp_right fun ⟨out, isLast, hmem, hout⟩ => ?_
      exact ⟨out, isLast, List.mem_append_left _ hmem, hout⟩
    · by_cases hkk : k' = k
      · rw [hkk, hk] at ho'
        obtain rfl := Option.some.inj ho'
        exact hb
      · rw [show _ = s.thread k' from setThread_ne s hkk _] at hk'
        exact h.empty k' i o' hk' ho'
  | @receive o o' i out isLast hk ht hp =>
    obtain ⟨o'', stage, hk', hp'⟩ := hsh.pulling k i ht
    obtain rfl : o = o'' := Option.some.inj (hk.symm.trans hk')
    obtain rfl : o' = o := congrArg PullCall.owner (Option.some.inj (hp.symm.trans hp'))
    have hempty := h.empty k i o' ht hk
    refine ⟨fun o => ?_, fun k' i' o hk' ho' => ?_⟩
    · by_cases ho : o = o'
      · subst ho
        refine .inr ⟨out, isLast, List.mem_of_getElem? hp, ?_⟩
        simp [Sys.gotChunk, hempty]
      · have hsame : (s.gotChunk k o' out isLast).gate.prefetchBuf o = s.gate.prefetchBuf o :=
          Function.update_of_ne ho _ _
        rw [hsame]
        exact h.reply o
    · -- no other prefetcher works for this owner
      have hne : k' ≠ k := by
        rintro rfl
        rw [Sys.gotChunk, setThread_self] at hk'
        split at hk' <;> cases hk'
      have ho : o ≠ o' := by
        rintro rfl
        have hlt := (List.getElem?_eq_some_iff.mp ho').1
        exact hne ((List.getElem?_inj hlt hown).mp (ho'.trans hk.symm))
      have hsame : (s.gotChunk k o' out isLast).gate.prefetchBuf o = s.gate.prefetchBuf o :=
        Function.update_of_ne ho _ _
      rw [hsame]
      refine h.empty k' i' o ?_ ho'
      rwa [Sys.gotChunk, show _ = s.thread k' from setThread_ne s hne _] at hk'

lemma slots_step (hown : (c.eligible q).Nodup) (hsh : Threads c q s) (hst : Steps c q s a s')
    (h : Slots c q s) : Slots c q s' := by
  cases hst with
  | submit hst =>
    cases hst with
    | spawn => exact h.frame rfl (fun _ _ => pulling_of_update (by simp)) rfl
    | _ => exact h.frame rfl (fun _ _ hk => hk) rfl
  | forward hst => cases hst <;> exact h.frame rfl (fun _ _ hk => hk) rfl
  | produce => exact h.frame rfl (fun _ _ hk => hk) rfl
  | prefetch hst => exact slots_prefetch hown hsh hst h
  | @pull i act s' hst =>
    obtain ⟨o, stage, stage', hp, hs, hset⟩ := pulls_set hst
    have hframe := pulls_frame hst
    have hthread : s'.thread = s.thread := by rw [hframe]
    have hgate : s'.gate = s.gate := by rw [hframe]
    refine h.mono (fun o' out isLast hmem => ?_) (fun k j hk => hthread ▸ hk) fun o' => ?_
    · obtain ⟨j, hj⟩ := List.getElem?_of_mem hmem
      have hij : i ≠ j := by
        rintro rfl
        have hstage := congrArg PullCall.stage (Option.some.inj (hp.symm.trans hj))
        exact hs _ _ _ hstage
      rw [hset]
      exact List.mem_of_getElem? ((List.getElem?_set_ne hij).trans hj)
    · rw [hgate]
  | fetch hst =>
    cases hst with
    | drain maxRows =>
      refine h.mono (fun _ _ _ hmem => hmem) (fun _ _ hk => hk) fun o => ?_
      by_cases ho : o = c.gateway
      · simp [drainStep, ho]
      · rw [drain_slot (c := c) s maxRows ho]
        exact List.suffix_append _ _
    | _ => exact h.frame rfl (fun _ _ hk => hk) rfl
  | cancelQuery => exact h.frame rfl (fun _ _ hk => hk) rfl
  | cancel hst =>
    cases hst with
    | flag => split <;> exact h.frame rfl (fun _ _ hk => hk) rfl
    | clear =>
      split
      · exact h.mono (fun _ _ _ hmem => hmem) (fun _ _ hk => hk) fun o => List.nil_suffix
      · exact h.frame rfl (fun _ _ hk => hk) rfl
    | _ => exact h.frame rfl (fun _ _ hk => hk) rfl

/-! ### All requests, with any weights -/

/-- A step of a request, or a change of the weight of one of its states. -/
inductive WeighedAct (N : Type)
  | act (a : Act N)
  | weigh (n : N) (g : ℕ) (weight : ℤ)
  deriving DecidableEq

def weigh (s : Sys N Row) (n : N) (g : ℕ) (weight : ℤ) : Sys N Row :=
  s.setNode n ((s.node n).setObj g { (s.node n).obj g with weight := weight })

variable {Rid : Type} [DecidableEq Rid]

def weighedStep (D : Deployment N) (query : Rid → Proto.Query) (R : Requests N Rid) :
    Rid × WeighedAct N → Option (Requests N Rid)
  | (rid, .act a) => Cluster.step D query R (rid, a)
  | (rid, .weigh n g weight) => some { R with
      request := Function.update R.request rid (weigh (R.request rid) n g weight) }

/-- In every state of every run no buffer of matched rows has more than `maxBuffered` rows. -/
def MatchedBounded (D : Deployment N) (query : Rid → Proto.Query) : Prop :=
  ∀ R, Reach (weighedStep D query) (fun _ _ => True) (Requests.init N Rid) R → ∀ rid n g,
    (((R.request rid).node n).obj g).matched.length ≤ maxBuffered

/-- In every state of every run no slot of request `rid` at the gateway has more rows than a
reply of its owner had. -/
def SlotsBounded (D : Deployment N) (query : Rid → Proto.Query) (rid : Rid) : Prop :=
  ∀ R, Reach (weighedStep D query) (fun _ _ => True) (Requests.init N Rid) R →
    ∀ o, (R.request rid).gate.prefetchBuf o = [] ∨ ∃ out isLast,
      ⟨o, .replied .ok out isLast⟩ ∈ (R.request rid).pull ∧
        ((R.request rid).gate.prefetchBuf o).length ≤ out.length

def BuffersBounded (D : Deployment N) (query : Rid → Proto.Query) : Prop :=
  MatchedBounded D query ∧ ∀ rid, SlotsBounded D query rid

structure Within (c : Config N Query Row) (q : Query) (s : Sys N Row) : Prop where
  buffers : ∀ n, BuffersOk (s.node n)
  threads : Threads c q s
  slots : (c.eligible q).Nodup → Slots c q s

omit [DecidableEq N] in
lemma within_init : Within c q (init N Row) where
  buffers _ := ⟨fun _ => Nat.zero_le _, fun _ _ => Nat.zero_lt_succ _⟩
  threads := threads_init
  slots _ := slots_init

lemma within_step (hst : Steps c q s a s') (h : Within c q s) : Within c q s' where
  buffers := buffersOk_step hst h.buffers
  threads := threads_step hst h.threads
  slots hown := slots_step hown h.threads hst (h.slots hown)

lemma Within.weigh (h : Within c q s) (n : N) (g : ℕ) (w : ℤ) :
    Within c q (weigh s n g w) := by
  refine ⟨fun m => ?_, ?_, fun hown => (h.slots hown).frame rfl (fun _ _ hk => hk) rfl⟩
  · exact (h.buffers m).shrinks (shrinks_setNode (shrinks_setObj (Nat.le_refl _)))
  · have ht := h.threads
    exact ⟨ht.spawned, ht.owner, ht.pulling, ht.pull, ht.fwd, ht.responded⟩

lemma within_of_reach {D : Deployment N} {query : Rid → Proto.Query} {R : Requests N Rid}
    (h : Reach (weighedStep D query) (fun _ _ => True) (Requests.init N Rid) R) (rid : Rid) :
    Within D.config (query rid) (R.request rid) := by
  -- only the request of the step changes
  have hupdate : ∀ {R : Requests N Rid} {rid : Rid} {s : Sys N TaxiRow},
      (∀ rid, Within D.config (query rid) (R.request rid)) → Within D.config (query rid) s →
      ∀ rid', Within D.config (query rid') (Function.update R.request rid s rid') := by
    intro R rid s hR hs rid'
    by_cases hrid : rid' = rid
    · subst hrid
      rwa [Function.update_self]
    · rw [Function.update_of_ne hrid]
      exact hR rid'
  refine h.invariant (I := fun R => ∀ rid, Within D.config (query rid) (R.request rid))
    (fun _ => within_init) (fun R a R' _ hR _ hst => ?_) rid
  obtain ⟨rid, a⟩ := a
  cases a with
  | act a =>
    obtain ⟨s, hs, hreq⟩ := request_step hst
    rw [hreq]
    exact hupdate hR (within_step (steps_of_step hs) (hR rid))
  | weigh n g w =>
    obtain rfl := Option.some.inj hst
    exact hupdate hR ((hR rid).weigh n g w)

/-- **Buffers stay bounded**: those of the producers always, and the gateway's slots of a
request when no owner is eligible twice. -/
theorem buffersBounded (D : Deployment N) (query : Rid → Proto.Query) :
    MatchedBounded D query ∧
      ∀ rid, (D.eligible (query rid)).Nodup → SlotsBounded D query rid := by
  refine ⟨fun R hR rid n g => ((within_of_reach hR rid).buffers n).le g, ?_⟩
  intro rid hown R hR o
  have hslots := (within_of_reach hR rid).slots hown
  refine (hslots.reply o).imp_right fun ⟨out, isLast, hmem, hout⟩ => ?_
  exact ⟨out, isLast, hmem, hout.length_le⟩

def unweighed (l : List (Act ℕ)) : List (Unit × WeighedAct ℕ) := l.map fun a => ((), .act a)

/-- A reply with two rows, for a request of a large weight. -/
def heavy : List (Unit × WeighedAct ℕ) :=
  unweighed (submitted 1) ++ [((), .weigh 1 0 1000)] ++
    unweighed (produced 1 2 ++ [.prefetch 0 .start, .prefetch 0 .issue] ++ servedCall 0 10 ++
      [.prefetch 0 .receive])

theorem buffersBounded_heavy :
    ∃ R, Reach (weighedStep near everything) (fun _ _ => True) (Requests.init ℕ Unit) R ∧
      ((R.request ()).gate.prefetchBuf 1).length = 2 ∧
      (((R.request ()).node 1).obj 0).matched.length ≤ maxBuffered ∧
      ∃ out isLast, ⟨1, .replied .ok out isLast⟩ ∈ (R.request ()).pull ∧ 2 ≤ out.length := by
  have hrun : (run (weighedStep near everything) (fun _ _ => True) (Requests.init ℕ Unit)
      heavy).map (fun R => ((R.request ()).gate.prefetchBuf 1).length) = some 2 := by
    decide +kernel
  obtain ⟨R, hs, hslot⟩ := Option.map_eq_some_iff.mp hrun
  have hreach := reach_of_run .init hs
  obtain ⟨hbuf, hslots⟩ := buffersBounded near everything
  refine ⟨R, hreach, hslot, hbuf R hreach () 1 0, ?_⟩
  rcases hslots () (by decide +kernel) R hreach 1 with hnil | ⟨out, isLast, hmem, hle⟩
  · rw [hnil] at hslot
    cases hslot
  · exact ⟨out, isLast, hmem, hslot ▸ hle⟩

/-- **An owner that is listed twice** has two prefetchers, and they fill its slot with two
replies. -/
theorem not_buffersBounded_listedTwice : ¬ BuffersBounded listedTwice everything := by
  intro h
  have hrun : (run (weighedStep listedTwice everything) (fun _ _ => True)
      (Requests.init ℕ Unit) (unweighed overtaken.dropLast.dropLast)).map
      (fun R => (((R.request ()).gate.prefetchBuf 1).length,
        (R.request ()).pull.map fun p => (Lane.stageRows p.stage).length)) = some (2, [1, 1]) := by
    decide +kernel
  obtain ⟨R, hs, hslot⟩ := Option.map_eq_some_iff.mp hrun
  obtain ⟨htwo, hone⟩ := Prod.mk.inj hslot
  rcases h.2 () R (reach_of_run .init hs) 1 with hnil | ⟨out, isLast, hmem, hle⟩
  · rw [hnil] at htwo
    cases htwo
  · have hlen : out.length ∈ [1, 1] := by
      rw [← hone]
      exact List.mem_map.mpr ⟨_, hmem, rfl⟩
    simp only [List.mem_cons, List.not_mem_nil, or_false, or_self] at hlen
    omega

end Mini2.Bounded
