import Mathlib.Algebra.Order.BigOperators.Group.List
import Mathlib.Algebra.Order.Ring.Nat
import Mini2.Budget
import Mini2.ExactlyOnce

/-!
Every `FetchChunk` makes progress: its wait ends when there is a row to send, or when the stream
is over. So a stream has at most one chunk more than rows.
-/

namespace Mini2.Progress

open Mini2.Proto Mini2.Net Mini2.Request Mini2.Producer Mini2.Gather Mini2.GatherSteps
open Mini2.GatherShape Mini2.RoundRobin Mini2.Runs Mini2.Lane Mini2.SelfLane Mini2.Finish
open Mini2.Budget Mini2.Cluster Mini2.ExactlyOnce

variable {N Query Row : Type} [DecidableEq N]

/-! ### One fetch -/

variable {c : Config N Query Row} {q : Query} {s s' : Sys N Row} {a : Act N}

lemma allDone_of_allDrained {maxRows : ℤ} (h : s.allDrained c = true) :
    (drainStep c s maxRows).allDone c = true := by
  unfold Sys.allDrained at h
  simp only [Bool.and_eq_true, List.isEmpty_iff, List.all_eq_true, Bool.or_eq_true,
    decide_eq_true_eq] at h
  obtain ⟨⟨hdone, hself⟩, hremote⟩ := h
  refine List.all_eq_true.mpr fun o ho => ?_
  by_cases hg : o = c.gateway
  · have hrest := drain_self (c := c) s maxRows
    rw [hself, eq_comm, List.append_eq_nil_iff] at hrest
    have hqueue : (drain maxRows (sources c) (s.slots c)).queue c.gateway = [] := by
      simpa [drainStep, Sys.self, Sys.setNode, Entry.setObj] using hrest.2
    simp [drainStep, hg, hdone, hqueue]
  · have hslot := drain_slot (c := c) s maxRows hg
    have hqueue : (drainStep c s maxRows).gate.prefetchBuf o =
        (drain maxRows (sources c) (s.slots c)).queue o := if_neg hg
    rw [hqueue] at hslot
    simp only [drainStep, if_neg hg, if_pos ho, Bool.or_eq_true, Bool.and_eq_true,
      List.isEmpty_iff]
    rcases hremote o ho with (hgw | hdone) | ⟨hpre, hbuf⟩
    · exact absurd hgw hg
    · exact .inl hdone
    · rw [hbuf, eq_comm, List.append_eq_nil_iff] at hslot
      exact .inr ⟨hpre, hslot.2⟩

/-- **A fetch sends a row, or ends the stream.** -/
theorem drain_progress {maxRows : ℤ} (hst : fetchStep c q s (.drain maxRows) = some s')
    (hmax : 1 ≤ maxRows) (hcancel : (s.self c).cancelled = false) :
    s.log.length < s'.log.length ∨ s'.fetch = .drained := by
  simp only [fetchStep] at hst
  split at hst
  next hwait =>
    obtain rfl := Option.some.inj hst
    rcases hwait.2 with hc | hdata | hdrained
    · rw [hcancel] at hc
      cases hc
    · -- some source has a row
      left
      obtain ⟨o, ho, hrows⟩ := List.any_eq_true.mp hdata
      have hrow : s.slots c o ≠ [] := by simpa using hrows
      have hpos := drain_pos hmax ho hrow
      simp only [drainStep, List.length_append]
      omega
    · right
      simp [allDone_of_allDrained hdrained]
  next => cases hst

/-! ### Nothing is cancelled -/

omit [DecidableEq N] in
lemma setObj_cancelled {e : Entry Row} {g : ℕ} {st : RequestState Row}
    (hst : st.cancelled = (e.obj g).cancelled) (g' : ℕ) :
    ((e.setObj g st).obj g').cancelled = (e.obj g').cancelled := by
  by_cases hg : g' = g
  · subst hg
    simpa [Entry.setObj] using hst
  · simp [Entry.setObj, hg]

omit [DecidableEq N] in
lemma produces_cancelled {sh : Shard Query Row} {impl : Impl} {e e' : Entry Row} {act : ProdAct}
    (hst : Produces sh impl e act e') (g : ℕ) : (e'.obj g).cancelled = (e.obj g).cancelled := by
  cases hst with
  | nothing => exact setObj_cancelled (e := e) (by rfl) g
  | push => exact setObj_cancelled (e := e) (by rfl) g
  | finish => exact setObj_cancelled (e := e) (by rfl) g
  | _ => rfl

/-- No state of the request is cancelled. -/
def Uncancelled (s : Sys N Row) : Prop := ∀ n g, ((s.node n).obj g).cancelled = false

lemma Uncancelled.setNode (h : Uncancelled s) {n : N} {e : Entry Row}
    (he : ∀ g, (e.obj g).cancelled = false) : Uncancelled (s.setNode n e) := by
  intro m g
  by_cases hm : m = n
  · subst hm
    rw [setNode_self]
    exact he g
  · rw [setNode_ne s hm]
    exact h m g

omit [DecidableEq N] in
lemma registerRequest_cancelled {sh : Shard Query Row} {w : ℤ} {e : Entry Row}
    (h : ∀ g, (e.obj g).cancelled = false) (g : ℕ) :
    ((registerRequest sh q w e).obj g).cancelled = false := by
  have hnew : (newState sh q w).cancelled = false := by
    unfold newState
    simp only
    split
    · rfl
    · split <;> rfl
  unfold registerRequest
  split
  · exact h g
  · by_cases hg : g = e.gens
    · subst hg
      simpa using hnew
    · simpa [hg] using h g

lemma uncancelled_step (hnil : s.cancel = []) (hst : Steps c q s a s') (h : Uncancelled s) :
    Uncancelled s' := by
  cases hst with
  | submit hst =>
    cases hst with
    | register => exact h.setNode (registerRequest_cancelled (h c.gateway))
    | _ => exact h
  | forward hst =>
    cases hst with
    | @register o => exact h.setNode (registerRequest_cancelled (h o))
    | _ => exact h
  | @produce n act e' hst =>
    exact h.setNode fun g => (produces_cancelled (produces_of_step hst) g).trans (h n g)
  | prefetch hst => cases hst <;> exact h
  | pull hst =>
    cases hst with
    | @pop o g =>
      exact h.setNode fun g' => (setObj_cancelled (e := s.node o) (by rfl) g').trans (h o g')
    | @last o => exact h.setNode (h o)
    | @erase o => exact h.setNode (h o)
    | @unschedule o => exact h.setNode (h o)
    | _ => exact h
  | fetch hst =>
    cases hst with
    | drain maxRows =>
      exact h.setNode fun g =>
        (setObj_cancelled (e := s.node c.gateway) (by rfl) g).trans (h c.gateway g)
    | erase => exact h.setNode (h c.gateway)
    | erased => exact h.setNode (h c.gateway)
    | _ => exact h
  | cancelQuery => exact h
  | cancel hst => exact absurd hnil (cancel_ne_nil hst)

lemma uncancelled_of_reach {G : Sys N Row → Act N → Prop} (hG : ∀ s a, G s a → a ≠ .cancelQuery)
    (h : Reach (step c q) G (init N Row) s) : Uncancelled s :=
  h.invariant (I := Uncancelled) (fun _ _ => rfl) fun _ _ _ hr hi _ hst =>
    uncancelled_step (cancel_eq_nil hG hr) (steps_of_step hst) hi

/-! ### Counting the chunks -/

/-- The action answers a `FetchChunk`. -/
def answers : Act N → Bool
  | .fetch (.drain _) => true
  | _ => false

/-- A request, and how many chunks the client has been sent. -/
def counted (c : Config N Query Row) (q : Query) (x : Sys N Row × ℕ) (a : Act N) :
    Option (Sys N Row × ℕ) :=
  (step c q x.1 a).map fun s => (s, x.2 + (answers a).toNat)

/-- Nobody cancels, and a chunk may have a row. -/
def Paced : Act N → Prop
  | .cancelQuery => False
  | .fetch (.drain maxRows) => 1 ≤ maxRows
  | _ => True

instance (a : Act N) : Decidable (Paced a) :=
  match a with
  | .cancelQuery => .isFalse id
  | .fetch (.drain maxRows) => inferInstanceAs (Decidable (1 ≤ maxRows))
  | .fetch .start | .fetch .count | .fetch .erase | .fetch .finish | .submit _ | .forward _
  | .produce _ _ | .prefetch _ _ | .pull _ _ | .cancel _ _ => .isTrue trivial

omit [DecidableEq N] in
lemma Paced.ne_cancelQuery (h : Paced a) : a ≠ .cancelQuery := by
  rintro rfl
  exact h

variable {G : Sys N Row → Act N → Prop} {x : Sys N Row × ℕ}

lemma reach_of_counted (h : Reach (counted c q) (fun x a => G x.1 a) (init N Row, 0) x) :
    Reach (step c q) G (init N Row) x.1 := by
  induction h with
  | init => exact .init
  | step _ hg hst ih =>
    obtain ⟨s, hs, rfl⟩ := Option.map_eq_some_iff.mp hst
    exact .step ih hg hs

/-- Only an answer to a fetch sends rows, and a stream that has ended has no other one. -/
lemma closed_or_open (hend : Ended c s) (hst : Steps c q s a s') :
    s.log.length ≤ s'.log.length ∧
      ((∀ maxRows, a ≠ .fetch (.drain maxRows)) → Closed s → Closed s') ∧
      (∀ maxRows, a = .fetch (.drain maxRows) → ¬ Closed s) := by
  have hold : s'.log = s.log → s'.fetch = s.fetch → s'.finished = s.finished →
      (∀ maxRows, a ≠ .fetch (.drain maxRows)) →
      s.log.length ≤ s'.log.length ∧
        ((∀ maxRows, a ≠ .fetch (.drain maxRows)) → Closed s → Closed s') ∧
        (∀ maxRows, a = .fetch (.drain maxRows) → ¬ Closed s) := by
    intro hlog hfetch hfin hne
    refine ⟨by rw [hlog], fun _ hc => ?_, fun maxRows ha => absurd ha (hne maxRows)⟩
    rwa [Closed, hfetch, hfin]
  cases hst with
  | submit hst => cases hst <;> exact hold rfl rfl rfl (by simp)
  | forward hst => cases hst <;> exact hold rfl rfl rfl (by simp)
  | produce => exact hold rfl rfl rfl (by simp)
  | prefetch hst => cases hst <;> exact hold rfl rfl rfl (by simp)
  | pull hst =>
    have hframe := pulls_frame hst
    exact hold (by rw [hframe]) (by rw [hframe]) (by rw [hframe]) (by simp)
  | fetch hst =>
    cases hst with
    | start hf ht =>
      refine ⟨Nat.le_refl _, fun _ hc => ?_, by simp⟩
      rcases hc with hfin | hne
      · rw [(hend.gone (.inl hfin)).1] at ht
        cases ht
      · exact absurd hf hne.1
    | drain maxRows hf =>
      refine ⟨by simp [drainStep], fun hne => absurd rfl (hne maxRows), fun _ _ hc => ?_⟩
      rcases hc with hfin | hne
      · rw [hend.idle hfin] at hf
        cases hf
      · exact hne.2 hf
    | count => exact ⟨Nat.le_refl _, fun _ _ => .inr (by simp), by simp⟩
    | erase => exact ⟨Nat.le_refl _, fun _ _ => .inr (by simp), by simp⟩
    | erased => exact ⟨Nat.le_refl _, fun _ _ => .inl (by simp), by simp⟩
    | finish => exact ⟨Nat.le_refl _, fun _ _ => .inl (by simp), by simp⟩
  | cancelQuery => exact hold rfl rfl rfl (by simp)
  | cancel hst =>
    have hframe := cancels_frame hst
    exact hold (by rw [hframe]) (by rw [hframe]) (by rw [hframe]) (by simp)

lemma chunks_le (hG : ∀ s a, G s a → Paced a)
    (h : Reach (counted c q) (fun x a => G x.1 a) (init N Row, 0) x) :
    x.2 ≤ x.1.log.length ∨ x.2 ≤ x.1.log.length + 1 ∧ Closed x.1 := by
  refine h.invariant
    (I := fun x => x.2 ≤ x.1.log.length ∨ x.2 ≤ x.1.log.length + 1 ∧ Closed x.1)
    (.inl (Nat.le_refl 0)) fun x a x' hr hi hg hst => ?_
  obtain ⟨s', hs, rfl⟩ := Option.map_eq_some_iff.mp hst
  have hreach := reach_of_counted hr
  obtain ⟨hlog, hclosed, hopen⟩ := closed_or_open (ended_of_reach hreach) (steps_of_step hs)
  by_cases ha : ∃ maxRows, a = .fetch (.drain maxRows)
  · obtain ⟨maxRows, rfl⟩ := ha
    have hnc : ∀ s a, G s a → a ≠ .cancelQuery := fun s a hg => (hG s a hg).ne_cancelQuery
    have hle : x.2 ≤ x.1.log.length := hi.resolve_right fun hc => hopen maxRows rfl hc.2
    rcases drain_progress (q := q) hs (hG _ _ hg) (uncancelled_of_reach hnc hreach c.gateway 0) with
      hrow | hlast
    · exact .inl (Nat.succ_le_of_lt (hle.trans_lt hrow))
    · exact .inr ⟨Nat.succ_le_succ (hle.trans hlog), .inr (by simp [hlast])⟩
  · have hne : ∀ maxRows, a ≠ .fetch (.drain maxRows) := fun m hm => ha ⟨m, hm⟩
    have hsame : (answers a).toNat = 0 := by
      unfold answers
      split
      next m => exact absurd rfl (hne m)
      next => rfl
    simp only [hsame, Nat.add_zero]
    rcases hi with hi | ⟨hi, hc⟩
    · exact .inl (hi.trans hlog)
    · exact .inr ⟨hi.trans (Nat.succ_le_succ hlog), hclosed hne hc⟩

/-! ### The rows of a query -/

def matching (D : Deployment N) (q : Proto.Query) : ℕ :=
  (D.overlay.dataOwners.dedup.map fun o => (D.answer q o).length).sum

/-- Where nobody cancels, a fetch whose wait has ended sends a row or ends the stream; and where
the steps meet the guard too, a request is over after at most one fetch more than it has
matching rows. -/
def FetchesProgress (D : Deployment N) (q : Proto.Query)
    (G : Sys N TaxiRow → Act N → Prop) : Prop :=
  (∀ s, Reach (step D.config q) (fun _ a => Paced a) (init N TaxiRow) s → ∀ maxRows s',
    1 ≤ maxRows → fetchStep D.config q s (.drain maxRows) = some s' →
      s.log.length < s'.log.length ∨ s'.fetch = .drained) ∧
  ∀ x, Reach (counted D.config q) (fun x a => Paced a ∧ G x.1 a) (init N TaxiRow, 0) x →
    x.2 ≤ matching D q ∨ x.2 = matching D q + 1 ∧ Closed x.1

lemma log_length_le {D : Deployment N} {q : Proto.Query} {s : Sys N TaxiRow}
    {G : Sys N TaxiRow → Act N → Prop} (hG : ∀ s a, G s a → Timely s a ∧ a ≠ .cancelQuery)
    (h : Reach (step D.config q) G (init N TaxiRow) s) : s.log.length ≤ matching D q := by
  have hle : ∀ o, (itemsOf s.log o).length ≤ (D.answer q o).length := by
    intro o
    rw [← matchRows_shard]
    by_cases ho : o = D.gateway
    · subst ho
      have hself := selfRows_of_reach (L := False) (fun hL => hL.elim) h
      exact hself.log_sublist.length_le
    · exact log_le ho hG h
  have hsrc : ∀ p ∈ s.log, p.1 ∈ D.overlay.dataOwners.dedup := by
    intro p hp
    refine List.mem_dedup.mpr (mem_of_answer (q := q) fun hnil => ?_)
    have hmem : p.2 ∈ itemsOf s.log p.1 :=
      List.mem_map.mpr ⟨p, List.mem_filter.mpr ⟨hp, by simp⟩, rfl⟩
    have hlen := hle p.1
    rw [hnil, List.length_nil, Nat.le_zero, List.length_eq_zero_iff] at hlen
    rw [hlen] at hmem
    cases hmem
  have hperm := (perm_flatMap_itemsOf (List.nodup_dedup _) hsrc).length_eq
  rw [List.length_map, List.length_flatMap] at hperm
  rw [hperm]
  exact List.sum_le_sum fun o _ => hle o

/-- **Every fetch makes progress**, and a stream has at most one chunk more than rows, where no
owner registers the request for a forward after it has begun to serve. -/
theorem fetchesProgress (D : Deployment N) (q : Proto.Query) : FetchesProgress D q Timely := by
  refine ⟨fun s h maxRows s' hmax hst => ?_, fun x h => ?_⟩
  · have hself := uncancelled_of_reach (fun _ _ hg => hg.ne_cancelQuery) h D.gateway 0
    exact drain_progress hst hmax hself
  · have hreach := reach_of_counted (G := fun s a => Paced a ∧ Timely s a) h
    have hrows := log_length_le (fun _ _ hg => ⟨hg.2, hg.1.ne_cancelQuery⟩) hreach
    rcases chunks_le (G := fun s a => Paced a ∧ Timely s a) (fun _ _ hg => hg.1) h with hle | hle
    · exact .inl (hle.trans hrows)
    · rcases Nat.lt_or_ge (matching D q) x.2 with hlt | hge
      · exact .inr ⟨by omega, hle.2⟩
      · exact .inl hge

/-- The first forward is given up and handled when its owner has served all its rows. -/
def handledLate : List (Act ℕ) :=
  [.submit .register, .submit .mark, .submit .next, .submit (.failed .deadlineExceeded),
      .submit .next, .forward 1, .submit .answered, .submit .next, .submit .spawn,
      .submit .spawn] ++
    nothingProduced ++ produced 1 1 ++ [.prefetch 0 .start, .prefetch 0 .issue] ++
    servedCall 0 10 ++ [.prefetch 0 .receive] ++ fetched ++ [.prefetch 0 .issue] ++
    servedCall 1 10 ++
    -- the last reply is lost
    [.prefetch 0 (.failed .deadlineExceeded), .forward 0] ++ produced 1 1 ++
    [.prefetch 0 .issue] ++ servedCall 2 10 ++ [.prefetch 0 .receive] ++ fetched ++
    [.prefetch 0 .issue] ++ servedCall 3 10 ++ [.prefetch 0 .receive] ++ fetched

/-- **A forward that is handled late makes the owner serve its rows again**: a query with one
matching row is not over after two chunks. -/
theorem not_fetchesProgress_handledLate :
    ¬ FetchesProgress near (twoQueries false) fun _ _ => True := by
  intro h
  have hrun : (run (counted near.config (twoQueries false)) (fun _ a => Paced a ∧ True)
      (init ℕ TaxiRow, 0) handledLate).map (fun x => x.2) = some 3 := by decide +kernel
  obtain ⟨x, hx, hchunks⟩ := Option.map_eq_some_iff.mp hrun
  have hone : matching near (twoQueries false) = 1 := by decide +kernel
  have hbound := h.2 x (reach_of_run .init hx)
  rw [hone, hchunks] at hbound
  omega

end Mini2.Progress
