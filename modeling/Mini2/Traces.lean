import Mini2.Outcome
import Mini2.Scheduled

/-!
What a finished query leaves behind, when every call has been answered: nothing, unless a C++
owner without rows has been asked.
-/

namespace Mini2.Traces

open Mini2.Net Mini2.Request Mini2.Producer Mini2.Gather Mini2.GatherShape Mini2.Runs
open Mini2.Finish Mini2.Forwarded Mini2.Scheduled Mini2.ExactlyOnce Mini2.Outcome

variable {N Query Row : Type}

def answered : ForwardStage N → Bool
  | .answered _ => true
  | _ => false

def replied : PullStage N Row → Bool
  | .replied _ _ _ => true
  | _ => false

/-- `SubmitQuery`, `FetchChunk` and all calls between the nodes have returned. -/
structure Returned (s : Sys N Row) : Prop where
  submit : s.submit = .returned ∨ s.submit = .failed
  fetch : s.fetch = .idle
  fwd : s.fwd.all (fun p => answered p.stage) = true
  pull : s.pull.all (fun p => replied p.stage) = true

/-- The node has the request neither in its table nor in its scheduler. -/
def Gone (e : Entry Row) : Prop := e.table = none ∧ e.scheduled = 0

variable [DecidableEq N]

/-- Neither the gateway nor a C++ node has the request. -/
def NoTrace (c : Config N Query Row) (s : Sys N Row) : Prop :=
  ∀ n, n = c.gateway ∨ c.overlay.impl n = .cpp → Gone (s.node n)

/-- In every run in which every call is answered and nobody cancels, a query that is finished,
and whose handlers have returned, has left no trace. -/
def LeavesNoTrace (c : Config N Query Row) (q : Query) : Prop :=
  ∀ s, Reach (step c q) (fun _ a => AllAnswered a) (init N Row) s → s.finished ≠ none →
    Returned s → NoTrace c s

/-- The C++ owners that the query gets to have rows. -/
def HaveRows (c : Config N Query Row) (q : Query) : Prop :=
  ∀ o ∈ c.eligible q, o ≠ c.gateway → c.overlay.impl o = .cpp → Near c o → (c.shard o).size ≠ 0

variable {c : Config N Query Row} {q : Query} {s : Sys N Row}

lemma serves_cpp {o : N} (hi : c.overlay.impl o = .cpp) :
    Serves c o ↔ (c.shard o).size ≠ 0 := by
  simp [Serves, serves, hi]

/-- Where no handler is between two steps, a scheduler lists no request the table has lost. -/
lemma gone_of_table (h : Reach (step c q) (fun _ a => AllAnswered a) (init N Row) s)
    (hret : Returned s) {n : N} (ht : (s.node n).table = none) : Gone (s.node n) := by
  have hlisted := listed_of_reach h n
  have hpull : s.pull.countP (fun p => halfway p.stage && decide (p.owner = n)) = 0 := by
    rw [List.countP_eq_zero]
    intro p hp
    have hreplied := List.all_eq_true.mp hret.pull p hp
    cases hstage : p.stage with
    | dropping out =>
      rw [hstage] at hreplied
      cases hreplied
    | _ => simp [halfway]
  have hnil : s.cancel = [] := cancel_eq_nil notCancelling h
  have hzero : halves s n = 0 := by
    unfold halves
    rw [hpull, hnil]
    rfl
  refine ⟨ht, ?_⟩
  rw [hzero, inTable, ht] at hlisted
  exact Nat.eq_zero_of_le_zero hlisted

lemma noTrace_of_haveRows (h : Reach (step c q) (fun _ a => AllAnswered a) (init N Row) s)
    (hfin : s.finished ≠ none) (hret : Returned s) (hrows : HaveRows c q) : NoTrace c s := by
  have hclosed : Closed s := .inl hfin
  intro n hn
  refine gone_of_table h hret ?_
  by_cases hg : n = c.gateway
  · subst hg
    exact ((ended_of_reach h).gone (.inl hfin)).1
  · have hi := hn.resolve_left hg
    rcases Nat.eq_zero_or_pos (s.node n).gens with h0 | hpos
    · -- it has never had the request
      by_contra ht
      obtain ⟨g, hgen⟩ := Option.ne_none_iff_exists'.mp ht
      have := ((shape_of_reach h).entries n).table g hgen
      omega
    · have htold := told_of_reach (fun _ _ ha => ha.forwardsAnswered) h
      obtain ⟨ho, hnear⟩ := htold.registered n hg hpos
      exact (over_of_closed hg ho h hclosed hnear).2.mpr
        ((serves_cpp hi).mpr (hrows n ho hg hi hnear))

/-- **A finished query leaves no trace exactly if** the C++ owners that it gets to have rows. -/
theorem noTrace_iff (c : Config N Query Row) (q : Query)
    (h : Reach (step c q) (fun _ a => AllAnswered a) (init N Row) s) (hfin : s.finished ≠ none)
    (hret : Returned s) : NoTrace c s ↔ HaveRows c q := by
  have hclosed : Closed s := .inl hfin
  constructor
  · intro hno o ho hne hi hn
    have hover := (over_of_closed hne ho h hclosed hn).2
    exact (serves_cpp hi).mp (hover.mp (hno o (.inr hi)).1)
  · exact noTrace_of_haveRows h hfin hret

/-- The owner next to the gateway serves its one row. -/
def served : List (Act ℕ) :=
  submitted 1 ++ produced 1 1 ++ [.prefetch 0 .start, .prefetch 0 .issue] ++ servedCall 0 10 ++
    [.prefetch 0 .receive] ++ fetched ++ [.prefetch 0 .issue] ++ servedCall 1 10 ++
    [.prefetch 0 .receive] ++ nothingProduced ++ fetchedLast

/-- The owner next to the gateway has no rows, and refuses. -/
def refused : List (Act ℕ) :=
  submitted 1 ++ [.prefetch 0 .start, .prefetch 0 .issue, .pull 0 .handle, .prefetch 0 .receive] ++
    nothingProduced ++ fetchedLast

theorem noTrace_iff_served :
    ∃ s, Reach (step (chainConfig 2 [1] fun o => o) ()) (fun _ a => AllAnswered a) (init ℕ ℕ) s ∧
      s.finished = some (1, 1) ∧ NoTrace (chainConfig 2 [1] fun o => o) s := by
  have hrun : (run (step (chainConfig 2 [1] fun o => o) ()) (fun _ a => AllAnswered a)
      (init ℕ ℕ) served).map (fun s => (s.finished, s.submit, s.fetch,
        s.fwd.all fun p => answered p.stage, s.pull.all fun p => replied p.stage)) =
      some (some (1, 1), .returned, .idle, true, true) := by decide +kernel
  obtain ⟨s, hs, heq⟩ := Option.map_eq_some_iff.mp hrun
  simp only [Prod.mk.injEq] at heq
  obtain ⟨hfin, hsubmit, hfetch, hfwd, hpull⟩ := heq
  have hreach := reach_of_run .init hs
  refine ⟨s, hreach, hfin, ?_⟩
  refine (noTrace_iff _ () hreach (by simp [hfin]) ⟨.inl hsubmit, hfetch, hfwd, hpull⟩).mpr ?_
  intro o ho _ _ _
  obtain rfl := List.mem_singleton.mp ho
  decide

/-- **An owner without rows keeps the request** that it has refused. -/
theorem not_leavesNoTrace_refused : ¬ LeavesNoTrace (chainConfig 2 [1] fun _ => 0) () := by
  intro h
  have hrun : (run (step (chainConfig 2 [1] fun _ => 0) ()) (fun _ a => AllAnswered a)
      (init ℕ ℕ) refused).map (fun s => ((s.finished, (s.node 1).table), s.submit, s.fetch,
        s.fwd.all fun p => answered p.stage, s.pull.all fun p => replied p.stage)) =
      some ((some (0, 1), some 0), .returned, .idle, true, true) := by decide +kernel
  obtain ⟨s, hs, heq⟩ := Option.map_eq_some_iff.mp hrun
  simp only [Prod.mk.injEq] at heq
  obtain ⟨⟨hfin, htable⟩, hsubmit, hfetch, hfwd, hpull⟩ := heq
  have hgone := h s (reach_of_run .init hs) (by simp [hfin]) ⟨.inl hsubmit, hfetch, hfwd, hpull⟩
    1 (.inr (by decide))
  rw [hgone.1] at htable
  cases htable

end Mini2.Traces
