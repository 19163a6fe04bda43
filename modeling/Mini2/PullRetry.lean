import Mini2.Delivery

/-!
The prefetcher issues a `PullChunk` again when its deadline passes. The owner has taken the
rows of the first call off its buffer by then, if that call has reached it, and `last_seq` is
always -1, so a reply that is lost takes its rows with it.
-/

namespace Mini2.PullRetry

open Mini2.Proto Mini2.Net Mini2.Request Mini2.Gather Mini2.Runs Mini2.Lane Mini2.Finish
open Mini2.Forwarded Mini2.Delivery Mini2.RoundRobin

variable {N Query Row : Type} [DecidableEq N]

/-- The only failures are `PullChunk` calls that end by their deadline, and nobody cancels. -/
def OnlyDeadlines : Act N → Prop
  | .submit (.failed _) => False
  | .submit .relayFailed => False
  | .prefetch _ (.failed code) => code = .deadlineExceeded
  | .cancelQuery => False
  | _ => True

instance (a : Act N) : Decidable (OnlyDeadlines a) :=
  match a with
  | .submit (.failed _) | .submit .relayFailed | .cancelQuery => .isFalse id
  | .prefetch _ (.failed code) => inferInstanceAs (Decidable (code = .deadlineExceeded))
  | .submit .register | .submit .mark | .submit .next | .submit .answered | .submit .spawn
  | .prefetch _ .start | .prefetch _ .issue | .prefetch _ .receive | .forward _
  | .produce _ _ | .pull _ _ | .fetch _ | .cancel _ _ => .isTrue trivial

omit [DecidableEq N] in
lemma OnlyDeadlines.forwardsAnswered {a : Act N} (h : OnlyDeadlines a) : ForwardsAnswered a := by
  unfold ForwardsAnswered
  split
  · exact h
  · exact h
  · trivial

/-- When the stream ends, every matching row of every eligible owner has been delivered. -/
def RetriesLoseNothing (c : Config N Query Row) (q : Query) (G : Sys N Row → Act N → Prop) :
    Prop :=
  ∀ s, Reach (step c q) (fun s a => OnlyDeadlines a ∧ G s a) (init N Row) s → s.finished ≠ none →
    ∀ o ∈ c.eligible q, Delivered c q s o

/-- **Retries lose nothing** while no call that has taken rows off its owner's buffer is given
up, and none that has been given up takes rows, for owners that are listed once and at most
eight hops away. -/
theorem retriesLoseNothing (c : Config N Query Row) (q : Query)
    (hown : (c.eligible q).Nodup) (hr : WithinTtl c q) :
    RetriesLoseNothing c q fun s a => ∀ o ∈ c.eligible q, KeepsRows c q o s a := by
  intro s h hf
  refine delivered_of_closed hown hr (fun _ _ ha => ha.1.forwardsAnswered) ?_
    (fun _ _ _ ha o ho _ => ha.2 o ho) h (.inl hf)
  rintro s a ⟨ha, -⟩ rfl
  exact ha

/-- The first call is given up before the owner has handled it, and handled when all is over. -/
def lostRequest : List (Act ℕ) :=
  submitted 1 ++ [.prefetch 0 .start, .prefetch 0 .issue, .prefetch 0 (.failed .deadlineExceeded),
    .prefetch 0 .issue] ++ produced 1 2 ++ servedCall 1 10 ++ [.prefetch 0 .receive] ++ fetched ++
    [.prefetch 0 .issue] ++ servedCall 2 10 ++ [.prefetch 0 .receive, .pull 0 .handle] ++
    nothingProduced ++ fetchedLast

theorem retriesLoseNothing_lostRequest :
    ∃ s, Reach (step twoRows ())
        (fun s a => OnlyDeadlines a ∧ ∀ o ∈ twoRows.eligible (), KeepsRows twoRows () o s a)
        (init ℕ ℕ) s ∧ s.finished = some (1, 1) ∧ Delivered twoRows () s 1 := by
  have hrun : (run (step twoRows ())
      (fun s a => OnlyDeadlines a ∧ ∀ o ∈ twoRows.eligible (), KeepsRows twoRows () o s a)
      (init ℕ ℕ) lostRequest).map (fun s => s.finished) = some (some (1, 1)) := by decide +kernel
  obtain ⟨s, hs, hfin⟩ := Option.map_eq_some_iff.mp hrun
  have hreach := reach_of_run .init hs
  refine ⟨s, hreach, hfin, ?_⟩
  refine retriesLoseNothing twoRows () (by decide) (fun o ho _ => ⟨1, by decide, ?_⟩) s hreach
    (by simp [hfin]) 1 (by decide)
  obtain rfl : o = 1 := List.mem_singleton.mp ho
  exact ⟨1, by decide, rfl⟩

/-- The owner serves the first call with one row, and the reply is lost. -/
def lostReply : List (Act ℕ) :=
  submitted 1 ++ [.prefetch 0 .start, .prefetch 0 .issue] ++ produced 1 2 ++ servedCall 0 1 ++
    [.prefetch 0 (.failed .deadlineExceeded), .prefetch 0 .issue] ++ servedCall 1 10 ++
    [.prefetch 0 .receive] ++ fetched ++ [.prefetch 0 .issue] ++ servedCall 2 10 ++
    [.prefetch 0 .receive] ++ nothingProduced ++ fetchedLast

/-- **A lost reply takes its rows with it**, and the stream ends as if nothing had happened. -/
theorem not_retriesLoseNothing_lostReply : ¬ RetriesLoseNothing twoRows () fun _ _ => True := by
  intro h
  have hrun : (run (step twoRows ()) (fun _ a => OnlyDeadlines a ∧ True) (init ℕ ℕ) lostReply).map
      (fun s => (s.finished, itemsOf s.log 1)) = some (some (1, 1), [1]) := by decide +kernel
  obtain ⟨s, hs, heq⟩ := Option.map_eq_some_iff.mp hrun
  obtain ⟨hfin, hlog⟩ := Prod.mk.inj heq
  have hdel := h s (reach_of_run .init hs) (by simp [hfin]) 1 (by decide)
  have hlen := hdel.length_le
  rw [hlog] at hlen
  revert hlen
  decide

end Mini2.PullRetry
