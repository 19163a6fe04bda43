import Mini2.Finish
import Mini2.Forwarded

/-!
The end of a stream: when `FetchChunk` has seen every owner done, the rows of the owners whose
lanes are sound are with the client.
-/

namespace Mini2.Delivery

open Mini2.Proto Mini2.Net Mini2.Request Mini2.Producer Mini2.Gather Mini2.GatherShape
open Mini2.RoundRobin Mini2.Runs Mini2.Lane Mini2.SelfLane Mini2.Finish Mini2.Forwarded

variable {N Query Row : Type} [DecidableEq N] {c : Config N Query Row} {q : Query}
  {s : Sys N Row} {G : Sys N Row → Act N → Prop} {o : N} {k : ℕ} {F : Prop}

def Delivered (c : Config N Query Row) (q : Query) (s : Sys N Row) (o : N) : Prop :=
  ((c.shard o).matchRows q).Subperm (itemsOf s.log o)

lemma delivered_of_sound (hl : IsLane c q o k) (hs : Sound c q o F (lane o k s))
    (hcl : Closing c q s) (hc : Closed s) (hF : F ∨ o ∈ s.gate.ownersResponded) :
    Delivered c q s o :=
  (hs.complete (hcl.remote hc o hl.mem_dataOwners hl.remote) hF).subperm

/-- An eligible gateway has delivered its own rows when a stream ends without cancellation. -/
lemma delivered_self (hnc : ∀ s a, G s a → a ≠ .cancelQuery)
    (h : Reach (step c q) G (init N Row) s) (hc : Closed s) (he : c.gateway ∈ c.eligible q) :
    Delivered c q s c.gateway := by
  have hown := (c.eligible_sublist q).subset he
  obtain ⟨hpos, hd, hm⟩ := ((closing_of_reach h).self hc hown).resolve_left (not_not_intro he)
  have hrows := selfRows_of_reach (L := True) (fun _ => hnc) h
  exact (hrows.complete trivial hpos hd hm).subperm

/-- Where every forward is answered, the lanes are sound with reliable forwards. -/
lemma sound_of_answered (hl : IsLane c q o k) (hr : WithinTtl c q)
    (hfw : ∀ s a, G s a → ForwardsAnswered a) (hnc : ∀ s a, G s a → a ≠ .cancelQuery)
    (hk : ∀ s a, Reach (step c q) G (init N Row) s → G s a → KeepsRows c q o s a)
    (h : Reach (step c q) G (init N Row) s) : Sound c q o True (lane o k s) := by
  have hn : Near c o := hr o hl.mem hl.remote
  refine sound_of_reach hl (fun _ => reaches_of_withinTtl hr hl.mem hl.remote) hnc hk ?_ ?_ h
  · intro _ s hs ht
    have hthreads := (shape_of_reach hs).threads
    exact registered_of_thread hthreads (told_of_reach hfw hs) hl.owner hl.remote ht hn
  · intro _ s act s' hs hg hst hd
    have hsub : GatherSteps.Submits c q s act s' := GatherSteps.submits_of_step hst
    exact kept_of_told (told_of_reach hfw hs) (hfw s _ hg) hsub hl.mem hn hd

/-- **Every row of every eligible owner is delivered** by the end of a stream whose forwards
are answered and none of whose steps loses rows. -/
theorem delivered_of_closed (hown : (c.eligible q).Nodup) (hr : WithinTtl c q)
    (hfw : ∀ s a, G s a → ForwardsAnswered a) (hnc : ∀ s a, G s a → a ≠ .cancelQuery)
    (hk : ∀ s a, Reach (step c q) G (init N Row) s → G s a → ∀ o ∈ c.eligible q, o ≠ c.gateway →
      KeepsRows c q o s a)
    (h : Reach (step c q) G (init N Row) s) (hc : Closed s) :
    ∀ o ∈ c.eligible q, Delivered c q s o := by
  intro o ho
  by_cases hg : o = c.gateway
  · exact hg ▸ delivered_self hnc h hc (hg ▸ ho)
  · obtain ⟨k, hget⟩ := List.getElem?_of_mem ho
    have hl : IsLane c q o k := ⟨hown, hget, hg⟩
    have hs := sound_of_answered hl hr hfw hnc (fun s a hs ha => hk s a hs ha o ho hg) h
    exact delivered_of_sound hl hs (closing_of_reach h) hc (.inl trivial)

end Mini2.Delivery
