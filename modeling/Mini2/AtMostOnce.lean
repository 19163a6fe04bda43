import Mini2.LaneOnce
import Mini2.SelfLane

/-!
At-most-once delivery: whatever is lost, given up, handled late or cancelled, the client gets
of every owner some of its rows, each once and in order.
-/

namespace Mini2.AtMostOnce

open Mini2.Proto Mini2.Net Mini2.Request Mini2.Producer Mini2.Gather Mini2.GatherShape
open Mini2.RoundRobin Mini2.Runs Mini2.Lane Mini2.SelfLane

variable {N Query Row : Type}

def searchRows (sh : Shard Query Row) (q : Query) : List Row := (sh.rangeSearch q).map sh.fill

lemma matchRows_sublist (sh : Shard Query Row) (q : Query) :
    (sh.matchRows q).Sublist (searchRows sh q) := by
  unfold Shard.matchRows
  split
  · exact List.nil_sublist _
  · split
    · exact List.Sublist.refl _
    · exact List.nil_sublist _

variable [DecidableEq N]

/-- In every run in which an owner registers the request for no forward after it has begun to
serve, the client gets a subsequence of the owner's matches. -/
def DeliversAtMostOnce (c : Config N Query Row) (q : Query) : Prop :=
  ∀ s, Reach (step c q) Timely (init N Row) s →
    ∀ o, (itemsOf s.log o).Sublist (searchRows (c.shard o) q)

/-- **At-most-once delivery under failures**, for owners that are listed once. -/
theorem deliversAtMostOnce (c : Config N Query Row) (q : Query)
    (hown : (c.eligible q).Nodup) : DeliversAtMostOnce c q := by
  intro s h o
  refine List.Sublist.trans ?_ (matchRows_sublist (c.shard o) q)
  by_cases hg : o = c.gateway
  · subst hg
    exact (selfRows_of_reach (L := False) (fun hL => hL.elim) h).log_sublist
  · by_cases he : o ∈ c.eligible q
    · obtain ⟨k, hk⟩ := List.getElem?_of_mem he
      have hl : IsLane c q o k := ⟨hown, hk, hg⟩
      exact (once_of_reach hl (fun s a _ ha => ha) h).log_sublist
    · rw [((shape_of_reach h).ledger.foreign o hg he).2]
      exact List.nil_sublist _

/-- The first reply is lost and its call issued again. -/
def lostReply : List (Act ℕ) :=
  submitted 1 ++ produced 1 2 ++ [.prefetch 0 .start, .prefetch 0 .issue] ++ servedCall 0 1 ++
    [.prefetch 0 (.failed .deadlineExceeded), .prefetch 0 .issue] ++ servedCall 1 1 ++
    [.prefetch 0 .receive] ++ fetched

theorem deliversAtMostOnce_lostReply :
    ∃ s, Reach (step (chainConfig 2 [1] fun _ => 2) ()) Timely (init ℕ ℕ) s ∧
      itemsOf s.log 1 = [1] ∧
      (itemsOf s.log 1).Sublist (searchRows ((chainConfig 2 [1] fun _ => 2).shard 1) ()) := by
  have hrun : (run (step (chainConfig 2 [1] fun _ => 2) ()) Timely (init ℕ ℕ) lostReply).map
      (fun s => itemsOf s.log 1) = some [1] := by decide +kernel
  obtain ⟨s, hs, hlog⟩ := Option.map_eq_some_iff.mp hrun
  have hreach := reach_of_run .init hs
  exact ⟨s, hreach, hlog, deliversAtMostOnce _ () (by decide) s hreach 1⟩

/-- **An owner that is listed twice** has two prefetchers, and they swap its rows. -/
theorem not_deliversAtMostOnce_listedTwice :
    ¬ DeliversAtMostOnce (chainConfig 2 [1, 1] fun _ => 2) () := by
  intro h
  have hrun : (run (step (chainConfig 2 [1, 1] fun _ => 2) ()) Timely (init ℕ ℕ) overtaken).map
      (fun s => itemsOf s.log 1) = some [1, 0] := by decide +kernel
  obtain ⟨s, hs, hlog⟩ := Option.map_eq_some_iff.mp hrun
  have hsub := h s (reach_of_run .init hs) 1
  rw [hlog] at hsub
  revert hsub
  decide

end Mini2.AtMostOnce
