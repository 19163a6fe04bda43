import Mini2.Scheduler

/-!
How long a request waits for its turn, while others come and go. Only its place and the cursor
matter, as every request has weight one.
-/

namespace Mini2.Turns

open Mini2.Scheduler

variable {s : FairScheduler} {rid x : String} {M : ℕ}

/-- Every slot of a request is its last one before the next request has its turn. -/
structure Unweighted (s : FairScheduler) : Prop where
  mode : s.mode ≠ .fifo
  ones : ∀ e ∈ s.q, e.weight = 1 ∧ e.credits = 1

lemma Unweighted.next_eq (h : Unweighted s) (hb : s.cursor < s.q.length) :
    next s = (s.q[s.cursor].rid, advance s) := by
  have he := List.getElem?_eq_getElem hb
  cases hm : s.mode with
  | fifo => exact absurd hm h.mode
  | roundRobin => exact next_of_roundRobin hm he
  | weightedRoundRobin =>
    obtain ⟨hw, hc⟩ := h.ones _ (List.getElem_mem hb)
    -- the credits are spent, and given again
    have hput : put s { s.q[s.cursor] with credits := s.q[s.cursor].weight } = s := by
      rw [hw, ← hc]
      unfold put
      rw [List.set_getElem_self hb]
    rw [next_of_credits hm he (by omega), if_pos hc, hput]

lemma Unweighted.add (h : Unweighted s) (rid : String) : Unweighted (add s rid 1) := by
  refine ⟨?_, fun e he => ?_⟩
  · unfold Scheduler.add
    split <;> exact h.mode
  · unfold Scheduler.add at he
    cases hf : find s rid with
    | some i =>
      simp only [hf] at he
      obtain ⟨d, hd, -⟩ := find_eq_some hf
      rw [List.modify_eq_set_getElem?, hd] at he
      rcases List.mem_or_eq_of_mem_set he with hold | rfl
      · exact h.ones e hold
      · exact ⟨rfl, (h.ones d (List.mem_of_getElem? hd)).2⟩
    | none =>
      simp only [hf] at he
      rcases List.mem_append.mp he with hold | hnew
      · exact h.ones e hold
      · rw [List.mem_singleton.mp hnew]
        exact ⟨rfl, rfl⟩

lemma Unweighted.remove (h : Unweighted s) (rid : String) : Unweighted (remove s rid) := by
  unfold Scheduler.remove
  cases find s rid with
  | none => exact h
  | some i => exact ⟨h.mode, fun e he => h.ones e ((List.eraseIdx_sublist s.q i).subset he)⟩

lemma Unweighted.next (h : Unweighted s) (hs : Sound s) : Unweighted (next s).2 := by
  by_cases hne : s.q = []
  · rwa [Scheduler.next, if_pos hne]
  · rw [h.next_eq (hs.cursor_lt hne)]
    exact ⟨h.mode, h.ones⟩

/-! ### The wait -/

/-- How many slots may pass before the request has its turn, with `M` requests at most: a round for
every one before it, and what the cursor has still to go. -/
def wait (M : ℕ) (rid : String) (s : FairScheduler) : ℕ :=
  (ids s).idxOf rid * M + if s.cursor ≤ (ids s).idxOf rid then (ids s).idxOf rid - s.cursor
    else M - s.cursor + (ids s).idxOf rid

lemma length_ids (s : FairScheduler) : (ids s).length = s.q.length := List.length_map _

lemma wait_lt (hs : Sound s) (hM : s.q.length ≤ M) (hrid : rid ∈ ids s) :
    wait M rid s < M * M := by
  have hi := List.idxOf_lt_length_of_mem hrid
  rw [length_ids] at hi
  have hb := hs.cursor_lt (List.ne_nil_of_length_pos (by omega))
  have hround : (ids s).idxOf rid * M + M ≤ M * M := by
    rw [← Nat.succ_mul]
    exact Nat.mul_le_mul_right M (by omega)
  unfold wait
  split <;> omega

lemma wait_add (hrid : rid ∈ ids s) (hx : x ∉ ids s) (weight : ℤ) :
    wait M rid (add s x weight) = wait M rid s := by
  have hids : ids (add s x weight) = ids s ++ [x] := rids_add_of_not_mem hx weight
  have hcursor : (add s x weight).cursor = s.cursor := by
    unfold Scheduler.add
    split <;> rfl
  unfold wait
  rw [hids, List.idxOf_append_of_mem hrid, hcursor]

lemma idxOf_erase (hne : x ≠ rid) (l : List String) : (l.erase x).idxOf rid =
    if l.idxOf x < l.idxOf rid then l.idxOf rid - 1 else l.idxOf rid := by
  induction l with
  | nil => rfl
  | cons y l ih =>
    by_cases hx : y = x
    · subst hx
      rw [List.erase_cons_head, List.idxOf_cons_self, List.idxOf_cons_ne _ hne, if_pos (by omega)]
      rfl
    · rw [List.erase_cons_tail (by simpa using hx), List.idxOf_cons_ne _ hx]
      by_cases hy : y = rid
      · subst hy
        rw [List.idxOf_cons_self, List.idxOf_cons_self, if_neg (by omega)]
      · rw [List.idxOf_cons_ne _ hy, List.idxOf_cons_ne _ hy, ih]
        split <;> split <;> omega

/-- Who leaves makes no one wait longer: the cursor may skip a request, but only one that moves
forward by it. -/
lemma wait_remove (hs : Sound s) (hM : s.q.length ≤ M) (hrid : rid ∈ ids s) (hne : x ≠ rid) :
    wait M rid (remove s x) ≤ wait M rid s := by
  cases hf : find s x with
  | none =>
    have hkeep : remove s x = s := by
      unfold Scheduler.remove
      rw [hf]
    rw [hkeep]
  | some i =>
    have hx : x ∈ ids s := by
      obtain ⟨e, he, rfl⟩ := find_eq_some hf
      exact List.mem_map_of_mem (List.mem_of_getElem? he)
    have hids : ids (remove s x) = (ids s).erase x := rids_remove s x
    have hlen : ((ids s).erase x).length = s.q.length - 1 := by
      rw [List.length_erase_of_mem hx, length_ids]
    have hcursor : (remove s x).cursor = if s.q.length - 1 ≤ s.cursor then 0 else s.cursor := by
      rw [← hlen, ← hids, length_ids]
      unfold Scheduler.remove
      rw [hf]
    have hj := List.idxOf_lt_length_of_mem hrid
    have hk := List.idxOf_lt_length_of_mem hx
    have hjk : (ids s).idxOf x ≠ (ids s).idxOf rid := fun h => hne ((List.idxOf_inj hx).mp h)
    rw [length_ids] at hj hk
    have hb := hs.cursor_lt (List.ne_nil_of_length_pos (by omega))
    unfold wait
    rw [hids, hcursor, idxOf_erase hne]
    generalize (ids s).idxOf rid = j at *
    generalize (ids s).idxOf x = k at *
    by_cases hkj : k < j
    · rw [if_pos hkj]
      have hround : (j - 1) * M + M = j * M := by
        rw [← Nat.succ_mul]
        congr 1
        omega
      by_cases hend : s.q.length - 1 ≤ s.cursor
      · rw [if_pos hend, if_pos (Nat.zero_le _)]
        split <;> omega
      · rw [if_neg hend]
        split <;> split <;> omega
    · rw [if_neg hkj]
      by_cases hend : s.q.length - 1 ≤ s.cursor
      · rw [if_pos hend, if_pos (Nat.zero_le _)]
        split <;> omega
      · rw [if_neg hend]

lemma wait_next (hs : Sound s) (hu : Unweighted s) (hM : s.q.length ≤ M) (hrid : rid ∈ ids s)
    (hne : (next s).1 ≠ rid) : wait M rid (next s).2 < wait M rid s := by
  have hj := List.idxOf_lt_length_of_mem hrid
  rw [length_ids] at hj
  have hb := hs.cursor_lt (List.ne_nil_of_length_pos (by omega))
  rw [hu.next_eq hb] at hne ⊢
  have hat : s.cursor ≠ (ids s).idxOf rid := by
    intro h
    apply hne
    have hget := List.getElem_idxOf (List.idxOf_lt_length_of_mem hrid)
    simp only [← h] at hget
    rw [← hget]
    exact (List.getElem_map Entry.rid).symm
  have hids : ids (advance s) = ids s := rfl
  unfold wait
  rw [hids, advance_cursor]
  rcases Nat.lt_or_ge (s.cursor + 1) s.q.length with hlt | hge
  · rw [Nat.mod_eq_of_lt hlt]
    split <;> split <;> omega
  · have hend : s.cursor + 1 = s.q.length := by omega
    rw [hend, Nat.mod_self]
    split <;> split <;> omega

end Mini2.Turns
