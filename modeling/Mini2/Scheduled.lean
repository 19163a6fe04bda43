import Mini2.GatherShape

/-!
How often the scheduler of a node lists a request. A Python node drops a request in two steps,
each under a lock of its own; until the second one its scheduler may list a request that its
table has lost.
-/

namespace Mini2.Scheduled

open Mini2.Proto Mini2.Net Mini2.Request Mini2.Producer Mini2.Gather Mini2.GatherSteps
open Mini2.GatherShape Mini2.Runs

variable {N Query Row : Type}

/-- How often the node has the request in its table. -/
def inTable (e : Entry Row) : ℕ := if e.table.isSome then 1 else 0

/-- The `PullChunk` is between the two steps. -/
def halfway : PullStage N Row → Bool
  | .dropping _ => true
  | _ => false

variable [DecidableEq N]

/-- The handlers of the node that are between the two steps. -/
def halves (s : Sys N Row) (n : N) : ℕ :=
  s.pull.countP (fun p => halfway p.stage && decide (p.owner = n)) +
    s.cancel.countP fun p => decide (p.stage = .dropping ∧ p.node = n)

/-- The scheduler lists the request once if the table has it, and once more at most for each
handler that is about to take it off. -/
def Listed (s : Sys N Row) : Prop :=
  ∀ n, (s.node n).scheduled ≤ inTable (s.node n) + halves s n

variable {c : Config N Query Row} {q : Query} {s s' : Sys N Row} {a : Act N}

lemma countP_set_add {α : Type} (p : α → Bool) {l : List α} {i : ℕ} {x : α}
    (h : l[i]? = some x) (y : α) :
    (l.set i y).countP p + (p x).toNat = l.countP p + (p y).toNat := by
  obtain ⟨hlt, rfl⟩ := List.getElem?_eq_some_iff.mp h
  have hle := List.boole_getElem_le_countP (p := p) hlt
  rw [List.countP_set hlt]
  cases hx : p l[i] <;> cases hy : p y <;> simp only [hx, if_true] at hle <;>
    simp only [if_true, Bool.false_eq_true, if_false, Bool.toNat_true, Bool.toNat_false] <;> omega

/-! ### How the handlers between the steps change -/

lemma halves_setPull {i : ℕ} {o : N} {stage stage' : PullStage N Row}
    (hp : s.pull[i]? = some ⟨o, stage⟩) (hpull : s'.pull = s.pull.set i ⟨o, stage'⟩)
    (hcancel : s'.cancel = s.cancel) (n : N) :
    halves s' n + (halfway stage && decide (o = n)).toNat =
      halves s n + (halfway stage' && decide (o = n)).toNat := by
  have h := countP_set_add (fun p => halfway p.stage && decide (p.owner = n)) hp ⟨o, stage'⟩
  unfold halves
  rw [hpull, hcancel]
  simp only at h
  omega

lemma halves_setCancel {j : ℕ} {m : N} {stage stage' : CancelStage} (new : List (CancelCall N))
    (hj : s.cancel[j]? = some ⟨m, stage⟩) (hpull : s'.pull = s.pull)
    (hcancel : s'.cancel = s.cancel.set j ⟨m, stage'⟩ ++ new)
    (hnew : ∀ p ∈ new, p.stage = .start) (n : N) :
    halves s' n + (decide (stage = .dropping ∧ m = n)).toNat =
      halves s n + (decide (stage' = .dropping ∧ m = n)).toNat := by
  have h := countP_set_add (fun p => decide (p.stage = .dropping ∧ p.node = n)) hj ⟨m, stage'⟩
  have h0 : new.countP (fun p => decide (p.stage = .dropping ∧ p.node = n)) = 0 := by
    rw [List.countP_eq_zero]
    intro p hp
    simp [hnew p hp]
  unfold halves
  rw [hpull, hcancel, List.countP_append, h0]
  simp only at h
  omega

lemma halves_append (pulls : List (PullCall N Row)) (cancels : List (CancelCall N))
    (hpull : s'.pull = s.pull ++ pulls) (hcancel : s'.cancel = s.cancel ++ cancels)
    (hp : ∀ p ∈ pulls, halfway p.stage = false) (hc : ∀ p ∈ cancels, p.stage = .start) (n : N) :
    halves s' n = halves s n := by
  have h1 : pulls.countP (fun p => halfway p.stage && decide (p.owner = n)) = 0 := by
    rw [List.countP_eq_zero]
    intro p hmem
    simp [hp p hmem]
  have h2 : cancels.countP (fun p => decide (p.stage = .dropping ∧ p.node = n)) = 0 := by
    rw [List.countP_eq_zero]
    intro p hmem
    simp [hc p hmem]
  unfold halves
  rw [hpull, hcancel, List.countP_append, List.countP_append, h1, h2]
  rfl

lemma halves_eq (hpull : s'.pull = s.pull) (hcancel : s'.cancel = s.cancel) (n : N) :
    halves s' n = halves s n :=
  halves_append [] [] (by simpa using hpull) (by simpa using hcancel)
    (fun _ h => by cases h) (fun _ h => by cases h) n

/-! ### One step -/

omit [DecidableEq N] in
lemma register_listed {sh : Shard Query Row} {w : ℤ} {e : Entry Row} {k : ℕ}
    (h : e.scheduled ≤ inTable e + k) :
    (registerRequest sh q w e).scheduled ≤ inTable (registerRequest sh q w e) + k := by
  unfold registerRequest
  cases ht : e.table with
  | some g => exact h
  | none =>
    simp only [inTable, ht] at h ⊢
    simp at h ⊢
    omega

omit [DecidableEq N] in
lemma drop_listed {e : Entry Row} {k : ℕ} (h : e.scheduled ≤ inTable e + k) :
    (dropRequest e).scheduled ≤ inTable (dropRequest e) + k := by
  have hle : inTable e ≤ 1 := by
    unfold inTable
    split <;> omega
  show e.scheduled - 1 ≤ 0 + k
  omega

omit [DecidableEq N] in
lemma erase_listed {e : Entry Row} {k : ℕ} (h : e.scheduled ≤ inTable e + k) :
    e.erase.scheduled ≤ inTable e.erase + (k + 1) := by
  have hle : inTable e ≤ 1 := by
    unfold inTable
    split <;> omega
  show e.scheduled ≤ 0 + (k + 1)
  omega

omit [DecidableEq N] in
lemma unschedule_listed {e : Entry Row} {k : ℕ} (h : e.scheduled ≤ inTable e + (k + 1)) :
    e.unschedule.scheduled ≤ inTable e.unschedule + k := by
  show e.scheduled - 1 ≤ inTable e + k
  omega

lemma Listed.frame (h : Listed s) (hnode : s'.node = s.node)
    (hhalves : ∀ n, halves s' n = halves s n) : Listed s' := by
  intro n
  rw [hnode, hhalves]
  exact h n

lemma Listed.setNode (h : Listed s) {m : N} {e : Entry Row}
    (hnode : s'.node = Function.update s.node m e)
    (hhalves : ∀ n, n ≠ m → halves s' n = halves s n)
    (hm : e.scheduled ≤ inTable e + halves s' m) : Listed s' := by
  intro n
  rw [hnode]
  by_cases hn : n = m
  · subst hn
    simpa using hm
  · rw [Function.update_of_ne hn, hhalves n hn]
    exact h n

lemma listed_pull {i : ℕ} {act : PullAct} (hst : Pulls c s i act s') (h : Listed s) :
    Listed s' := by
  have hcancel : s'.cancel = s.cancel := by rw [pulls_frame hst]
  have hset : ∀ {o : N} {stage : PullStage N Row} (stage'), s.pull[i]? = some ⟨o, stage⟩ →
      s'.pull = s.pull.set i ⟨o, stage'⟩ → ∀ n,
      halves s' n + (halfway stage && decide (o = n)).toNat =
        halves s n + (halfway stage' && decide (o = n)).toNat :=
    fun _ hp hpull n => halves_setPull hp hpull hcancel n
  have hmove : ∀ {o : N} {stage stage' : PullStage N Row}, s.pull[i]? = some ⟨o, stage⟩ →
      halfway stage = false → halfway stage' = false → s'.pull = s.pull.set i ⟨o, stage'⟩ →
      ∀ n, halves s' n = halves s n := fun hp h1 h2 hpull n => by
    simpa [h1, h2] using hset _ hp hpull n
  cases hst with
  | @pop o g hp maxRows =>
    have hhalves := hmove hp rfl rfl rfl
    refine h.setNode rfl (fun n _ => hhalves n) ?_
    rw [hhalves]
    exact h o
  | @last o g out hp =>
    have hhalves := hmove hp rfl rfl rfl
    refine h.setNode rfl (fun n _ => hhalves n) ?_
    rw [hhalves]
    exact drop_listed (h o)
  | @erase o g out hp =>
    have hhalves := hset (.dropping out) hp rfl
    refine h.setNode rfl (fun n hn => ?_) ?_
    · simpa [halfway, hn.symm] using hhalves n
    · have ho := hhalves o
      simp only [halfway, Bool.false_and, Bool.toNat_false, Nat.add_zero, Bool.true_and,
        decide_true, Bool.toNat_true] at ho
      rw [ho]
      exact erase_listed (h o)
  | @unschedule o out hp =>
    have hhalves := hset (.replied .ok out true) hp rfl
    refine h.setNode rfl (fun n hn => ?_) ?_
    · simpa [halfway, hn.symm] using hhalves n
    · have ho := hhalves o
      simp only [halfway, Bool.false_and, Bool.toNat_false, Nat.add_zero, Bool.true_and,
        decide_true, Bool.toNat_true] at ho
      refine unschedule_listed ?_
      rw [ho]
      exact h o
  | relay hp => exact h.frame rfl (hmove hp rfl rfl rfl)
  | noRoute hp => exact h.frame rfl (hmove hp rfl rfl rfl)
  | missing hp => exact h.frame rfl (hmove hp rfl rfl rfl)
  | found hp => exact h.frame rfl (hmove hp rfl rfl rfl)
  | load hp => exact h.frame rfl (hmove hp rfl rfl rfl)
  | decide hp => exact h.frame rfl (hmove hp rfl rfl rfl)
  | more hp => exact h.frame rfl (hmove hp rfl rfl rfl)

lemma listed_cancel {j : ℕ} {act : CancelAct} (hst : Cancels c q s j act s') (h : Listed s) :
    Listed s' := by
  have hpull : s'.pull = s.pull := by rw [cancels_frame hst]
  have hset : ∀ {m : N} {stage : CancelStage} (stage'), s.cancel[j]? = some ⟨m, stage⟩ →
      s'.cancel = s.cancel.set j ⟨m, stage'⟩ → ∀ n,
      halves s' n + (decide (stage = .dropping ∧ m = n)).toNat =
        halves s n + (decide (stage' = .dropping ∧ m = n)).toNat := fun _ hj hcancel n =>
    halves_setCancel [] hj hpull (by simpa using hcancel) (fun _ h => by cases h) n
  have hmove : ∀ {m : N} {stage stage' : CancelStage}, s.cancel[j]? = some ⟨m, stage⟩ →
      stage ≠ .dropping → stage' ≠ .dropping → s'.cancel = s.cancel.set j ⟨m, stage'⟩ →
      ∀ n, halves s' n = halves s n := fun hj h1 h2 hcancel n => by
    simpa [h1, h2] using hset _ hj hcancel n
  cases hst with
  | unknown hj => exact h.frame rfl (hmove hj (by simp) (by simp) rfl)
  | find hj => exact h.frame rfl (hmove hj (by simp) (by simp) rfl)
  | @flag n g hj =>
    have hnew : CancelStage.flagged g ≠ .dropping := by simp
    have hhalves : ∀ m, halves _ m = halves s m := hmove hj (by simp) hnew (by split <;> rfl)
    refine h.setNode (m := n) (by split <;> rfl) (fun m _ => hhalves m) ?_
    rw [hhalves]
    exact h n
  | @clear n g hj =>
    have hnew : (if c.overlay.role n = .gateway then .fanout 0 else .erasing : CancelStage) ≠
        .dropping := by
      split <;> simp
    have hhalves : ∀ m, halves _ m = halves s m := hmove hj (by simp) hnew (by split <;> rfl)
    refine h.setNode (m := n) (by split <;> rfl) (fun m _ => hhalves m) ?_
    rw [hhalves]
    exact h n
  | fanoutEnd hj => exact h.frame rfl (hmove hj (by simp) (by simp) rfl)
  | itself hj => exact h.frame rfl (hmove hj (by simp) (by simp) rfl)
  | throws hj => exact h.frame rfl (hmove hj (by simp) (by simp) rfl)
  | send hj =>
    refine h.frame rfl fun n => ?_
    simpa using halves_setCancel _ hj hpull rfl (by simp) n
  | resume hj => exact h.frame rfl (hmove hj (by simp) (by simp) rfl)
  | giveUp hj => exact h.frame rfl (hmove hj (by simp) (by simp) rfl)
  | @dropJoin n hj =>
    have hhalves := hmove hj (by simp) (by simp) rfl
    refine h.setNode rfl (fun m _ => hhalves m) ?_
    rw [hhalves]
    exact drop_listed (h n)
  | @drop n hj =>
    have hhalves := hmove hj (by simp) (by simp) rfl
    refine h.setNode rfl (fun m _ => hhalves m) ?_
    rw [hhalves]
    exact drop_listed (h n)
  | @erase n hj =>
    have hhalves := hset .dropping hj rfl
    refine h.setNode rfl (fun m hm => ?_) ?_
    · simpa [hm.symm] using hhalves m
    · have hn := hhalves n
      simp only [reduceCtorEq, false_and, decide_false, Bool.toNat_false, Nat.add_zero, and_self,
        decide_true, Bool.toNat_true] at hn
      rw [hn]
      exact erase_listed (h n)
  | @unschedule n hj =>
    have hhalves := hset (.done true) hj rfl
    refine h.setNode rfl (fun m hm => ?_) ?_
    · simpa [hm.symm] using hhalves m
    · have hn := hhalves n
      simp only [reduceCtorEq, false_and, decide_false, Bool.toNat_false, Nat.add_zero, and_self,
        decide_true, Bool.toNat_true] at hn
      refine unschedule_listed ?_
      rw [hn]
      exact h n
  | finish hj => exact h.frame rfl (hmove hj (by simp) (by simp) rfl)

lemma listed_step (hok : EntriesOk c q s) (hst : Steps c q s a s') (h : Listed s) :
    Listed s' := by
  cases hst with
  | submit hst =>
    cases hst with
    | register =>
      refine h.setNode rfl (fun n _ => halves_eq rfl rfl n) ?_
      rw [halves_eq rfl rfl]
      exact register_listed (h c.gateway)
    | _ => exact h.frame rfl (halves_eq rfl rfl)
  | forward hst =>
    cases hst with
    | @register o =>
      refine h.setNode rfl (fun n _ => halves_eq rfl rfl n) ?_
      rw [halves_eq rfl rfl]
      exact register_listed (h o)
    | _ => exact h.frame rfl (halves_eq rfl rfl)
  | @produce n act e' hst =>
    have hm := (prodStep_spec (hok n) hst).2
    refine h.setNode rfl (fun m _ => halves_eq rfl rfl m) ?_
    rw [halves_eq rfl rfl, inTable, hm.scheduled, hm.table]
    exact h n
  | prefetch hst =>
    cases hst with
    | @issue o hop =>
      exact h.frame rfl (halves_append [⟨o, .at hop⟩] [] rfl (List.append_nil _).symm
        (by simp [halfway]) (fun _ h => by cases h))
    | _ => exact h.frame rfl (halves_eq rfl rfl)
  | pull hst => exact listed_pull hst h
  | fetch hst =>
    cases hst with
    | drain =>
      refine h.setNode (m := c.gateway) rfl (fun n _ => halves_eq rfl rfl n) ?_
      rw [halves_eq rfl rfl]
      exact h c.gateway
    | erase =>
      refine h.setNode (m := c.gateway) rfl (fun n _ => halves_eq rfl rfl n) ?_
      rw [halves_eq rfl rfl]
      exact drop_listed (h c.gateway)
    | erased =>
      refine h.setNode (m := c.gateway) rfl (fun n _ => halves_eq rfl rfl n) ?_
      rw [halves_eq rfl rfl]
      exact drop_listed (h c.gateway)
    | _ => exact h.frame rfl (halves_eq rfl rfl)
  | cancelQuery =>
    exact h.frame rfl (halves_append [] [⟨c.gateway, .start⟩] (List.append_nil _).symm rfl
      (fun _ h => by cases h) (by simp))
  | cancel hst => exact listed_cancel hst h

/-- **A scheduler lists what its table has**, but for the handlers that are about to take it
off, in every run. -/
theorem listed_of_reach {G : Sys N Row → Act N → Prop}
    (h : Reach (step c q) G (init N Row) s) : Listed s := by
  refine h.invariant (I := Listed) (fun _ => Nat.zero_le _) fun s a s' hr hi _ hst => ?_
  exact listed_step (shape_of_reach hr).entries (steps_of_step hst) hi

end Mini2.Scheduled
