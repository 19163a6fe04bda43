import Mini2.Lib.Cuts
import Mini2.Scheduler

/-!
The scheduler through any sequence of calls, with weights of any sign. What it holds is the ids that
have been added and not been removed since; the cursor is at one of them as long as there is one,
and the loop of `next` comes to an end without a look outside of the vector.
-/

namespace Mini2.Scheduler

open Mini2.Cuts

/-! ### Calls -/

/-- The mode that a text selects. -/
def Mode.ofText (mode : String) : Mode :=
  if mode = "fifo" then .fifo
  else if mode = "round_robin" then .roundRobin
  else .weightedRoundRobin

inductive Op
  | add (rid : String) (weight : ℤ)
  | remove (rid : String)
  | next
  deriving DecidableEq

def Op.apply (s : FairScheduler) : Op → FairScheduler
  | .add rid weight => Scheduler.add s rid weight
  | .remove rid => Scheduler.remove s rid
  | .next => (Scheduler.next s).2

/-- The scheduler after calls in a row, from the empty one. -/
def perform (mode : String) (ops : List Op) : FairScheduler :=
  ops.foldl Op.apply (empty (.ofText mode))

/-- The loop of `next` as it counts its tries, for at most `rounds` rounds: it stops at an access
outside of the vector. -/
def loop : ℕ → ℕ → FairScheduler → Option (String × FairScheduler)
  | 0, _, _ => none
  | rounds + 1, tries, s =>
    if tries ≤ s.q.length then
      match s.q[s.cursor]? with
      | none => none
      | some e =>
        match s.mode with
        | .fifo => s.q.head?.map fun e => (e.rid, s)
        | .roundRobin => some (e.rid, advance s)
        | .weightedRoundRobin =>
          if e.credits > 0 then
            if e.credits - 1 = 0 then some (e.rid, advance (put s { e with credits := e.weight }))
            else some (e.rid, put s { e with credits := e.credits - 1 })
          else loop rounds (tries + 1) (advance (put s { e with credits := e.weight }))
    else s.q.head?.map fun e => (e.rid, s)

def checkedNext (rounds : ℕ) (s : FairScheduler) : Option (String × FairScheduler) :=
  if s.q = [] then some ("", s) else loop rounds 0 s

/-! ### Active ids -/

/-- The id has been added, and has not been removed since. -/
def Active (ops : List Op) (rid : String) : Prop :=
  ∃ before weight since, ops = before ++ .add rid weight :: since ∧ .remove rid ∉ since

variable {ops : List Op} {rid : String} {s : FairScheduler}

lemma not_active_nil (rid : String) : ¬ Active [] rid := by
  rintro ⟨before, weight, since, h, -⟩
  exact absurd h (by simp)

lemma active_snoc (op : Op) : Active (ops ++ [op]) rid ↔
    (∃ weight, op = .add rid weight) ∨ op ≠ .remove rid ∧ Active ops rid := by
  constructor
  · rintro ⟨before, weight, since, h, hnot⟩
    rcases snoc_split h with rfl | ⟨since', rfl, rfl⟩
    · exact .inl ⟨weight, rfl⟩
    · rw [List.mem_append, List.mem_singleton, not_or] at hnot
      exact .inr ⟨Ne.symm hnot.2, before, weight, since', rfl, hnot.1⟩
  · rintro (⟨weight, rfl⟩ | ⟨hne, before, weight, since, rfl, hnot⟩)
    · exact ⟨ops, weight, [], rfl, List.not_mem_nil⟩
    · refine ⟨before, weight, since ++ [op], by simp, ?_⟩
      rw [List.mem_append, List.mem_singleton, not_or]
      exact ⟨hnot, Ne.symm hne⟩

lemma Active.added (h : Active ops rid) : ∃ weight, Op.add rid weight ∈ ops := by
  obtain ⟨before, weight, since, rfl, -⟩ := h
  exact ⟨weight, List.mem_append_right before List.mem_cons_self⟩

/-! ### The invariant -/

lemma Sound.perform (mode : String) (ops : List Op) : Sound (perform mode ops) := by
  induction ops using List.reverseRecOn with
  | nil => exact ⟨List.nodup_nil, .inr ⟨rfl, rfl⟩⟩
  | append_singleton ops op ih =>
    rw [Scheduler.perform, List.foldl_append, List.foldl_cons, List.foldl_nil]
    cases op with
    | add rid weight => exact ih.add rid weight
    | remove rid => exact ih.remove rid
    | next => exact ih.next

lemma mem_rids_add (rid rid' : String) (weight : ℤ) :
    rid ∈ (add s rid' weight).q.map Entry.rid ↔ rid = rid' ∨ rid ∈ s.q.map Entry.rid := by
  by_cases hmem : rid' ∈ s.q.map Entry.rid
  · rw [rids_add_of_mem hmem]
    constructor
    · exact .inr
    · rintro (rfl | h)
      · exact hmem
      · exact h
  · rw [rids_add_of_not_mem hmem, List.mem_append, List.mem_singleton, or_comm]

/-- **The queue holds the active ids.** -/
lemma mem_perform (mode : String) (ops : List Op) (rid : String) :
    rid ∈ (perform mode ops).q.map Entry.rid ↔ Active ops rid := by
  induction ops using List.reverseRecOn with
  | nil => exact iff_of_false List.not_mem_nil (not_active_nil rid)
  | append_singleton ops op ih =>
    have hsound := Sound.perform mode ops
    rw [active_snoc, ← ih, perform, List.foldl_append, List.foldl_cons, List.foldl_nil, ← perform]
    generalize perform mode ops = s at *
    cases op with
    | add rid' weight =>
      rw [Op.apply, mem_rids_add]
      simp [eq_comm]
    | remove rid' =>
      rw [Op.apply, rids_remove, hsound.nodup.mem_erase_iff]
      simp [eq_comm]
    | next =>
      rw [Op.apply, rids_next]
      simp

/-! ### The loop -/

lemma head_eq_front (hne : s.q ≠ []) : s.q.head?.map (fun e => (e.rid, s)) = some (front s, s) := by
  unfold front
  cases hq : s.q with
  | nil => exact absurd hq hne
  | cons e q => rfl

/-- **The loop ends**, and finds every access inside of the vector. -/
lemma loop_eq {rounds tries : ℕ} (hb : s.cursor < s.q.length) (ht : tries ≤ s.q.length + 1)
    (hr : s.q.length + 2 ≤ rounds + tries) :
    loop rounds tries s = some (scan (s.q.length + 1 - tries) s) := by
  induction rounds generalizing tries s with
  | zero => omega
  | succ rounds ih =>
    have hfront := head_eq_front (List.ne_nil_of_length_pos (Nat.zero_lt_of_lt hb))
    unfold loop
    split
    · next hle =>
      have hrest : s.q.length + 1 - tries = s.q.length - tries + 1 := by omega
      rw [hrest, scan, List.getElem?_eq_getElem hb]
      cases hm : s.mode with
      | fifo => exact hfront
      | roundRobin => rfl
      | weightedRoundRobin =>
        have hpass : ∀ e, loop rounds (tries + 1) (advance (put s e)) =
            some (scan (s.q.length - tries) (advance (put s e))) := by
          intro e
          have hlen : (advance (put s e)).q.length = s.q.length := by simp
          rw [ih (advance_bound (by simpa using hb)) (by omega) (by omega), hlen]
          congr 2
          omega
        simp only
        split
        · split
          · rfl
          · rfl
        · exact hpass _
    · next hgt =>
      have hdone : s.q.length + 1 - tries = 0 := by omega
      rw [hdone, scan, hfront]

/-- The scheduler holds the ids that are active after the calls, and `next` returns one of them. -/
structure Represents (ops : List Op) (s : FairScheduler) : Prop where
  sound : Sound s
  active : ∀ rid, rid ∈ s.q.map Entry.rid ↔ Active ops rid
  /-- The loop of `next` ends, and no access is outside of the vector. -/
  checked : ∀ rounds, s.q.length + 2 ≤ rounds → checkedNext rounds s = some (next s)
  unserved : (next s).1 = "" ↔ ∀ rid, ¬ Active ops rid
  served : (next s).1 ≠ "" → Active ops (next s).1
  kept : (next s).2.q.map Entry.rid = s.q.map Entry.rid

lemma Sound.checkedNext (h : Sound s) {rounds : ℕ} (hr : s.q.length + 2 ≤ rounds) :
    checkedNext rounds s = some (Scheduler.next s) := by
  unfold Scheduler.checkedNext Scheduler.next
  split
  · rfl
  next hne => exact loop_eq (h.cursor_lt hne) (Nat.zero_le _) hr

/-- **The scheduler holds the active ids**, in every mode and after any calls with ids that are not
empty. -/
theorem perform_represents (mode : String) (ops : List Op)
    (hids : ∀ rid weight, .add rid weight ∈ ops → rid ≠ "") :
    Represents ops (perform mode ops) := by
  have hsound := Sound.perform mode ops
  have hactive := mem_perform mode ops
  have hserved : (perform mode ops).q ≠ [] → Active ops (next (perform mode ops)).1 := by
    intro hne
    rw [← hactive, next, if_neg hne]
    exact (scan_spec _ (hsound.cursor_lt hne)).1
  have hempty : (perform mode ops).q = [] → (next (perform mode ops)).1 = "" := by
    intro hnil
    rw [next, if_pos hnil]
  have hname : ∀ rid, Active ops rid → rid ≠ "" := by
    intro rid h
    obtain ⟨weight, hmem⟩ := h.added
    exact hids rid weight hmem
  refine ⟨hsound, hactive, fun rounds hr => hsound.checkedNext hr, ?_, ?_, rids_next _⟩
  · constructor
    · intro hnone rid h
      have hne : (perform mode ops).q ≠ [] := by
        rintro hnil
        rw [← hactive, hnil] at h
        exact List.not_mem_nil h
      exact hname _ (hserved hne) hnone
    · intro hnone
      apply hempty
      by_contra hne
      exact hnone _ (hserved hne)
  · intro hsome
    apply hserved
    intro hnil
    exact hsome (hempty hnil)

/-- Two requests, of which one has no weight and the other one a negative weight. -/
theorem perform_represents_weightless :
    Represents [.add "a" 0, .add "b" (-1), .next, .remove "a"]
      (perform "weighted_round_robin" [.add "a" 0, .add "b" (-1), .next, .remove "a"]) :=
  perform_represents _ _ fun rid weight h => by
    simp at h
    rcases h with ⟨rfl, -⟩ | ⟨rfl, -⟩ <;> simp

end Mini2.Scheduler
