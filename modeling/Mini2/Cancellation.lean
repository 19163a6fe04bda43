import Mini2.Cancelling
import Mini2.Scheduled

/-!
A cancelled request is to leave every node that knows about it. `CancelRequest` names no owner,
so a node that does not have the request, or that is not a gateway, does not pass it on, and the
owners behind it keep theirs. A Python node that has just lost the request by itself may still
be about to take it off its scheduler.
-/

namespace Mini2.Cancellation

open Mini2.Proto Mini2.Net Mini2.Request Mini2.Producer Mini2.Gather Mini2.GatherShape
open Mini2.GatherSteps Mini2.Forwarded Mini2.Runs Mini2.Cancelling Mini2.Scheduled

variable {N Query Row : Type} [DecidableEq N]

/-- When a `CancelQuery` of the gateway has returned with `acknowledged`, no node has the request
in its table or its scheduler. -/
def CancelCleansUp (c : Config N Query Row) (q : Query) (G : Sys N Row → Act N → Prop) : Prop :=
  ∀ s, Reach (step c q) (fun s a => RpcsSucceed s a ∧ G s a) (init N Row) s →
    ∀ j : ℕ, s.cancel[j]? = some ⟨c.gateway, .done true⟩ →
      ∀ n, (s.node n).table = none ∧ (s.node n).scheduled = 0

/-- With its next step, a `CancelQuery` of the gateway returns. -/
def Returns (c : Config N Query Row) (s : Sys N Row) : CancelAct → Prop
  | .erase => c.overlay.impl c.gateway = .cpp ∧ (s.node c.gateway).table = none
  | .unschedule => True
  | .finish => True
  | _ => False

instance (c : Config N Query Row) (s : Sys N Row) (a : CancelAct) : Decidable (Returns c s a) :=
  match a with
  | .erase => inferInstanceAs (Decidable (_ ∧ _))
  | .unschedule | .finish => .isTrue trivial
  | .find | .flag | .clear | .send | .resume | .giveUp => .isFalse id

/-- The step takes the request off the scheduler of its node. -/
def takesOff : CancelAct → Bool
  | .erase | .unschedule => true
  | _ => false

/-- The node's scheduler does not list the request, but for what the step itself takes off. -/
def OffAfter (c : Config N Query Row) (s : Sys N Row) (act : CancelAct) (n : N) : Prop :=
  (s.node n).scheduled ≤ if n = c.gateway ∧ takesOff act = true then 1 else 0

instance (c : Config N Query Row) (s : Sys N Row) (act : CancelAct) (n : N) :
    Decidable (OffAfter c s act n) :=
  inferInstanceAs (Decidable (_ ≤ _))

/-- When a `CancelQuery` of the gateway returns, no other handler has taken the request off its
node's table and has still to take it off its scheduler. -/
def Undivided (c : Config N Query Row) (s : Sys N Row) : Act N → Prop
  | .cancel j act => Returns c s act → (∀ p ∈ s.cancel[j]?, p.node = c.gateway) →
      (∀ p ∈ s.pull, halfway p.stage = true → OffAfter c s act p.owner) ∧
        ∀ p ∈ s.cancel.eraseIdx j, p.stage = .dropping → OffAfter c s act p.node
  | _ => True

instance (c : Config N Query Row) (s : Sys N Row) (a : Act N) : Decidable (Undivided c s a) :=
  match a with
  | .cancel j act => inferInstanceAs (Decidable (Returns c s act →
      (∀ p ∈ s.cancel[j]?, p.node = c.gateway) →
      (∀ p ∈ s.pull, halfway p.stage = true → OffAfter c s act p.owner) ∧
        ∀ p ∈ s.cancel.eraseIdx j, p.stage = .dropping → OffAfter c s act p.node))
  | .submit _ | .forward _ | .produce _ _ | .prefetch _ _ | .pull _ _ | .fetch _
  | .cancelQuery => .isTrue trivial

/-- No call stops short of an owner that depends on it, and no node has still to finish its drop
at the end. -/
def Thorough (c : Config N Query Row) (s : Sys N Row) (a : Act N) : Prop :=
  PassedOn c s a ∧ Undivided c s a

instance (c : Config N Query Row) (s : Sys N Row) (a : Act N) : Decidable (Thorough c s a) :=
  inferInstanceAs (Decidable (_ ∧ _))

variable {c : Config N Query Row} {q : Query} {s s' : Sys N Row} {a : Act N}

/-! ### The tables -/

lemma table_eq_none {G : Sys N Row → Act N → Prop}
    (hG : ∀ s a, G s a → RpcsSucceed s a ∧ PassedOn c s a)
    (h : Reach (step c q) G (init N Row) s) {j : ℕ}
    (hj : s.cancel[j]? = some ⟨c.gateway, .done true⟩) (n : N) : (s.node n).table = none := by
  have hcalls : CallsOk c s := callsOk_of_reach hG h
  have hholders : Holders c s := holders_of_reach h
  have hmem : (⟨c.gateway, .done true⟩ : CancelCall N) ∈ s.cancel := List.mem_of_getElem? hj
  have hcall := hcalls.calls _ hmem
  have hrole : c.overlay.role c.gateway = .gateway := by
    have hret := hcalls.returned (List.ne_nil_of_mem hmem)
    simpa [hret] using hholders.role
  have hself : (s.node c.gateway).table = none := hcall.freed trivial
  by_contra hne
  rcases hholders.held n hne with rfl | hown
  · exact hne hself
  · obtain ⟨i, hi⟩ := List.getElem?_of_mem hown
    rcases (hcall.past hrole i n rfl hi).1 with hnone | rfl | rfl | ⟨o, ho, hsend, hn⟩
    · exact hne hnone
    · exact hne hself
    · exact hne hself
    · -- the gateway has called the node when it came to owner `o`
      obtain ⟨i', hi'⟩ := List.getElem?_of_mem ho
      exact hne ((hcall.past hrole i' o rfl hi').2 hsend n hn)

/-! ### The schedulers -/

/-- Once a `CancelQuery` of the gateway has returned, no scheduler lists the request. -/
def Unlisted (c : Config N Query Row) (s : Sys N Row) : Prop :=
  ∀ j : ℕ, s.cancel[j]? = some ⟨c.gateway, .done true⟩ → ∀ n, (s.node n).scheduled = 0

lemma halves_eq_zero {n : N} (hp : ∀ p ∈ s.pull, halfway p.stage = true → p.owner ≠ n)
    (hc : ∀ p ∈ s.cancel, p.stage = .dropping → p.node ≠ n) : halves s n = 0 := by
  have h1 : s.pull.countP (fun p => halfway p.stage && decide (p.owner = n)) = 0 := by
    rw [List.countP_eq_zero]
    intro p hmem
    simpa using hp p hmem
  have h2 : s.cancel.countP (fun p => decide (p.stage = .dropping ∧ p.node = n)) = 0 := by
    rw [List.countP_eq_zero]
    intro p hmem
    simpa using hc p hmem
  rw [halves, h1, h2]

/-- When a call of the gateway returns, no node is in the middle of its drop, but for nodes that
have the request off their schedulers already. -/
lemma unlisted_of_returned {j : ℕ} {act : CancelAct} (hst : Cancels c q s j act s')
    (hund : Undivided c s (.cancel j act))
    (hj : s'.cancel[j]? = some ⟨c.gateway, .done true⟩) (n : N) :
    halves s' n = 0 ∨ (s'.node n).scheduled = 0 := by
  have key : ∀ {stage : CancelStage}, s.cancel[j]? = some ⟨c.gateway, stage⟩ → Returns c s act →
      s'.pull = s.pull → s'.cancel = s.cancel.set j ⟨c.gateway, .done true⟩ →
      (OffAfter c s act n → (s'.node n).scheduled = 0) →
      halves s' n = 0 ∨ (s'.node n).scheduled = 0 := by
    intro stage hs hret hpull hcancel hoff
    obtain ⟨hp, hc⟩ := hund hret (by simp [hs])
    refine or_iff_not_imp_right.mpr fun hlisted => halves_eq_zero (fun p hmem hhalf => ?_)
      fun p hmem hdrop => ?_
    · rintro rfl
      exact hlisted (hoff (hp p (hpull ▸ hmem) hhalf))
    · rintro rfl
      obtain ⟨i, hi⟩ := List.getElem?_of_mem (hcancel ▸ hmem)
      by_cases hij : j = i
      · subst hij
        rw [← hcancel, hj] at hi
        rw [← Option.some.inj hi] at hdrop
        cases hdrop
      · rw [List.getElem?_set_ne hij] at hi
        exact hlisted (hoff (hc p (List.mem_eraseIdx_iff_getElem?.mpr ⟨i, Ne.symm hij, hi⟩) hdrop))
  -- the step takes the request off the scheduler of the gateway
  have hoff : ∀ {e : Entry Row}, takesOff act = true →
      e.scheduled = (s.node c.gateway).scheduled - 1 → s'.node = (s.setNode c.gateway e).node →
      OffAfter c s act n → (s'.node n).scheduled = 0 := by
    intro e htakes he hnode hoff
    unfold OffAfter at hoff
    rw [hnode]
    by_cases hn : n = c.gateway
    · subst hn
      rw [if_pos ⟨rfl, htakes⟩] at hoff
      rw [setNode_self, he]
      omega
    · rw [if_neg fun h => hn h.1] at hoff
      rw [setNode_ne s hn]
      exact Nat.le_zero.mp hoff
  have hset : ∀ {p r : CancelCall N}, s.cancel[j]? = some p → (s.cancel.set j r)[j]? = some r :=
    fun hs => List.getElem?_set_self (List.getElem?_eq_some_iff.mp hs).1
  cases hst with
  | drop hs hi ht =>
    obtain ⟨rfl, -⟩ := CancelCall.mk.inj (Option.some.inj ((hset hs).symm.trans hj))
    exact key hs ⟨hi, ht rfl⟩ rfl rfl (hoff rfl rfl rfl)
  | unschedule hs =>
    obtain ⟨rfl, -⟩ := CancelCall.mk.inj (Option.some.inj ((hset hs).symm.trans hj))
    exact key hs trivial rfl rfl (hoff rfl rfl rfl)
  | finish hs =>
    obtain ⟨rfl, -⟩ := CancelCall.mk.inj (Option.some.inj ((hset hs).symm.trans hj))
    refine key hs trivial rfl rfl fun hoff => ?_
    have hzero : (s.node n).scheduled = 0 := by simpa [OffAfter, takesOff] using hoff
    exact hzero
  | unknown hs | find hs | fanoutEnd hs | itself hs | throws hs | resume hs | giveUp hs
  | dropJoin hs | erase hs =>
    have := Option.some.inj ((hset hs).symm.trans hj)
    simp at this
  | flag hs =>
    split at hj <;> have := Option.some.inj ((hset hs).symm.trans hj) <;> simp at this
  | clear hs =>
    split at hj <;> have := congrArg CancelCall.stage (Option.some.inj ((hset hs).symm.trans hj))
    all_goals
      split at this <;> cases this
  | send hs =>
    rw [List.getElem?_append_left (by simpa [Sys.setCancel] using
      (List.getElem?_eq_some_iff.mp hs).1)] at hj
    have := Option.some.inj ((hset hs).symm.trans hj)
    simp at this

lemma cancel_of_returned (hst : Steps c q s a s') {j : ℕ}
    (hold : s.cancel[j]? ≠ some ⟨c.gateway, .done true⟩)
    (hj : s'.cancel[j]? = some ⟨c.gateway, .done true⟩) : ∃ act, a = .cancel j act := by
  have happend : ∀ {l new : List (CancelCall N)}, (l ++ new)[j]? = some ⟨c.gateway, .done true⟩ →
      (∀ p ∈ new, p.stage = .start) → l[j]? = some ⟨c.gateway, .done true⟩ := by
    intro l new h hnew
    rw [List.getElem?_append] at h
    split at h
    · exact h
    · have := hnew _ (List.mem_of_getElem? h)
      cases this
  by_contra hne
  have hkeep : s'.cancel = s.cancel → False := fun heq => hold (heq ▸ hj)
  cases hst with
  | cancelQuery => exact hold (happend hj (by simp))
  | @cancel j' act s' hst =>
    obtain ⟨n, stage, stage', new, hs, hset, hnew⟩ := cancels_set hst
    have hjj : j' ≠ j := fun heq => hne ⟨act, heq ▸ rfl⟩
    rw [hset] at hj
    have hj := happend hj hnew
    rw [List.getElem?_set_ne hjj] at hj
    exact hold hj
  | submit hst => exact hkeep (cancel_eq (.submit hst) (by simp) (by simp))
  | forward hst => exact hkeep (cancel_eq (.forward hst) (by simp) (by simp))
  | produce => exact hkeep rfl
  | prefetch hst => exact hkeep (cancel_eq (.prefetch hst) (by simp) (by simp))
  | pull hst => exact hkeep (by rw [pulls_frame hst])
  | fetch hst => exact hkeep (cancel_eq (.fetch hst) (by simp) (by simp))

lemma scheduled_le_of_move {n : N} {e e' : Entry Row} (h : NodeMove c q n e e')
    (he : EntryOk (c.shard n) q e) (hg : e'.gens = e.gens) : e'.scheduled ≤ e.scheduled := by
  cases h with
  | same => exact le_rfl
  | register =>
    cases ht : e.table with
    | some g => simp [registerRequest, ht]
    | none =>
      have hnew := (register_new he (w := 1) ht).1
      omega
  | produce h => exact (prodStep_spec he h).2.scheduled.le
  | touch => exact le_rfl
  | drop h => cases h <;> simp [Entry.erase, Entry.unschedule, dropRequest]

/-- **Cancellation cleans up** in every run in which no call sent for an owner stops short of
it while the owner depends on it, and no node has still to finish its drop at the end. -/
theorem cancelCleansUp (c : Config N Query Row) (q : Query) :
    CancelCleansUp c q (Thorough c) := by
  have hsucc : ∀ (s : Sys N Row) (a : Act N), RpcsSucceed s a ∧ Thorough c s a →
      RpcsSucceed s a ∧ PassedOn c s a := fun s a h => ⟨h.1, h.2.1⟩
  intro s h j hj n
  refine ⟨table_eq_none hsucc h hj n, ?_⟩
  refine h.invariant (I := Unlisted c) (fun j hj => by cases hj) ?_ j hj n
  intro s a s' hr hi hg hst j hj n
  have hr' : Reach (step c q) _ (init N Row) s' := .step hr hg hst
  have hcases := steps_of_step hst
  by_cases hold : s.cancel[j]? = some ⟨c.gateway, .done true⟩
  · -- nobody registers the request again
    have hret : s.submit = .returned := (callsOk_of_reach hsucc hr).returned
      (List.ne_nil_of_mem (List.mem_of_getElem? hold))
    have hsh := shape_of_reach hr
    have hpend : Pending s := pending_of_reach (fun s a ha => ha.1.forwardsAnswered) hr
    have hle := scheduled_le_of_move (node_move hcases n) (hsh.entries n)
      (gens_eq_of_returned hcases hsh.entries hpend hret n)
    rw [hi j hold n] at hle
    exact Nat.le_zero.mp hle
  · have hends : halves s' n = 0 ∨ (s'.node n).scheduled = 0 := by
      obtain ⟨act, rfl⟩ := cancel_of_returned hcases hold hj
      cases hcases with
      | cancel hcases => exact unlisted_of_returned hcases hg.2.2 hj n
    refine hends.elim (fun hhalves => ?_) id
    have hlist := listed_of_reach hr' n
    rw [hhalves, inTable, table_eq_none hsucc hr' hj n] at hlist
    simpa using hlist

/-- `SubmitQuery` along a chain, for the owners that are `1`, `2`, … hops away. -/
def submittedFar (owners : List ℕ) : List (Act ℕ) :=
  [.submit .register, .submit .mark] ++
    owners.zipIdx.flatMap (fun x =>
      [.submit .next] ++ List.replicate x.1 (.forward x.2) ++ [.submit .answered]) ++
    [.submit .next] ++ List.replicate (owners.length + 1) (.submit .spawn)

/-- The gateway of a chain cancels, and the node next to it looks its first call up. -/
def cancelled : List (Act ℕ) :=
  [.cancelQuery, .cancel 0 .find, .cancel 0 .flag, .cancel 0 .clear, .cancel 0 .send,
    .cancel 1 .find]

/-- Two owners, one behind the other, with a row each. -/
def line : Config ℕ Unit ℕ := chainConfig 3 [1, 2] fun o => if o = 0 then 0 else 1

/-- Owner 2 has served its row and dropped the request when the gateway cancels. -/
def farOwnerDone : List (Act ℕ) :=
  List.flatten [submittedFar [1, 2], produced 2 1,
    [.prefetch 1 .start, .prefetch 1 .issue, .pull 0 .handle], servedCall 0 10,
    .prefetch 1 .receive :: fetched, [.prefetch 1 .issue, .pull 1 .handle], servedCall 1 10,
    .prefetch 1 .receive :: cancelled,
    [.cancel 1 .flag, .cancel 1 .clear, .cancel 1 .erase, .cancel 0 .resume, .cancel 0 .send,
      .cancel 2 .find, .cancel 0 .resume, .cancel 0 .send, .cancel 0 .erase, .prefetch 0 .start,
      .prefetch 0 .issue, .cancel 0 .finish]]

theorem cancelCleansUp_farOwnerDone :
    ∃ s, Reach (step line ()) (fun s a => RpcsSucceed s a ∧ Thorough line s a) (init ℕ ℕ) s ∧
      s.cancel[0]? = some ⟨0, .done true⟩ ∧
      ∀ n, (s.node n).table = none ∧ (s.node n).scheduled = 0 := by
  have hrun : (run (step line ()) (fun s a => RpcsSucceed s a ∧ Thorough line s a) (init ℕ ℕ)
      farOwnerDone).map (fun s => s.cancel[0]?) = some (some ⟨0, .done true⟩) := by
    decide +kernel
  obtain ⟨s, hs, hdone⟩ := Option.map_eq_some_iff.mp hrun
  have hreach := reach_of_run .init hs
  exact ⟨s, hreach, hdone, cancelCleansUp line () s hreach 0 hdone⟩

/-- An owner behind a node that is none. -/
def behind : Config ℕ Unit ℕ := chainConfig 3 [2] fun o => if o = 2 then 1 else 0

/-- The relay does not know the request, and answers without passing the call on. -/
def unknownToRelay : List (Act ℕ) :=
  [.submit .register, .submit .mark, .submit .next, .forward 0, .forward 0, .submit .answered,
    .submit .next, .submit .spawn, .submit .spawn] ++ cancelled ++
    [.cancel 0 .resume, .cancel 0 .send, .cancel 0 .erase, .prefetch 0 .start,
      .prefetch 0 .issue, .cancel 0 .finish]

/-- **An owner behind a relay keeps the request** that the gateway has cancelled. -/
theorem not_cancelCleansUp_behindRelay : ¬ CancelCleansUp behind () fun _ _ => True := by
  intro h
  have hrun : (run (step behind ()) (fun s a => RpcsSucceed s a ∧ True) (init ℕ ℕ)
      unknownToRelay).map (fun s => (s.cancel[0]?, (s.node 2).table)) =
      some (some ⟨0, .done true⟩, some 0) := by decide +kernel
  obtain ⟨s, hs, heq⟩ := Option.map_eq_some_iff.mp hrun
  obtain ⟨hdone, htable⟩ := Prod.mk.inj heq
  have hnone := (h s (reach_of_run .init hs) 0 hdone 2).1
  rw [htable] at hnone
  cases hnone

end Mini2.Cancellation
