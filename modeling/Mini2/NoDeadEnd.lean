import Mini2.Bounded
import Mini2.Completes
import Mini2.Dispatch
import Mini2.EndToEnd

/-!
The requests of a running overlay share the producers of its nodes, each of which works on one
request at a time. Whatever they have done so far, they can be let go, and all requests can be
brought to their ends.
-/

namespace Mini2.NoDeadEnd

open Mini2.Proto Mini2.Store Mini2.Net Mini2.Request Mini2.Producer Mini2.Gather Mini2.GatherSteps
open Mini2.GatherShape Mini2.Runs Mini2.Cluster Mini2.ExactlyOnce Mini2.Finish Mini2.NextRow
open Mini2.LaneAhead Mini2.Completes Mini2.Dispatch Mini2.Scheduler Mini2.Standing

variable {N Rid : Type} [DecidableEq N] [DecidableEq Rid]
  {c : Rid → Config N Query TaxiRow} {query : Rid → Query} {R R' : Requests N Rid} {m : ℤ}

/-! ### Who the producers work for -/

/-- A producer is busy with the request in whose turn it is. -/
structure Consistent (R : Requests N Rid) : Prop where
  busy : ∀ rid n, ((R.request rid).node n).producer ≠ .idle → R.busy n = some rid
  inTurn : ∀ rid n, R.busy n = some rid → ((R.request rid).node n).producer ≠ .idle

lemma stepOf_other {rid : Rid} {a : Act N} (ha : ∀ n act, a ≠ .produce n act) :
    stepOf c query R (rid, a) = (Gather.step (c rid) (query rid) (R.request rid) a).map fun s =>
      { R with request := Function.update R.request rid s } := by
  cases a with
  | produce n act => exact absurd rfl (ha n act)
  | _ => rfl

lemma consistent_produce {rid : Rid} {n : N} {act : ProdAct}
    (hst : stepOf c query R (rid, .produce n act) = some R') (h : Consistent R) :
    Consistent R' := by
  obtain ⟨hholds, hst⟩ : R.busy n = holds rid act ∧
      (Gather.step (c rid) (query rid) (R.request rid) (.produce n act)).map (fun s =>
        ({ request := Function.update R.request rid s
           busy := Function.update R.busy n
            (if (s.node n).producer = .idle then none else some rid) } : Requests N Rid)) =
          some R' := by
    by_cases hholds : R.busy n = holds rid act
    · exact ⟨hholds, by rwa [stepOf, if_pos hholds] at hst⟩
    · rw [stepOf, if_neg hholds] at hst
      cases hst
  obtain ⟨s, hs, rfl⟩ := Option.map_eq_some_iff.mp hst
  have hother : ∀ n', n' ≠ n → (s.node n').producer = ((R.request rid).node n').producer :=
    fun n' hne => Bounded.producer_eq (steps_of_step hs) fun act' heq =>
      hne (Act.produce.inj heq).1.symm
  -- nobody else is in a turn at the node
  have hfree : ∀ rid', rid' ≠ rid → R.busy n ≠ some rid' := by
    intro rid' hne hb
    rw [hholds] at hb
    unfold holds at hb
    split at hb
    · cases hb
    · exact hne (Option.some.inj hb).symm
  refine ⟨fun rid' n' hp => ?_, fun rid' n' hb => ?_⟩ <;> dsimp only at *
  · by_cases hn : n' = n
    · subst hn
      rw [Function.update_self]
      by_cases hr : rid' = rid
      · subst hr
        rw [Function.update_self] at hp
        exact if_neg hp
      · rw [Function.update_of_ne hr] at hp
        exact absurd (h.busy rid' n' hp) (hfree rid' hr)
    · rw [Function.update_of_ne hn]
      refine h.busy rid' n' ?_
      by_cases hr : rid' = rid
      · subst hr
        rwa [Function.update_self, hother n' hn] at hp
      · rwa [Function.update_of_ne hr] at hp
  · by_cases hn : n' = n
    · subst hn
      rw [Function.update_self] at hb
      split at hb
      next => cases hb
      next hp =>
        obtain rfl := Option.some.inj hb
        rwa [Function.update_self]
    · rw [Function.update_of_ne hn] at hb
      have hp := h.inTurn rid' n' hb
      by_cases hr : rid' = rid
      · subst hr
        rwa [Function.update_self, hother n' hn]
      · rwa [Function.update_of_ne hr]

lemma consistent_other {rid : Rid} {a : Act N} (hne : ∀ n act, a ≠ .produce n act)
    (hst : stepOf c query R (rid, a) = some R') (h : Consistent R) : Consistent R' := by
  rw [stepOf_other hne] at hst
  obtain ⟨s, hs, rfl⟩ := Option.map_eq_some_iff.mp hst
  have hsame : ∀ rid' n', (((Function.update R.request rid s) rid').node n').producer =
      ((R.request rid').node n').producer := by
    intro rid' n'
    by_cases hr : rid' = rid
    · subst hr
      rw [Function.update_self]
      exact Bounded.producer_eq (steps_of_step hs) (hne n')
    · rw [Function.update_of_ne hr]
  refine ⟨fun rid' n' hp => h.busy rid' n' ?_, fun rid' n' hb => ?_⟩
  · rwa [hsame] at hp
  · rw [hsame]
    exact h.inTurn rid' n' hb

lemma consistent_step {rid : Rid} {a : Act N} (hst : stepOf c query R (rid, a) = some R')
    (h : Consistent R) : Consistent R' := by
  by_cases hprod : ∃ n act, a = .produce n act
  · obtain ⟨n, act, rfl⟩ := hprod
    exact consistent_produce hst h
  · exact consistent_other (fun n act ha => hprod ⟨n, act, ha⟩) hst h

lemma consistent_of_reach {G : Requests N Rid → Rid × Act N → Prop} {R₀ : Requests N Rid}
    (h₀ : Consistent R₀) (h : Reach (stepOf c query) G R₀ R) : Consistent R :=
  h.invariant h₀ fun _ _ _ _ hi _ hst => consistent_step hst hi

omit [DecidableEq N] [DecidableEq Rid] in
lemma consistent_init : Consistent (Requests.init N Rid) := ⟨fun _ _ h => absurd rfl h, nofun⟩

/-! ### Letting go of a node -/

lemma stepOf_produce {rid : Rid} {n : N} {act : ProdAct} {s : Sys N TaxiRow}
    (hb : R.busy n = holds rid act)
    (hs : Gather.step (c rid) (query rid) (R.request rid) (.produce n act) = some s) :
    stepOf c query R (rid, .produce n act) = some
      { request := Function.update R.request rid s
        busy := Function.update R.busy n
          (if (s.node n).producer = .idle then none else some rid) } := by
  rw [stepOf, if_pos hb, hs]
  rfl

omit [DecidableEq N] [DecidableEq Rid] in
lemma idle_iff_pick {Row : Type} {sh : Shard Query Row} {impl : Impl} {maxRows : ℤ}
    {e e' : Entry Row} {act : ProdAct} (h : prodStep sh impl maxRows e act = some e') :
    e.producer = .idle ↔ act = .pick := by
  cases produces_of_step h <;> simp_all

/-- Turns go on, and none begins. -/
def LetsGo (a : Rid × Act N) : Prop := ∃ n act, a.2 = .produce n act ∧ act ≠ .pick

/-- The node goes on with its turn on the request. -/
def GoesOn (rid : Rid) (n : N) (a : Rid × Act N) : Prop :=
  ∃ act, a = (rid, .produce n act) ∧ act ≠ .pick

omit [DecidableEq N] [DecidableEq Rid] in
lemma GoesOn.letsGo {rid : Rid} {n : N} {a : Rid × Act N} (h : GoesOn rid n a) : LetsGo a := by
  obtain ⟨act, rfl, hact⟩ := h
  exact ⟨n, act, rfl, hact⟩

lemma busy_none_step {a : Rid × Act N} (ha : LetsGo a) (hst : stepOf c query R a = some R') {n : N}
    (h : R.busy n = none) : R'.busy n = none := by
  obtain ⟨rid, _⟩ := a
  obtain ⟨n', act, rfl, hact⟩ := ha
  by_cases hb : R.busy n' = holds rid act
  · have hne : n ≠ n' := by
      rintro rfl
      rw [h, holds, if_neg hact] at hb
      cases hb
    rw [stepOf, if_pos hb] at hst
    obtain ⟨s, -, rfl⟩ := Option.map_eq_some_iff.mp hst
    exact (Function.update_of_ne hne _ _).trans h
  · rw [stepOf, if_neg hb] at hst
    cases hst

lemma can_end_turn {rid : Rid} {n : N}
    (hentry : EntryOk ((c rid).shard n) (query rid) ((R.request rid).node n))
    (hcons : Consistent R) (hb : R.busy n = some rid) :
    Can (stepOf c query) (fun _ a => GoesOn rid n a) (fun R' => R'.busy n = none) R := by
  obtain ⟨e', hturn, hidle⟩ : Can
      (prodStep ((c rid).shard n) ((c rid).overlay.impl n) (c rid).overlay.maxRows)
      (fun e _ => e.producer ≠ .idle) (fun e => e.producer = .idle)
      ((R.request rid).node n) := can_idle hentry
  -- the busy request goes on with its turn
  have hrun : ∃ R₁, Reach (stepOf c query) (fun _ a => GoesOn rid n a) R R₁ ∧
      (R₁.request rid).node n = e' ∧
      R₁.busy n = if e'.producer = .idle then none else some rid := by
    clear hidle
    induction hturn with
    | init => exact ⟨R, .init, rfl, by rw [hb, if_neg (hcons.inTurn rid n hb)]⟩
    | @step e e' act _ hp hst ih =>
      obtain ⟨R₁, hR₁, hnode, hbusy⟩ := ih
      have hact : act ≠ .pick := fun h => hp ((idle_iff_pick hst).mpr h)
      have hs : Gather.step (c rid) (query rid) (R₁.request rid) (.produce n act) =
          some ((R₁.request rid).setNode n e') := by
        show (prodStep _ _ _ ((R₁.request rid).node n) act).map _ = _
        rw [hnode, hst]
        rfl
      have hbusy : R₁.busy n = holds rid act := by
        rw [hbusy, if_neg hp, holds, if_neg hact]
      refine ⟨_, hR₁.step ⟨act, rfl, hact⟩ (stepOf_produce hbusy hs), ?_, ?_⟩
      · dsimp only
        rw [Function.update_self, setNode_self]
      · dsimp only
        rw [Function.update_self, setNode_self]
  obtain ⟨R₁, hR₁, -, hbusy⟩ := hrun
  exact ⟨R₁, hR₁, hbusy.trans (if_pos hidle)⟩

lemma can_let_go (hR : Reach (stepOf c query) (fun _ a => AllAnswered a.2) (Requests.init N Rid) R)
    (n : N) : Can (stepOf c query) (fun _ a => LetsGo a) (fun R' => R'.busy n = none) R := by
  cases hb : R.busy n with
  | none => exact .now hb
  | some rid =>
    have hentry := (shape_of_reach (request_reachOf hR rid)).entries n
    exact (can_end_turn hentry (consistent_of_reach consistent_init hR) hb).mono
      (fun _ _ ha => ha.letsGo) fun _ => id

omit [DecidableEq N] [DecidableEq Rid] in
lemma answered_of_letsGo {a : Rid × Act N} (h : LetsGo a) : AllAnswered a.2 ∧ Sized m a.2 := by
  obtain ⟨n, act, ha, -⟩ := h
  rw [ha]
  exact ⟨trivial, trivial⟩

lemma can_free (hR : Reach (stepOf c query) (fun _ a => AllAnswered a.2) (Requests.init N Rid) R)
    (l : List N) :
    Can (stepOf c query) (fun _ a => LetsGo a) (fun R' => ∀ n ∈ l, R'.busy n = none) R := by
  refine Can.all l (fun n _ R₁ R₂ _ hr₂ hn => ?_) fun n _ R₁ hr₁ => ?_
  · exact hr₂.invariant (I := fun R' => R'.busy n = none) hn
      fun _ _ _ _ hi ha hst => busy_none_step ha hst hi
  · exact can_let_go (hR.trans (hr₁.mono fun _ _ ha => (answered_of_letsGo (m := 0) ha).1)) n

/-! ### Waiting for a turn -/

variable {name : Rid → String} {S S' : State N Rid} {impl : N → Impl} {mode : Mode}

/-- No call of a request fails. -/
def Answered : Dispatch.Act N Rid → Prop
  | .request a => AllAnswered a.2
  | .copy _ | .skip _ _ => True

/-- No call fails, and chunks have `m` rows at most. -/
def Smooth (m : ℤ) : Dispatch.Act N Rid → Prop
  | .request a => AllAnswered a.2 ∧ Sized m a.2
  | .copy _ | .skip _ _ => True

omit [DecidableEq N] [DecidableEq Rid] in
lemma Smooth.answered {a : Dispatch.Act N Rid} (h : Smooth m a) : Answered a := by
  cases a with
  | request => exact h.1
  | _ => trivial

/-- The node turns to other requests. -/
inductive Aside (rid : Rid) (n : N) : Dispatch.Act N Rid → Prop
  | turn {r : Rid} (hr : r ≠ rid) (act : ProdAct) : Aside rid n (.request (r, .produce n act))
  | copy : Aside rid n (.copy n)
  | skip (r : Rid) : Aside rid n (.skip r n)

omit [DecidableEq N] [DecidableEq Rid] in
lemma Aside.smooth {rid : Rid} {n : N} {a : Dispatch.Act N Rid} (h : Aside rid n a) :
    Smooth m a := by
  cases h with
  | turn => exact ⟨trivial, trivial⟩
  | _ => trivial

/-- The other nodes, and the request, are as they were. -/
structure Waited (rid : Rid) (n : N) (R R' : Requests N Rid) : Prop where
  request : R'.request rid = R.request rid
  busy : ∀ n', n' ≠ n → R'.busy n' = R.busy n'

lemma waited_step {rid : Rid} {n : N} {a : Dispatch.Act N Rid} (ha : Aside rid n a)
    (hst : Dispatch.step c query name S a = some S') : Waited rid n S.requests S'.requests := by
  rcases requests_step hst with heq | ⟨b, rfl, hb⟩
  · rw [heq]
    exact ⟨rfl, fun _ _ => rfl⟩
  · cases ha with
    | @turn r hr act =>
      refine ⟨?_, fun n' hn' => ?_⟩
      · obtain ⟨s, -, hupdate⟩ := request_stepOf hb
        rw [hupdate, Function.update_of_ne hr.symm]
      · rw [stepOf] at hb
        split at hb
        next =>
          obtain ⟨s, -, hs⟩ := Option.map_eq_some_iff.mp hb
          rw [← hs]
          exact Function.update_of_ne hn' _ _
        next => cases hb

lemma waited_of_reach {rid : Rid} {n : N}
    (h : Reach (Dispatch.step c query name) (fun _ a => Aside rid n a) S S') :
    Waited rid n S.requests S'.requests :=
  h.invariant (I := fun S' => Waited rid n S.requests S'.requests) ⟨rfl, fun _ _ => rfl⟩
    fun _ _ _ _ hi ha hst =>
      have hw := waited_step ha hst
      ⟨hw.request.trans hi.request, fun n' hn' => (hw.busy n' hn').trans (hi.busy n' hn')⟩

lemma step_letsGo {a : Rid × Act N} (ha : LetsGo a) {T : N → Turns}
    (hst : stepOf c query R a = some R') :
    Dispatch.step c query name ⟨R, T⟩ (.request a) = some ⟨R', T⟩ := by
  obtain ⟨rid, _⟩ := a
  obtain ⟨n, act, rfl, hact⟩ := ha
  rw [step_request fun n' h => hact (Act.produce.inj h).2, hst]
  obtain ⟨s, hs, hupdate⟩ := request_stepOf hst
  obtain ⟨e, he, rfl⟩ := Option.map_eq_some_iff.mp hs
  refine congrArg some (congrArg (State.mk R') (funext fun n' => if_pos ?_))
  rw [hupdate, Function.update_self]
  by_cases hn : n' = n
  · subst hn
    rw [setNode_self]
    exact scheduled_produce he
  · rw [setNode_ne _ hn]

lemma reach_letsGo {H : Rid × Act N → Prop} (hH : ∀ a, H a → LetsGo a)
    {G : Dispatch.Act N Rid → Prop} (hG : ∀ a, H a → G (.request a)) {T : N → Turns}
    (h : Reach (stepOf c query) (fun _ a => H a) R R') :
    Reach (Dispatch.step c query name) (fun _ a => G a) ⟨R, T⟩ ⟨R', T⟩ :=
  h.embed (State.mk · T) .request fun _ _ _ ha hst => ⟨hG _ ha, step_letsGo (hH _ ha) hst⟩

section Waits

variable (hname : Function.Injective name) (hne : ∀ rid, name rid ≠ "") (hmode : mode ≠ .fifo)
  (hS : Reach (Dispatch.step c query name) (fun _ a => Answered a) (.init impl mode) S)

include hS

lemma requests_of_reach :
    Reach (stepOf c query) (fun _ a => AllAnswered a.2) (Requests.init N Rid) S.requests :=
  requests_reach (H := fun a => AllAnswered a.2) (fun _ _ h => h) hS

lemma consistent_requests : Consistent S.requests :=
  consistent_of_reach consistent_init (requests_of_reach hS)

lemma can_end_aside {rid r : Rid} {n : N} (hr : r ≠ rid) (hb : S.requests.busy n = some r) :
    Can (Dispatch.step c query name) (fun _ a => Aside rid n a)
      (fun S' => S'.requests.busy n = none ∧ S'.turns = S.turns) S := by
  have hentry := (shape_of_reach (request_reachOf (requests_of_reach hS) r)).entries n
  obtain ⟨R', hR', hfree⟩ := can_end_turn hentry (consistent_requests hS) hb
  refine ⟨⟨R', S.turns⟩, reach_letsGo (fun _ ha => ha.letsGo) (fun a ha => ?_) hR', hfree, rfl⟩
  obtain ⟨act, rfl, -⟩ := ha
  exact .turn hr act

include hname hne hmode

/-- The node that is free goes on to the next request, or makes a copy of its list. -/
lemma can_near {rid : Rid} {n : N} (hb : S.requests.busy n = none)
    (hl : 0 < timesListed S.requests n rid) :
    (∃ t, (S.turns n).next = some (name rid, t)) ∨
      Can (Dispatch.step c query name) (fun _ a => Aside rid n a)
        (fun S' => (S'.turns n).ahead (name rid) < (S.turns n).ahead (name rid)) S := by
  have hline := inLine_of_reach hname hmode hS n
  have hcons := consistent_requests hS
  -- the next one takes its turn
  have hturn : ∀ {r : Rid} {t : Turns}, (S.turns n).next = some (name r, t) →
      0 < timesListed S.requests n r → r ≠ rid →
      Can (Dispatch.step c query name) (fun _ a => Aside rid n a)
        (fun S' => (S'.turns n).ahead (name rid) < (S.turns n).ahead (name rid)) S := by
    intro r t hn hr hne
    have hidle : ((S.requests.request r).node n).producer = .idle := by
      by_contra hp
      rw [hcons.busy r n hp] at hb
      cases hb
    have hs : Gather.step (c r) (query r) (S.requests.request r) (.produce n .pick) =
        some ((S.requests.request r).setNode n
          { (S.requests.request r).node n with producer := .picked }) := by
      show (pick _).map _ = _
      rw [pick, if_pos ⟨hidle, hr⟩]
      rfl
    refine .first (step_pick hn (stepOf_produce hb hs)) (.turn hne .pick) (.now ?_)
    simp only [Function.update_self]
    exact hline.ahead_next hl hn fun heq => hne (hname heq)
  rcases hline.turn hne hl with ⟨r, t, hn, hr⟩ | ⟨order, r, left, ht⟩ | ⟨order, ht, hin⟩
  · by_cases hrid : r = rid
    · exact .inl ⟨t, hrid ▸ hn⟩
    · exact .inr (hturn hn hr hrid)
  · have hn : (S.turns n).next = some (name r, .python order left) := by
      rw [ht]
      rfl
    by_cases hrid : r = rid
    · exact .inl ⟨_, hrid ▸ hn⟩
    by_cases htable : ((S.requests.request r).node n).table = none
    · -- the loop passes over a request that the node has lost
      have hst : Dispatch.step c query name S (.skip r n) =
          some { S with turns := Function.update S.turns n (.python order left) } := by
        simp only [Dispatch.step, ht]
        exact if_pos ⟨hb, trivial, htable⟩
      refine .inr (.first hst (.skip r) (.now ?_))
      simp only [Function.update_self, ht]
      exact ahead_tail fun heq => hrid (hname heq)
    · have hstands := stands_of_reach (request_reachOf (requests_of_reach hS) r)
      exact .inr (hturn hn (hstands.scheduled n htable) hrid)
  · have hst : Dispatch.step c query name S (.copy n) =
        some { S with turns := Function.update S.turns n (.python order order) } := by
      simp only [Dispatch.step, ht]
      exact if_pos hb
    refine .inr (.first hst .copy (.now ?_))
    simp only [Function.update_self, ht]
    exact ahead_copy hin

/-- **Every request has its turn**: a node that lists it can be brought to the point where it is the
next one. -/
lemma can_turn {rid : Rid} {n : N} (hb : S.requests.busy n = none)
    (hl : 0 < timesListed S.requests n rid) :
    Can (Dispatch.step c query name) (fun _ a => Aside rid n a)
      (fun S' => S'.requests.busy n = none ∧ ∃ t, (S'.turns n).next = some (name rid, t)) S := by
  have hidle : ((S.requests.request rid).node n).producer = .idle := by
    by_contra hp
    rw [(consistent_requests hS).busy rid n hp] at hb
    cases hb
  refine Can.descend (fun S => (S.turns n).ahead (name rid)) fun S₁ hr₁ _ => ?_
  have hS₁ := hS.trans (hr₁.mono fun _ _ ha => (Aside.smooth (m := 0) ha).answered)
  have hfree : Can (Dispatch.step c query name) (fun _ a => Aside rid n a)
      (fun S₂ => S₂.requests.busy n = none ∧ S₂.turns = S₁.turns) S₁ := by
    cases hb₁ : S₁.requests.busy n with
    | none => exact .now ⟨hb₁, rfl⟩
    | some r =>
      refine can_end_aside hS₁ (fun hrid => ?_) hb₁
      subst hrid
      have hp := (consistent_requests hS₁).inTurn r n hb₁
      rw [(waited_of_reach hr₁).request] at hp
      exact hp hidle
  refine hfree.bind fun S₂ hr₂ hfree₂ => ?_
  have hS₂ := hS₁.trans (hr₂.mono fun _ _ ha => (Aside.smooth (m := 0) ha).answered)
  have hl₂ : 0 < timesListed S₂.requests n rid := by
    unfold timesListed at hl ⊢
    rwa [(waited_of_reach (hr₁.trans hr₂)).request]
  rcases can_near hname hne hmode hS₂ hfree₂.1 hl₂ with hnext | hnear
  · exact .now (.inl ⟨hfree₂.1, hnext⟩)
  · refine hnear.imp fun S₃ _ hlt => .inr ?_
    rwa [hfree₂.2] at hlt

end Waits

/-! ### All requests together -/

/-- The nodes that have to do with data work for the request, or for none. -/
def FreeFor (c : Config N Query TaxiRow) (rid : Rid) (R : Requests N Rid) : Prop :=
  ∀ n, n = c.gateway ∨ n ∈ c.overlay.dataOwners → R.busy n = none ∨ R.busy n = some rid

omit [DecidableEq Rid] in
lemma FreeFor.produce {rid : Rid} {n : N} {g : Config N Query TaxiRow} {p : Prop} [Decidable p]
    {busy : N → Option Rid} {request : Rid → Sys N TaxiRow}
    (h : ∀ n', n' = g.gateway ∨ n' ∈ g.overlay.dataOwners → n' ≠ n →
      busy n' = none ∨ busy n' = some rid) :
    FreeFor g rid ⟨request, Function.update busy n (if p then none else some rid)⟩ := by
  intro n' hn'
  by_cases hn : n' = n
  · subst hn
    simp only [Function.update_self]
    split
    · exact .inl rfl
    · exact .inr rfl
  · simp only [Function.update_of_ne hn]
    exact h n' hn' hn

omit [DecidableEq N] in
lemma listed_of_pick {e e' : Entry TaxiRow} (h : pick e = some e') : 0 < e.scheduled := by
  unfold pick at h
  split at h
  next hp => exact hp.2
  next => cases h

section Complete

variable (hname : Function.Injective name) (hne : ∀ rid, name rid ≠ "") (hmode : mode ≠ .fifo)
  (hS : Reach (Dispatch.step c query name) (fun _ a => Answered a) (.init impl mode) S)

include hname hne hmode hS

/-- What a request can do by itself, it can do among the others, on nodes that are free. -/
lemma can_follow {rid : Rid} (hfree : FreeFor (c rid) rid S.requests) {t : Sys N TaxiRow}
    (h : Reach (Gather.step (c rid) (query rid)) (fun _ a => Onward (c rid) m a)
      (S.requests.request rid) t) :
    ∃ S', Reach (Dispatch.step c query name) (fun _ a => Smooth m a) S S' ∧
      S'.requests.request rid = t := by
  suffices hall : ∃ S', Reach (Dispatch.step c query name) (fun _ a => Smooth m a) S S' ∧
      S'.requests.request rid = t ∧ FreeFor (c rid) rid S'.requests by
    obtain ⟨S', hS', ht, -⟩ := hall
    exact ⟨S', hS', ht⟩
  induction h with
  | init => exact ⟨S, .init, rfl, hfree⟩
  | @step t t' a _ ha hst ih =>
    obtain ⟨S₁, hr₁, rfl, hfree₁⟩ := ih
    have hS₁ := hS.trans (hr₁.mono fun _ _ ha => ha.answered)
    have hcons₁ := consistent_requests hS₁
    by_cases hprod : ∃ n act, a = .produce n act
    · obtain ⟨n, act, rfl⟩ := hprod
      obtain ⟨e, he, rfl⟩ := Option.map_eq_some_iff.mp hst
      by_cases hact : act = .pick
      · -- it waits for its turn
        subst hact
        have hidle := (idle_iff_pick he).mpr rfl
        have hb : S₁.requests.busy n = none :=
          (hfree₁ n ha.placed).resolve_right fun hb => hcons₁.inTurn rid n hb hidle
        obtain ⟨S₂, hr₂, hb₂, u, hu⟩ := can_turn hname hne hmode hS₁ hb (listed_of_pick he)
        have hwaited := waited_of_reach hr₂
        rw [← hwaited.request] at hst ⊢
        refine ⟨_, (hr₁.trans (hr₂.mono fun _ _ => Aside.smooth)).step
          (a := .request (rid, .produce n .pick)) ⟨ha.answered, ha.sized⟩
          (step_pick hu (stepOf_produce hb₂ hst)), Function.update_self .., ?_⟩
        exact FreeFor.produce fun n' hn' hne => hwaited.busy n' hne ▸ hfree₁ n' hn'
      · have hb : S₁.requests.busy n = holds rid act := by
          rw [holds, if_neg hact]
          exact hcons₁.busy rid n fun hp => hact ((idle_iff_pick he).mp hp)
        exact ⟨_, hr₁.step (a := .request (rid, .produce n act)) ⟨ha.answered, ha.sized⟩
          ((step_request fun n' h => hact (Act.produce.inj h).2).trans
            (congrArg _ (stepOf_produce hb hst))), Function.update_self ..,
          FreeFor.produce fun n' hn' _ => hfree₁ n' hn'⟩
    · have hother : ∀ n act, a ≠ .produce n act := fun n act h => hprod ⟨n, act, h⟩
      exact ⟨_, hr₁.step (a := .request (rid, a)) ⟨ha.answered, ha.sized⟩
        ((step_request fun n => hother n .pick).trans
          (congrArg _ ((stepOf_other hother).trans (congrArg _ hst)))),
        Function.update_self .., hfree₁⟩

end Complete

omit [DecidableEq Rid] in
lemma finished_mono {Query Row : Type} {c : Config N Query Row} {q : Query} {s s' : Sys N Row}
    {a : Act N} (hst : Steps c q s a s') (h : s.finished ≠ none) : s'.finished ≠ none := by
  cases hst with
  | submit hst => cases hst <;> exact h
  | forward hst => cases hst <;> exact h
  | produce => exact h
  | prefetch hst => cases hst <;> exact h
  | pull hst => rwa [pulls_frame hst]
  | fetch hst =>
    cases hst with
    | erased => exact Option.some_ne_none _
    | finish => exact Option.some_ne_none _
    | _ => exact h
  | cancelQuery => exact h
  | cancel hst => rwa [cancels_frame hst]

section Complete

variable (hname : Function.Injective name) (hne : ∀ rid, name rid ≠ "") (hmode : mode ≠ .fifo)
  (hfit : ∀ rid, Fit (c rid) (query rid)) (hm : 1 ≤ m)
  (hS : Reach (Dispatch.step c query name) (fun _ a => Answered a) (.init impl mode) S)

include hname hne hmode hfit hm hS

lemma can_complete (rid : Rid) :
    Can (Dispatch.step c query name) (fun _ a => Smooth m a)
      (fun S' => (S'.requests.request rid).finished ≠ none) S := by
  obtain ⟨R, hR, hnone⟩ := can_free (requests_of_reach hS)
    ((c rid).gateway :: (c rid).overlay.dataOwners)
  have hfree : Reach (Dispatch.step c query name) (fun _ a => Smooth m a) S ⟨R, S.turns⟩ :=
    reach_letsGo (fun _ => id) (fun _ => answered_of_letsGo) hR
  have hS₁ := hS.trans (hfree.mono fun _ _ ha => ha.answered)
  obtain ⟨t, ht, hfin⟩ := can_finish (hfit rid) hm
    (request_reachOf (requests_of_reach hS₁) rid)
  obtain ⟨S', hS', rfl⟩ := can_follow hname hne hmode hS₁
    (fun n hn => .inl (hnone n (List.mem_cons.mpr hn))) ht
  exact ⟨S', hfree.trans hS', hfin⟩

/-- **No run of the requests is a dead end**: all of them can be brought to their ends. -/
theorem can_complete_all (l : List Rid) :
    Can (Dispatch.step c query name) (fun _ a => Smooth m a)
      (fun S' => ∀ rid ∈ l, (S'.requests.request rid).finished ≠ none) S := by
  refine Can.all l (fun rid _ S₁ S₂ _ hr₂ hfin => ?_) fun rid _ S₁ hr₁ => ?_
  · refine hr₂.invariant (I := fun S' => (S'.requests.request rid).finished ≠ none) hfin
      fun S a S' _ hi _ hst => ?_
    rcases requests_step hst with heq | ⟨⟨rid', a⟩, rfl, hb⟩
    · rwa [heq]
    · obtain ⟨s, hs, hupdate⟩ := request_stepOf hb
      rw [hupdate]
      by_cases hr : rid = rid'
      · subst hr
        rw [Function.update_self]
        exact finished_mono (steps_of_step hs) hi
      · rwa [Function.update_of_ne hr]
  · exact can_complete hname hne hmode hfit hm (hS.trans (hr₁.mono fun _ _ ha => ha.answered)) rid

end Complete

/-! ### Over a generated overlay -/

section Generated

open Mini2.Routing Mini2.Manifest Mini2.Loaders Mini2.Topology Mini2.OverlayYaml Mini2.EmitYaml
open Mini2.OverlayRoundTrip Mini2.Environment Mini2.Startup Mini2.Answers Mini2.Planned
open Mini2.EndToEnd hiding allRows

variable {getenv : String → Option (List Char)} {args : Args} {edges : List (Node × Node)}
  {ov : OverlayYaml.Overlay} {po : Except String PyOverlay.Overlay} {L : Libraries}
  {ch : String → Choices} {dir : DataDir} {file : Node → CsvFile L.readers}

def NoneEmpty (args : Args) (file : Node → CsvFile L.readers) : Prop :=
  ∀ n ∈ Topology.dataOwners, implOf (args.implMap n) = .python → fileRows (file n) ≠ []

lemma rows_le_size (d : Data) (done : ℕ → List Column) : d.rows.length ≤ (d.shard done).size := by
  cases d with
  | none => exact Nat.zero_le _
  | cpp store doubles valid =>
    exact (length_rows_le store).trans (Nat.le_of_eq (congrArg List.length valid).symm)
  | python p holds =>
    show ((List.range p.n).map p.rowToProto).length ≤ p.n
    rw [List.length_map, List.length_range]

lemma chunkMax_read {o : PyOverlay.Overlay} (ho : PyOverlay.IsRead getenv args edges o) :
    chunkMax (.ok o) = 4096 := by
  obtain ⟨mode, hknobs⟩ := ho.knobs
  unfold chunkMax
  simp only [Except.bind, hknobs]

lemma fit_of_read (h : AllRead getenv args edges ov po) (hconn : (edgeGraph edges).Connected)
    (hs : Stored dir file) (hne : NoneEmpty args file)
    (hcpp : implOf (args.implMap gateway) = .cpp) (up : Up L dir ch ov po)
    (md : OwnerMetadata String) (done : String → ℕ → List Column) (q : Query) :
    Fit (Startup.config (plannedOverlay args edges (chunkMax po)) gateway.name md up.data
      done) q where
  role := role_planned
  impl := (impl_planned gateway).trans hcpp
  nodup := nodup_planned.sublist eligibleOwners_sublist
  near _ ho _ := near_planned hconn (eligibleOwners_sublist.subset ho)
  productive o ho _ _ := by
    obtain ⟨n, hn, rfl⟩ := List.mem_map.mp (eligibleOwners_sublist.subset ho)
    cases himpl : implOf (args.implMap n) with
    | cpp => exact .inl ((impl_planned n).trans himpl)
    | python =>
      refine .inr ⟨fun h0 => hne n hn himpl ?_, ?_⟩
      · have hle : (up.data n.name).rows.length ≤ 0 :=
          h0 ▸ rows_le_size (up.data n.name) (done n.name)
        rw [← List.length_eq_zero_iff, ← (rows_owner h hs up hn).1.length_eq]
        exact Nat.le_zero.mp hle
      · obtain ⟨o, hpo, ho⟩ := h.python n himpl
        show 0 < chunkMax po
        rw [hpo, chunkMax_read ho]
        decide

/-- Whatever has happened while every call was answered: any requests can still be brought to their
ends, with chunks of any size, and then their clients have all rows. -/
def Completable {Rid : Type} [DecidableEq Rid] (c : Rid → Config String Query TaxiRow)
    (query : Rid → Query) (idOf : Rid → String) (impl : String → Impl) (mode : Mode)
    (rows : List TaxiRow) : Prop :=
  ∀ S, Reach (Dispatch.step c query idOf) (fun _ a => Answered a) (.init impl mode) S →
    ∀ m : ℤ, 1 ≤ m → ∀ l : List Rid,
      Can (Dispatch.step c query idOf) (fun _ a => Smooth m a)
        (fun S' => ∀ rid ∈ l, (S'.requests.request rid).finished ≠ none ∧
          ((S'.requests.request rid).log.map Prod.snd).Perm
            (rows.filter (satisfies (query rid)))) S

lemma completable {Rid : Type} [DecidableEq Rid] {idOf : Rid → String}
    (hid : Function.Injective idOf) (hne : ∀ rid, idOf rid ≠ "")
    (h : AllRead getenv args edges ov po) (hconn : (edgeGraph edges).Connected)
    (hs : Stored dir file) (hrows : NoneEmpty args file)
    (hcpp : implOf (args.implMap gateway) = .cpp) (up : Up L dir ch ov po)
    (done : Rid → String → ℕ → List Column) {md : OwnerMetadata String}
    (hd : Describes md (rowsAt file)) {query : Rid → Query} (hq : ∀ rid, Routable md (query rid)) :
    Completable (fun rid => cluster ov po gateway.name md up.data (done rid)) query idOf
      (netOverlay ov).impl (.ofText ov.scheduler.mode) (EndToEnd.allRows file) := by
  simp only [cluster_read h]
  intro S hS m hm l
  have hmode : Mode.ofText ov.scheduler.mode ≠ .fifo := by
    rw [h.cpp.mode]
    decide
  have hfit := fun rid => fit_of_read h hconn hs hrows hcpp up md (done rid) (query rid)
  refine (can_complete_all hid hne hmode hfit hm hS l).imp fun S' hS' hfin rid hrid => ?_
  have hreach := requests_of_reach (hS.trans (hS'.mono fun _ _ ha => ha.answered))
  have hgathers := gathersAll h hconn hs up done hd hq S'.requests hreach rid
  exact ⟨hfin rid hrid, hgathers.2 (hfin rid hrid)⟩

def twoIds (rid : Bool) : String := if rid then "all" else "long"

end Generated

end Mini2.NoDeadEnd
