import Mini2.Forwarded

/-!
`CancelQuery` on its way through the nodes when every call is answered: which nodes a call has
freed when it comes to its next owner, and which nodes nobody has told.
-/

namespace Mini2.Cancelling

open Mini2.Proto Mini2.Net Mini2.Request Mini2.Producer Mini2.Gather Mini2.GatherSteps
open Mini2.GatherShape Mini2.Forwarded Mini2.Runs

variable {N Query Row : Type} [DecidableEq N]

/-- Every call is answered, and a client cancels what `SubmitQuery` has returned. -/
def RpcsSucceed (s : Sys N Row) : Act N → Prop
  | .submit (.failed _) => False
  | .submit .relayFailed => False
  | .prefetch _ (.failed _) => False
  | .cancelQuery => s.submit = .returned
  | .cancel _ .giveUp => False
  | _ => True

instance (s : Sys N Row) (a : Act N) : Decidable (RpcsSucceed s a) :=
  match a with
  | .submit (.failed _) | .submit .relayFailed | .prefetch _ (.failed _)
  | .cancel _ .giveUp => .isFalse id
  | .cancelQuery => inferInstanceAs (Decidable (s.submit = .returned))
  | .submit .register | .submit .mark | .submit .next | .submit .answered | .submit .spawn
  | .forward _ | .produce _ _ | .prefetch _ .start | .prefetch _ .issue | .prefetch _ .receive
  | .pull _ _ | .fetch _ | .cancel _ .find | .cancel _ .flag | .cancel _ .clear
  | .cancel _ .send | .cancel _ .resume | .cancel _ .erase | .cancel _ .unschedule
  | .cancel _ .finish => .isTrue trivial

omit [DecidableEq N] in
lemma RpcsSucceed.forwardsAnswered {s : Sys N Row} {a : Act N} (h : RpcsSucceed s a) :
    ForwardsAnswered a := by
  unfold ForwardsAnswered
  split
  · exact h
  · exact h
  · trivial

/-- A node in the loop over the owners sends a call for this one. -/
def SendsFor (c : Config N Query Row) (n o : N) : Prop := ¬ (o = n ∧ c.overlay.impl n = .cpp)

/-- The gateway sends a call of its own to the node. -/
def Called (c : Config N Query Row) (n : N) : Prop :=
  ∃ o ∈ c.overlay.dataOwners, SendsFor c c.gateway o ∧ c.overlay.nextHop c.gateway o = .ok n

instance (c : Config N Query Row) (n o : N) : Decidable (SendsFor c n o) :=
  inferInstanceAs (Decidable (¬ (_ ∧ _)))

instance (c : Config N Query Row) (n : N) : Decidable (Called c n) :=
  inferInstanceAs (Decidable (∃ o ∈ _, SendsFor c _ o ∧ _ = _))

/-- Owner `o` does not depend on what node `n` sends for it. -/
def Spared (c : Config N Query Row) (s : Sys N Row) (n o : N) : Prop :=
  (s.node o).table = none ∨ o = c.gateway ∨ o = n ∨ Called c o

instance (c : Config N Query Row) (s : Sys N Row) (n o : N) : Decidable (Spared c s n o) :=
  inferInstanceAs (Decidable (_ ∨ _ ∨ _ ∨ Called c o))

/-- The owner for which a call is waited for. -/
def awaited (stage : CancelStage) (j : ℕ) : Option ℕ :=
  match stage with
  | .awaiting k child => if child = j then some k else none
  | _ => none

/-- A call that a node has sent for owner `o` is looked up where it has come to: at `o`, or at a
gateway that has the request and passes the call on, or `o` does not depend on it. -/
def PassedOn (c : Config N Query Row) (s : Sys N Row) : Act N → Prop
  | .cancel j .find => ∀ p ∈ s.cancel, ∀ k ∈ awaited p.stage j, ∀ o ∈ c.overlay.dataOwners[k]?,
      ∀ r ∈ s.cancel[j]?, Spared c s p.node o ∨ o = r.node ∨
        c.overlay.role r.node = .gateway ∧ (s.node r.node).table ≠ none
  | _ => True

instance (c : Config N Query Row) (s : Sys N Row) (a : Act N) : Decidable (PassedOn c s a) :=
  match a with
  | .cancel j .find => inferInstanceAs (Decidable (∀ p ∈ s.cancel, ∀ k ∈ awaited p.stage j,
      ∀ o ∈ c.overlay.dataOwners[k]?, ∀ r ∈ s.cancel[j]?, Spared c s p.node o ∨ o = r.node ∨
        c.overlay.role r.node = .gateway ∧ (s.node r.node).table ≠ none))
  | .cancel _ .flag | .cancel _ .clear | .cancel _ .send | .cancel _ .resume | .cancel _ .giveUp
  | .cancel _ .erase | .cancel _ .unschedule | .cancel _ .finish | .submit _ | .forward _
  | .produce _ _ | .prefetch _ _ | .pull _ _ | .fetch _ | .cancelQuery => .isTrue trivial

/-- The same for a call that has been looked up. -/
def Told (c : Config N Query Row) (s : Sys N Row) (n o : N) (r : CancelCall N) : Prop :=
  Spared c s n o ∨ o = r.node ∨ c.overlay.role r.node = .gateway ∧ r.stage ≠ .done false

/-- The call has erased its node's entry, or has found none. -/
def settled : CancelStage → Prop
  | .dropping => True
  | .joining => True
  | .done _ => True
  | _ => False

/-- The call has left owner `i` behind in its loop. -/
def past (stage : CancelStage) (i : ℕ) : Prop :=
  match stage with
  | .fanout k => i < k
  | .awaiting k _ => i < k
  | .erasing => True
  | .dropping => True
  | .joining => True
  | .done acknowledged => acknowledged = true
  | _ => False

structure CallOk (c : Config N Query Row) (s : Sys N Row) (p : CancelCall N) : Prop where
  child : ∀ k j, p.stage = .awaiting k j → ∃ r, s.cancel[j]? = some r ∧
    ∀ o, c.overlay.dataOwners[k]? = some o → c.overlay.nextHop p.node o = .ok r.node ∧
      (r.stage ≠ .start → Told c s p.node o r)
  freed : settled p.stage → (s.node p.node).table = none
  past : c.overlay.role p.node = .gateway → ∀ i o, past p.stage i →
    c.overlay.dataOwners[i]? = some o → Spared c s p.node o ∧
      (SendsFor c p.node o → ∀ hop, c.overlay.nextHop p.node o = .ok hop →
        (s.node hop).table = none)

structure CallsOk (c : Config N Query Row) (s : Sys N Row) : Prop where
  returned : s.cancel ≠ [] → s.submit = .returned
  calls : ∀ p ∈ s.cancel, CallOk c s p

variable {c : Config N Query Row} {q : Query} {s s' : Sys N Row} {a : Act N}

/-! ### Who holds the request -/

omit [DecidableEq N] in
lemma table_none_of_removes {e e' : Entry Row} (h : Removes e e') (ht : e.table = none) :
    e'.table = none := by
  cases h with
  | erase => rfl
  | unschedule => exact ht
  | drop => rfl

lemma table_none_of_move {n : N} {e e' : Entry Row} (h : NodeMove c q n e e')
    (he : EntryOk (c.shard n) q e) (hg : e'.gens = e.gens) (ht : e.table = none) :
    e'.table = none := by
  cases h with
  | same => exact ht
  | register =>
    have hnew := (register_new he (w := 1) ht).1
    omega
  | produce h => exact (prodStep_spec he h).2.table.trans ht
  | touch => exact ht
  | drop h => exact table_none_of_removes h ht

/-- The gateway has a role, and only it and the owners are ever asked to register. -/
structure Holders (c : Config N Query Row) (s : Sys N Row) : Prop where
  role : s.submit = .idle ∨ s.submit = .failed ∨ c.overlay.role c.gateway = .gateway
  held : ∀ n, (s.node n).table ≠ none → n = c.gateway ∨ n ∈ c.overlay.dataOwners

lemma role_step (hst : Steps c q s a s')
    (h : s.submit = .idle ∨ s.submit = .failed ∨ c.overlay.role c.gateway = .gateway) :
    s'.submit = .idle ∨ s'.submit = .failed ∨ c.overlay.role c.gateway = .gateway := by
  by_cases ha : ∃ act, a = .submit act
  · obtain ⟨act, rfl⟩ := ha
    cases hst with
    | submit hst => cases hst <;> simp_all
  · rw [submit_eq hst fun act ha' => ha ⟨act, ha'⟩]
    exact h

lemma held_step (hst : Steps c q s a s') (hsh : Shape c q s)
    (h : ∀ n, (s.node n).table ≠ none → n = c.gateway ∨ n ∈ c.overlay.dataOwners) :
    ∀ n, (s'.node n).table ≠ none → n = c.gateway ∨ n ∈ c.overlay.dataOwners := by
  intro n ht
  by_contra hn
  obtain ⟨hgate, hown⟩ := not_or.mp hn
  refine ht (table_none_of_move (node_move hst n) (hsh.entries n) ?_ ?_)
  · refine gens_eq hst hsh.entries (fun _ => hgate) fun f _ r ttl hf => hown ?_
    exact (c.eligible_sublist q).subset (hsh.threads.fwd _ (List.mem_of_getElem? hf)).1
  · by_contra hs
    exact hn (h n hs)

lemma holders_of_reach {G : Sys N Row → Act N → Prop} (h : Reach (step c q) G (init N Row) s) :
    Holders c s := by
  refine h.invariant (I := Holders c) ⟨.inl rfl, fun n hn => absurd rfl hn⟩ ?_
  intro s a s' hreach hi _ hst
  have hst := steps_of_step hst
  exact ⟨role_step hst hi.role, held_step hst (shape_of_reach hreach) hi.held⟩

lemma returned_step (hst : Steps c q s a s') (h : s.submit = .returned) :
    s'.submit = .returned := by
  by_cases ha : ∃ act, a = .submit act
  · obtain ⟨act, rfl⟩ := ha
    cases hst with
    | submit hst => cases hst <;> simp_all
  · rw [submit_eq hst fun act ha' => ha ⟨act, ha'⟩]
    exact h

/-- Nobody registers the request again once `SubmitQuery` has returned. -/
lemma gens_eq_of_returned (hst : Steps c q s a s') (hok : EntriesOk c q s) (hpend : Pending s)
    (h : s.submit = .returned) (n : N) : (s'.node n).gens = (s.node n).gens := by
  refine gens_eq hst hok ?_ ?_
  · rintro rfl
    cases hst with
    | submit hst => cases hst <;> simp_all
  · intro f _ r ttl hf
    obtain ⟨k, attempt, hs⟩ := hpend f _ n ttl hf rfl
    rw [h] at hs
    cases hs

lemma table_none_step (hst : Steps c q s a s') (hok : EntriesOk c q s) (hpend : Pending s)
    (h : s.submit = .returned) (n : N) (ht : (s.node n).table = none) :
    (s'.node n).table = none :=
  table_none_of_move (node_move hst n) (hok n) (gens_eq_of_returned hst hok hpend h n) ht

/-! ### What a call does -/

lemma Spared.mono {n o : N} (h : Spared c s n o)
    (hfree : ∀ m, (s.node m).table = none → (s'.node m).table = none) : Spared c s' n o :=
  h.imp_left (hfree o)

lemma Told.mono {n o : N} {r r' : CancelCall N} (h : Told c s n o r)
    (hfree : ∀ m, (s.node m).table = none → (s'.node m).table = none) (hnode : r'.node = r.node)
    (hstage : r.stage ≠ .done false → r'.stage ≠ .done false) : Told c s' n o r' := by
  unfold Told
  rw [hnode]
  exact h.imp (fun h => h.mono hfree) (.imp_right (.imp_right hstage))

lemma callOk_of (n : N) (stage : CancelStage) (hchild : ∀ k j, stage ≠ .awaiting k j)
    (hsettled : ¬ settled stage) (hpast : ∀ i, ¬ past stage i) : CallOk c s ⟨n, stage⟩ where
  child k j h := absurd h (hchild k j)
  freed h := absurd h hsettled
  past _ i _ h := absurd h (hpast i)

lemma callOk_start (n : N) : CallOk c s ⟨n, .start⟩ :=
  callOk_of n .start (by simp) id fun _ => id

/-- What a call has left behind stays so when another stage has left no more behind. -/
lemma past_of_callOk {n : N} {stage stage' : CancelStage} (h : CallOk c s ⟨n, stage⟩)
    (hfree : ∀ m, (s.node m).table = none → (s'.node m).table = none)
    (hpast : ∀ i, past stage' i → past stage i) (hrole : c.overlay.role n = .gateway) (i : ℕ)
    (o : N) (hp : past stage' i) (ho : c.overlay.dataOwners[i]? = some o) : Spared c s' n o ∧
      (SendsFor c n o → ∀ hop, c.overlay.nextHop n o = .ok hop → (s'.node hop).table = none) := by
  obtain ⟨hspared, hhop⟩ := h.past hrole i o (hpast i hp) ho
  exact ⟨hspared.mono hfree, fun hsend hop hn => hfree hop (hhop hsend hop hn)⟩

/-- A call that does not move, while the calls move on that it may wait for. -/
lemma CallOk.mono {p : CancelCall N} (h : CallOk c s p)
    (hfree : ∀ m, (s.node m).table = none → (s'.node m).table = none)
    (hkeep : ∀ j r, s.cancel[j]? = some r → ∃ r', s'.cancel[j]? = some r' ∧ r'.node = r.node ∧
      ∀ k o, p.stage = .awaiting k j → c.overlay.dataOwners[k]? = some o →
        (r.stage ≠ .start → Told c s p.node o r) → r'.stage ≠ .start → Told c s' p.node o r') :
    CallOk c s' p where
  child k j hp := by
    obtain ⟨r, hr, hchild⟩ := h.child k j hp
    obtain ⟨r', hr', hnode, htold⟩ := hkeep j r hr
    refine ⟨r', hr', fun o ho => ⟨?_, htold k o hp ho (hchild o ho).2⟩⟩
    rw [hnode]
    exact (hchild o ho).1
  freed hp := hfree _ (h.freed hp)
  past := past_of_callOk h hfree fun _ => id

lemma CallsOk.frame (h : CallsOk c s) (hsub : s.submit = .returned → s'.submit = .returned)
    (hcancel : s'.cancel = s.cancel) (hfree : s.submit = .returned →
      ∀ m, (s.node m).table = none → (s'.node m).table = none) : CallsOk c s' where
  returned hne := hsub (h.returned (hcancel ▸ hne))
  calls p hp := by
    rw [hcancel] at hp
    have hfree := hfree (h.returned (List.ne_nil_of_mem hp))
    refine (h.calls p hp).mono hfree fun j r hr => ⟨r, by rw [hcancel, hr], rfl, ?_⟩
    exact fun k o _ _ htold hs => (htold hs).mono hfree rfl id

lemma CallsOk.set (h : CallsOk c s) {j : ℕ} {n : N} {stage stage' : CancelStage}
    {new : List (CancelCall N)} (hj : s.cancel[j]? = some ⟨n, stage⟩)
    (hsub : s.submit = .returned → s'.submit = .returned)
    (hcancel : s'.cancel = s.cancel.set j ⟨n, stage'⟩ ++ new)
    (hnew : ∀ p ∈ new, p.stage = .start)
    (hfree : ∀ m, (s.node m).table = none → (s'.node m).table = none)
    (hstage : stage ≠ .start → stage' ≠ .done false)
    (hfind : stage = .start → ∀ p ∈ s.cancel, ∀ k o, p.stage = .awaiting k j →
      c.overlay.dataOwners[k]? = some o → Told c s' p.node o ⟨n, stage'⟩)
    (hok : CallOk c s' ⟨n, stage'⟩) : CallsOk c s' where
  returned _ := hsub (h.returned (List.ne_nil_of_mem (List.mem_of_getElem? hj)))
  calls p hp := by
    have hlt : j < s.cancel.length := (List.getElem?_eq_some_iff.mp hj).1
    rw [hcancel] at hp
    rcases List.mem_append.mp hp with hp | hp
    · rcases List.mem_or_eq_of_mem_set hp with hp | rfl
      · refine (h.calls p hp).mono hfree fun i r hr => ?_
        have hi : i < s.cancel.length := (List.getElem?_eq_some_iff.mp hr).1
        rw [hcancel, List.getElem?_append_left (by simpa using hi)]
        by_cases hij : j = i
        · subst hij
          obtain rfl := Option.some.inj (hj.symm.trans hr)
          refine ⟨⟨n, stage'⟩, List.getElem?_set_self hlt, rfl, fun k o hpk ho htold _ => ?_⟩
          by_cases hstart : stage = .start
          · exact hfind hstart p hp k o hpk ho
          · exact (htold hstart).mono hfree rfl fun _ => hstage hstart
        · refine ⟨r, by rw [List.getElem?_set_ne hij, hr], rfl, fun k o _ _ htold hs => ?_⟩
          exact (htold hs).mono hfree rfl id
      · exact hok
    · obtain ⟨m, stage⟩ := p
      obtain rfl : stage = .start := hnew _ hp
      exact callOk_start m

/-- When the call a node has waited for is over, the owner it was sent for does not depend on
the node any more. -/
lemma spared_of_done (h : CallsOk c s) {n n' o : N} {j k : ℕ} {ack : Bool}
    (hp : ⟨n, .awaiting k j⟩ ∈ s.cancel) (hj : s.cancel[j]? = some ⟨n', .done ack⟩)
    (hk : c.overlay.dataOwners[k]? = some o) :
    Spared c s n o ∧ ∀ hop, c.overlay.nextHop n o = .ok hop → (s.node hop).table = none := by
  have hchild := h.calls _ (List.mem_of_getElem? hj)
  have hfreed : (s.node n').table = none := hchild.freed trivial
  obtain ⟨r, hr, hsent⟩ := (h.calls _ hp).child k j rfl
  obtain rfl := Option.some.inj (hj.symm.trans hr)
  obtain ⟨hhop, htold⟩ := hsent o hk
  refine ⟨?_, fun hop hn => ?_⟩
  · rcases htold (by simp) with hspared | rfl | ⟨hrole, hack⟩
    · exact hspared
    · exact .inl hfreed
    · -- the call has come to a gateway, which has gone through all the owners itself
      have hack : ack = true := by simpa using hack
      rcases (hchild.past hrole k o hack hk).1 with hnone | hgate | rfl | hcalled
      · exact .inl hnone
      · exact .inr (.inl hgate)
      · exact .inl hfreed
      · exact .inr (.inr (.inr hcalled))
  · obtain rfl : n' = hop := Except.ok.inj (hhop.symm.trans hn)
    exact hfreed

lemma CallsOk.move (h : CallsOk c s) {j : ℕ} {n : N} {stage stage' : CancelStage}
    (hj : s.cancel[j]? = some ⟨n, stage⟩) (hsub : s'.submit = s.submit)
    (hcancel : s'.cancel = s.cancel.set j ⟨n, stage'⟩)
    (hfree : ∀ m, (s.node m).table = none → (s'.node m).table = none)
    (hstart : stage ≠ .start) (hdone : stage' ≠ .done false) (hok : CallOk c s' ⟨n, stage'⟩) :
    CallsOk c s' :=
  h.set hj (fun hs => hsub.trans hs) (hcancel.trans (List.append_nil _).symm)
    (fun _ hp => by cases hp) hfree (fun _ => hdone) (fun hs => absurd hs hstart) hok

lemma told_of_passedOn {j : ℕ} {n : N} (hpass : PassedOn c s (.cancel j .find))
    (hj : s.cancel[j]? = some ⟨n, .start⟩) {p : CancelCall N} (hp : p ∈ s.cancel) {k : ℕ} {o : N}
    (hk : p.stage = .awaiting k j) (ho : c.overlay.dataOwners[k]? = some o) :
    Spared c s p.node o ∨ o = n ∨
      c.overlay.role n = .gateway ∧ (s.node n).table ≠ none :=
  hpass p hp k (by simp [awaited, hk]) o ho ⟨n, .start⟩ hj

lemma callsOk_cancel {j : ℕ} {act : CancelAct} (hst : Cancels c q s j act s')
    (hfree : ∀ m, (s.node m).table = none → (s'.node m).table = none)
    (hrpc : RpcsSucceed s (.cancel j act : Act N)) (hpass : PassedOn c s (.cancel j act))
    (h : CallsOk c s) : CallsOk c s' := by
  have hcall : ∀ {n : N} {stage : CancelStage}, s.cancel[j]? = some ⟨n, stage⟩ →
      CallOk c s ⟨n, stage⟩ := fun hj => h.calls _ (List.mem_of_getElem? hj)
  cases hst with
  | @unknown n hj ht =>
    refine h.set hj id (List.append_nil _).symm (fun _ hp => by cases hp) hfree
      (fun hs => absurd rfl hs) (fun _ p hp k o hk ho => ?_)
      ⟨by simp, fun _ => ht, fun _ _ _ hpast => by cases hpast⟩
    rcases told_of_passedOn hpass hj hp hk ho with hspared | heq | ⟨-, hne⟩
    · exact .inl (hspared.mono hfree)
    · exact .inr (.inl heq)
    · exact absurd ht hne
  | @find n g hj ht =>
    refine h.set hj id (List.append_nil _).symm (fun _ hp => by cases hp) hfree
      (fun hs => absurd rfl hs) (fun _ p hp k o hk ho => ?_)
      (callOk_of n (.found g) (by simp) id fun _ => id)
    rcases told_of_passedOn hpass hj hp hk ho with hspared | heq | ⟨hrole, -⟩
    · exact .inl (hspared.mono hfree)
    · exact .inr (.inl heq)
    · exact .inr (.inr ⟨hrole, by simp⟩)
  | @flag n g hj =>
    exact h.move hj (by split <;> rfl) (by split <;> rfl) hfree (by simp) (by simp)
      (callOk_of n (.flagged g) (by simp) id fun _ => id)
  | @clear n g hj =>
    by_cases hrole : c.overlay.role n = .gateway
    · rw [if_pos hrole] at hfree ⊢
      exact h.move hj (by split <;> rfl) (by split <;> rfl) hfree (by simp) (by simp)
        (callOk_of n (.fanout 0) (by simp) id Nat.not_lt_zero)
    · rw [if_neg hrole] at hfree ⊢
      have hok : ∀ s' : Sys N Row, CallOk c s' ⟨n, .erasing⟩ := fun s' =>
        ⟨by simp, fun hs => hs.elim, fun hgate => absurd hgate hrole⟩
      exact h.move hj (by split <;> rfl) (by split <;> rfl) hfree (by simp) (by simp) (hok _)
  | @fanoutEnd n k hj hk =>
    refine h.move hj rfl rfl hfree (by simp) (by simp)
      ⟨by simp, fun hs => hs.elim, fun hrole i o _ ho => ?_⟩
    have hlen : c.overlay.dataOwners.length ≤ k := List.getElem?_eq_none_iff.mp hk
    have hi : i < c.overlay.dataOwners.length := (List.getElem?_eq_some_iff.mp ho).1
    exact (hcall hj).past hrole i o (hi.trans_le hlen) ho
  | @itself n k hj hk himpl =>
    refine h.move hj rfl rfl hfree (by simp) (by simp)
      ⟨by simp, fun hs => hs.elim, fun hrole i o hi ho => ?_⟩
    rcases Nat.lt_succ_iff_lt_or_eq.mp hi with hi | rfl
    · exact (hcall hj).past hrole i o hi ho
    · obtain rfl : n = o := Option.some.inj (hk.symm.trans ho)
      exact ⟨.inr (.inr (.inl rfl)), fun hsend => absurd ⟨rfl, himpl⟩ hsend⟩
  | throws hj =>
    exact h.move hj rfl rfl hfree (by simp) (by simp)
      (callOk_of _ .failed (by simp) id fun _ => id)
  | @send n o hop k hj hk hn =>
    refine h.set hj id rfl (fun p hp => by simp_all) hfree (by simp) (by simp) ?_
    refine ⟨fun k' i hs => ?_, fun hs => hs.elim, (hcall hj).past⟩
    obtain ⟨rfl, rfl⟩ := CancelStage.awaiting.inj hs
    refine ⟨⟨hop, .start⟩, by simp [Sys.setCancel], fun o' ho => ⟨?_, fun hs => absurd rfl hs⟩⟩
    obtain rfl : o = o' := Option.some.inj (hk.symm.trans ho)
    exact hn
  | @resume n n' k child ack hj hc =>
    refine h.move hj rfl rfl hfree (by simp) (by simp)
      ⟨by simp, fun hs => hs.elim, fun hrole i o hi ho => ?_⟩
    rcases Nat.lt_succ_iff_lt_or_eq.mp hi with hi | rfl
    · exact (hcall hj).past hrole i o hi ho
    · obtain ⟨hspared, hhop⟩ := spared_of_done h (List.mem_of_getElem? hj) hc ho
      exact ⟨hspared, fun _ => hhop⟩
  | giveUp => exact hrpc.elim
  | @dropJoin n hj =>
    refine h.move hj rfl rfl hfree (by simp) (by simp)
      ⟨by simp, fun _ => congrArg Entry.table (setNode_self s n _),
        past_of_callOk (hcall hj) hfree fun _ => id⟩
  | @drop n hj =>
    refine h.move hj rfl rfl hfree (by simp) (by simp)
      ⟨by simp, fun _ => congrArg Entry.table (setNode_self s n _),
        past_of_callOk (hcall hj) hfree fun _ _ => trivial⟩
  | @erase n hj =>
    refine h.move hj rfl rfl hfree (by simp) (by simp)
      ⟨by simp, fun _ => congrArg Entry.table (setNode_self s n _),
        past_of_callOk (hcall hj) hfree fun _ _ => trivial⟩
  | @unschedule n hj =>
    refine h.move hj rfl rfl hfree (by simp) (by simp)
      ⟨by simp, fun _ => hfree n ((hcall hj).freed trivial),
        past_of_callOk (hcall hj) hfree fun _ _ => trivial⟩
  | @finish n hj =>
    refine h.move hj rfl rfl hfree (by simp) (by simp)
      ⟨by simp, fun _ => (hcall hj).freed trivial,
        past_of_callOk (hcall hj) hfree fun _ _ => trivial⟩

lemma callsOk_step (hok : EntriesOk c q s) (hpend : Pending s) (hrpc : RpcsSucceed s a)
    (hpass : PassedOn c s a) (hst : Steps c q s a s') (h : CallsOk c s) : CallsOk c s' := by
  have hsub := returned_step hst
  have hfree : s.submit = .returned → ∀ m, (s.node m).table = none → (s'.node m).table = none :=
    fun hs => table_none_step hst hok hpend hs
  have hframe : a ≠ .cancelQuery → (∀ j act, a ≠ .cancel j act) → CallsOk c s' := fun hq hc =>
    h.frame hsub (cancel_eq hst hq hc) hfree
  cases hst with
  | cancelQuery =>
    refine ⟨fun _ => hrpc, fun p hp => ?_⟩
    rcases List.mem_append.mp hp with hp | hp
    · refine (h.calls p hp).mono (hfree hrpc) fun j r hr => ⟨r, ?_, rfl, ?_⟩
      · rw [List.getElem?_append_left (List.getElem?_eq_some_iff.mp hr).1, hr]
      · exact fun k o _ _ htold hs => (htold hs).mono (hfree hrpc) rfl id
    · obtain rfl := List.mem_singleton.mp hp
      exact callOk_start _
  | @cancel j act s' hst =>
    have hret := h.returned (cancel_ne_nil hst)
    exact callsOk_cancel hst (hfree hret) hrpc hpass h
  | _ => exact hframe (by simp) (by simp)

lemma callsOk_init : CallsOk c (init N Row) where
  returned hne := absurd rfl hne
  calls p hp := by cases hp

/-- **Every call knows what it has freed**, in every run whose calls are answered and passed on. -/
theorem callsOk_of_reach {G : Sys N Row → Act N → Prop}
    (hG : ∀ s a, G s a → RpcsSucceed s a ∧ PassedOn c s a)
    (h : Reach (step c q) G (init N Row) s) : CallsOk c s := by
  refine h.invariant callsOk_init fun s a s' hreach hi hg hst => ?_
  have hpend : Pending s := pending_of_reach (fun s a ha => (hG s a ha).1.forwardsAnswered) hreach
  exact callsOk_step (shape_of_reach hreach).entries hpend (hG s a hg).1 (hG s a hg).2
    (steps_of_step hst) hi

end Mini2.Cancelling
