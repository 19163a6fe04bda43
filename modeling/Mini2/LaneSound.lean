import Mini2.LaneFlow

/-!
No row of a lane is lost, and the end of its stream is announced only when the owner's rows
have all been taken, in the runs in which no step loses rows. The owner may also be given up
before it has answered at all; where the forwards are reliable it is not.
-/

namespace Mini2.Lane

open Mini2.Proto Mini2.Net Mini2.Request Mini2.Producer Mini2.Gather Mini2.Pipe

variable {N Query Row : Type} [DecidableEq N]

/-- The tables lead from the gateway to the owner. -/
def Reaches (c : Config N Query Row) (o : N) : Prop :=
  ∃ hop, c.overlay.nextHop c.gateway o = .ok hop ∧ Leads c.overlay o hop

/-- What a call says of its owner's entry `e`. -/
def CallSound (c : Config N Query Row) (q : Query) (o : N) (e : Entry Row) :
    PullStage N Row → Prop
  | .at n => Leads c.overlay o n ↔ Reaches c o
  | .found g => g < e.gens ∧ Reaches c o
  | .popped g _ => g < e.gens ∧ Reaches c o
  | .loaded g _ d => g < e.gens ∧ Reaches c o ∧ (d = true → (e.obj g).doneProducing = true)
  | .decided g _ isLast => g < e.gens ∧ Reaches c o ∧
      (isLast = true → Exhausted (c.shard o) q e)
  | .dropping _ => 0 < e.gens ∧ Reaches c o ∧ Exhausted (c.shard o) q e
  | .replied code out isLast => (code ≠ .ok → out = []) ∧
      (code = .ok → 0 < e.gens ∧ Reaches c o ∧ (isLast = true → Exhausted (c.shard o) q e))

/-- There is nothing more to come from the owner: its rows have been taken, or it has never
answered. The latter is ruled out by `F`, that its forward is reliable. -/
def Over (sh : Shard Query Row) (q : Query) (F : Prop) (v : View N Row) : Prop :=
  Exhausted sh q v.entry ∨ ¬ F ∧ ¬ v.responded

structure Sound (c : Config N Query Row) (q : Query) (o : N) (F : Prop) (v : View N Row) :
    Prop where
  entry : EntryOk (c.shard o) q v.entry
  call : ∀ i stage, v.pull i = some stage → CallSound c q o v.entry stage
  lost : ∀ g < v.entry.gens,
    NoneLost ((c.shard o).matchRows q) (made v.entry g) (v.entry.obj g).matched v.out
  slot : ∀ i, v.thread = .pulling i → v.slot = []
  early : v.thread = .absent ∨ v.thread = .starting →
    v.slot = [] ∧ ¬ v.responded ∧ v.prefetchDone = false
  refusal : ∀ i code out isLast, v.thread = .pulling i →
    v.pull i = some (.replied code out isLast) → code ≠ .ok → Over (c.shard o) q F v
  prefetchDone : v.prefetchDone = true → v.thread = .returned ∧ Over (c.shard o) q F v
  done : v.done = true → v.slot = [] ∧ (v.thread = .absent ∨ v.thread = .returned) ∧
    Over (c.shard o) q F v
  dropped : v.entry.table = none → v.entry.gens = 0 ∨ Exhausted (c.shard o) q v.entry
  responded : v.responded → 0 < v.entry.gens ∧ Reaches c o

/-- A step of a run without cancellation in which no rows are lost and calls fail by their
deadline only. Where the forward is reliable, `F`, the owner is registered before it is asked
and never given up by `SubmitQuery`. -/
structure Allowed (c : Config N Query Row) (q : Query) (o : N) (k : ℕ) (F : Prop)
    (v : View N Row) (a : Act N) (v' : View N Row) : Prop where
  step : LaneStep c q o k v a v'
  calm : ¬ Loses k v a
  noCancel : ∀ j act, a ≠ .cancel j act
  deadline : ∀ code, a = .prefetch k (.failed code) → code = .deadlineExceeded
  registered : F → v'.thread ≠ .absent → 0 < v'.entry.gens
  kept : F → ∀ act, a = .submit act → v'.done = true → v.done = true

variable {c : Config N Query Row} {q : Query} {o : N} {k : ℕ} {F : Prop} {a : Act N}
  {v v' : View N Row} {e e' : Entry Row} {stage : PullStage N Row}

lemma Sound.repliesOk (h : Sound c q o F v) : RepliesOk v :=
  fun i _ _ _ hp hc => (h.call i _ hp).1 hc

lemma CallSound.mono (h : CallSound c q o e stage) (hg : Grows e e') :
    CallSound c q o e' stage := by
  cases stage with
  | «at» n => exact h
  | found g => exact ⟨h.1.trans_le hg.gens, h.2⟩
  | popped g out => exact ⟨h.1.trans_le hg.gens, h.2⟩
  | loaded g out d => exact ⟨h.1.trans_le hg.gens, h.2.1, fun hd => hg.done g h.1 (h.2.2 hd)⟩
  | decided g out isLast => exact ⟨h.1.trans_le hg.gens, h.2.1, fun hl => (h.2.2 hl).mono hg⟩
  | dropping out => exact ⟨h.1.trans_le hg.gens, h.2.1, h.2.2.mono hg⟩
  | replied code out isLast =>
    refine ⟨h.1, fun hc => ?_⟩
    obtain ⟨hgens, hr, hl⟩ := h.2 hc
    exact ⟨hgens.trans_le hg.gens, hr, fun hl' => (hl hl').mono hg⟩

omit [DecidableEq N] in
lemma Over.mono {sh : Shard Query Row} (h : Over sh q F v) (hg : Grows v.entry v'.entry)
    (hr : v'.responded → v.responded) : Over sh q F v' :=
  h.imp (·.mono hg) fun ⟨hF, hn⟩ => ⟨hF, fun h' => hn (hr h')⟩

omit [DecidableEq N] in
lemma matchRows_of_not_serves {impl : Impl} {sh : Shard Query Row}
    (h : serves impl sh = false) : sh.matchRows q = [] := by
  have h0 : sh.size = 0 := by
    cases impl with
    | cpp => simpa [serves] using h
    | python => exact sh.size_of_not_loaded h
  rw [Shard.matchRows, if_pos h0]

/-! ### One step -/

lemma call_step (h : Sound c q o F v) (hst : LaneStep c q o k v a v') :
    ∀ i stage, v'.pull i = some stage → CallSound c q o v'.entry stage := by
  have hmono : ∀ i stage, v.pull i = some stage → CallSound c q o v'.entry stage :=
    fun i stage hp => (h.call i stage hp).mono (grows_step h.entry hst)
  cases hst with
  | @issue i hop _ _ _ _ hn =>
    refine forall_setPull hmono ⟨fun hl => ⟨hop, hn, hl⟩, ?_⟩
    rintro ⟨hop', hn', hl⟩
    obtain rfl : hop = hop' := Except.ok.inj (hn.symm.trans hn')
    exact hl
  | relay hp hn =>
    have hcall : Leads _ _ _ ↔ _ := h.call _ _ hp
    exact forall_setPull hmono ((leads_hop_iff hn).symm.trans hcall)
  | noRoute _ _ _ hc => exact forall_setPull hmono ⟨fun _ => rfl, fun h' => absurd h' hc⟩
  | missing => exact forall_setPull hmono ⟨fun _ => rfl, fun h' => by cases h'⟩
  | @found i g hp htable =>
    have hcall : Leads _ _ _ ↔ _ := h.call _ _ hp
    have hg : g < v.entry.gens := by
      have := h.entry.table g htable
      omega
    exact forall_setPull hmono ⟨hg, hcall.mp leads_self⟩
  | pop hp =>
    have hcall := h.call _ _ hp
    exact forall_setPull hmono hcall
  | load hp =>
    have hcall := h.call _ _ hp
    exact forall_setPull hmono ⟨hcall.1, hcall.2, id⟩
  | @decide i g out d hp =>
    have hcall := h.call _ _ hp
    refine forall_setPull hmono ⟨hcall.1, hcall.2.1, fun hl => ?_⟩
    simp only [Bool.and_eq_true, List.isEmpty_iff] at hl
    exact .inr ⟨g, hcall.1, hcall.2.2 hl.1.1, hl.1.2⟩
  | more hp =>
    have hcall := h.call _ _ hp
    exact forall_setPull hmono
      ⟨fun h' => absurd rfl h', fun _ => ⟨Nat.zero_lt_of_lt hcall.1, hcall.2⟩⟩
  | last hp =>
    have hcall := (h.call _ _ hp).mono (grows_removes .drop)
    exact forall_setPull hmono
      ⟨fun h' => absurd rfl h', fun _ => ⟨Nat.zero_lt_of_lt hcall.1, hcall.2⟩⟩
  | erase hp =>
    have hcall := (h.call _ _ hp).mono (grows_removes .erase)
    exact forall_setPull hmono ⟨Nat.zero_lt_of_lt hcall.1, hcall.2.1, hcall.2.2 rfl⟩
  | unschedule hp =>
    have hcall := (h.call _ _ hp).mono (grows_removes .unschedule)
    exact forall_setPull hmono
      ⟨fun h' => absurd rfl h', fun _ => ⟨hcall.1, hcall.2.1, fun _ => hcall.2.2⟩⟩
  | _ => exact hmono

lemma lost_step (h : Sound c q o F v) (hcalm : ¬ Loses k v a)
    (hst : LaneStep c q o k v a v') : ∀ g < v'.entry.gens,
      NoneLost ((c.shard o).matchRows q) (made v'.entry g) (v'.entry.obj g).matched v'.out := by
  intro g hg
  cases flow_of_step h.entry h.repliesOk hst with
  | same he ho =>
    rw [he] at hg ⊢
    rw [ho]
    exact h.lost g hg
  | register ha he ho =>
    rw [he] at hg ⊢
    rw [ho]
    by_cases hlt : g < v.entry.gens
    · rw [(register_obj hlt).1, (register_obj hlt).2]
      exact h.lost g hlt
    · -- the state is the one that has just been made
      cases hm : v.entry.table with
      | some g' => simp [registerRequest, hm, hlt] at hg
      | none =>
        obtain ⟨hgens, hmade, hbuf⟩ := register_new h.entry (w := 1) hm
        obtain rfl : g = v.entry.gens := by omega
        rw [hmade, hbuf]
        exact .start _
  | produce hok he ho =>
    rw [ho]
    rw [he.gens] at hg
    rcases he.made g hg with ⟨hm, hb⟩ | ⟨r, hr, hm, hb, -⟩
    · rw [hm, hb]
      exact h.lost g hg
    · rw [hm, hb]
      exact (h.lost g hg).make hr
  | flag he ho =>
    rw [he] at hg ⊢
    rw [ho, made_flag, flag_matched]
    exact h.lost g hg
  | clear ha => exact absurd ha hcalm
  | drop he ho =>
    obtain ⟨hgens, hobj, hmade⟩ := removes_obj he
    rw [hgens] at hg
    rw [hmade, hobj, ho]
    exact h.lost g hg
  | lose ha => exact absurd ha hcalm
  | @take i g' n hp he ho =>
    rw [he] at hg ⊢
    rw [ho, pop_matched, made_pop]
    split
    next hgg =>
      subst hgg
      exact (h.lost g hg).take n
    next => exact (h.lost g hg).grow (List.sublist_append_left _ _)
  | waste ha => exact absurd ha hcalm

lemma slot_step (h : Sound c q o F v) (hst : LaneStep c q o k v a v') :
    ∀ i, v'.thread = .pulling i → v'.slot = [] := by
  cases hst with
  | wipe => exact fun _ _ => rfl
  | issue _ hs => exact fun _ _ => hs
  | @receive i out isLast =>
    intro j hj
    cases isLast <;> simp at hj
  | drain hs =>
    intro i hi
    have hslot := h.slot i hi
    rw [hs, List.append_eq_nil_iff] at hslot
    exact hslot.2
  | spawn | start | noHop | stop | expired | refused | timeout | failed =>
    intro j hj
    cases hj
  | _ => exact h.slot

lemma early_step (h : Sound c q o F v) (hst : LaneStep c q o k v a v') :
    v'.thread = .absent ∨ v'.thread = .starting →
      v'.slot = [] ∧ ¬ v'.responded ∧ v'.prefetchDone = false := by
  cases hst with
  | wipe => exact fun ht => ⟨rfl, (h.early ht).2⟩
  | spawn ht => exact fun _ => h.early (.inl ht)
  | @receive i out isLast =>
    intro ht
    cases isLast <;> simp at ht
  | drain hs =>
    intro ht
    have hslot := (h.early ht).1
    rw [hs, List.append_eq_nil_iff] at hslot
    exact ⟨hslot.2, (h.early ht).2⟩
  | start | noHop | stop | expired | refused | timeout | failed | issue =>
    intro ht
    rcases ht with ht | ht <;> cases ht
  | _ => exact h.early

/-- The owner holds no request for the call: it has been taken to the end, or it has none. -/
lemma over_of_missing (h : Sound c q o F v) (hreg : F → 0 < v.entry.gens)
    (hm : v.entry.table = none ∨ serves (c.overlay.impl o) (c.shard o) = false) :
    Over (c.shard o) q F v := by
  rcases hm with hm | hm
  · rcases h.dropped hm with h0 | hex
    · refine .inr ⟨fun hF => ?_, fun hr => ?_⟩
      · exact absurd (hreg hF) (by omega)
      · exact absurd (h.responded hr).1 (by omega)
    · exact .inl hex
  · exact .inl (.inl (matchRows_of_not_serves hm))

lemma over_of_not_reaches (h : Sound c q o F v) (hF : F → Reaches c o) (hn : ¬ Reaches c o) :
    Over (c.shard o) q F v :=
  .inr ⟨fun h' => hn (hF h'), fun hr => hn (h.responded hr).2⟩

lemma refusal_step (h : Sound c q o F v) (hF : F → Reaches c o)
    (ha : Allowed c q o k F v a v') : ∀ i code out isLast, v'.thread = .pulling i →
      v'.pull i = some (.replied code out isLast) → code ≠ .ok → Over (c.shard o) q F v' := by
  have hgrow := grows_step h.entry ha.step
  -- the answer was there before
  have hold : ∀ {i code out isLast}, v.thread = .pulling i →
      v.pull i = some (.replied code out isLast) → code ≠ .ok → (v'.responded → v.responded) →
      Over (c.shard o) q F v' :=
    fun ht hp hc hr => (h.refusal _ _ _ _ ht hp hc).mono hgrow hr
  -- a call moves on, to another answer than a refusal or to one that is shown to be final
  have hset : ∀ {i : ℕ} {stage : PullStage N Row}, v'.thread = v.thread →
      v'.pull = (v.setPull i stage).pull → (v'.responded → v.responded) →
      (v.thread = .pulling i → ∀ code out isLast, stage = .replied code out isLast → code ≠ .ok →
        Over (c.shard o) q F v) →
      ∀ j code out isLast, v'.thread = .pulling j →
        v'.pull j = some (.replied code out isLast) → code ≠ .ok → Over (c.shard o) q F v' := by
    intro i stage ht hp hr hnew j code out isLast hj hpj hc
    rw [ht] at hj
    rw [hp] at hpj
    by_cases hij : j = i
    · subst hij
      rw [setPull_pull_self] at hpj
      exact (hnew hj code out isLast (Option.some.inj hpj) hc).mono hgrow hr
    · rw [setPull_pull_ne v hij] at hpj
      exact hold hj hpj hc hr
  cases ha.step with
  | issue =>
    intro j code out isLast hj hpj
    obtain rfl := ThreadPc.pulling.inj hj
    rw [setPull_pull_self] at hpj
    cases hpj
  | @receive i out isLast =>
    intro j _ _ _ hj
    cases isLast <;> simp at hj
  | spawn | start | noHop | stop | expired | refused | timeout | failed =>
    intro j _ _ _ hj
    cases hj
  | @noRoute i n code hp hh hn hc =>
    refine hset rfl rfl id fun _ _ _ _ _ _ => over_of_not_reaches h hF ?_
    have hcall : Leads _ _ _ ↔ _ := h.call _ _ hp
    exact fun hr => not_leads hh hn (hcall.mpr hr)
  | @missing i hp hm =>
    refine hset rfl rfl id fun ht _ _ _ _ _ => over_of_missing h (fun hF' => ?_) hm
    exact ha.registered hF' (by simp [View.setPull, ht])
  | relay => exact hset rfl rfl id fun _ _ _ _ h' => by cases h'
  | found => exact hset rfl rfl id fun _ _ _ _ h' => by cases h'
  | pop => exact hset rfl rfl id fun _ _ _ _ h' => by cases h'
  | load => exact hset rfl rfl id fun _ _ _ _ h' => by cases h'
  | decide => exact hset rfl rfl id fun _ _ _ _ h' => by cases h'
  | erase => exact hset rfl rfl id fun _ _ _ _ h' => by cases h'
  | more | last | unschedule =>
    refine hset rfl rfl id fun _ code _ _ h' hc => ?_
    cases h'
    exact absurd rfl hc
  | _ => exact fun i code out isLast ht hp hc => hold ht hp hc id

lemma prefetchDone_step (h : Sound c q o F v) (hF : F → Reaches c o)
    (ha : Allowed c q o k F v a v') :
    v'.prefetchDone = true → v'.thread = .returned ∧ Over (c.shard o) q F v' := by
  have hgrow := grows_step h.entry ha.step
  have hold : v'.prefetchDone = v.prefetchDone → v'.thread = v.thread →
      (v'.responded → v.responded) →
      v'.prefetchDone = true → v'.thread = .returned ∧ Over (c.shard o) q F v' := by
    intro hp ht hr hd
    obtain ⟨hret, hover⟩ := h.prefetchDone (hp ▸ hd)
    exact ⟨ht ▸ hret, hover.mono hgrow hr⟩
  -- a prefetcher that is not done has not returned for good
  have hopen : v.thread ≠ .returned → v.prefetchDone = true → False :=
    fun ht hd => ht (h.prefetchDone hd).1
  cases ha.step with
  | spawn ht => exact fun hd => (hopen (by simp [ht]) hd).elim
  | start ht => exact fun hd => (hopen (by simp [ht]) hd).elim
  | stop ht => exact fun hd => (hopen (by simp [ht]) hd).elim
  | issue ht => exact fun hd => (hopen (by simp [ht]) hd).elim
  | expired ht => exact fun hd => (hopen (by simp [ht]) hd).elim
  | timeout ht => exact fun hd => (hopen (by simp [ht]) hd).elim
  | noHop ht hn =>
    refine fun _ => ⟨rfl, (over_of_not_reaches h hF ?_).mono hgrow id⟩
    rintro ⟨hop, hn', -⟩
    rw [hn] at hn'
    cases hn'
  | refused ht hp hc =>
    exact fun _ => ⟨rfl, (h.refusal _ _ _ _ ht hp hc).mono hgrow id⟩
  | failed ht hd => exact absurd (ha.deadline _ rfl) hd
  | @receive i out isLast ht hp =>
    intro hd
    cases isLast with
    | false => exact (hopen (by simp [ht]) hd).elim
    | true =>
      obtain ⟨-, -, hl⟩ := (h.call _ _ hp).2 rfl
      exact ⟨rfl, .inl (hl rfl)⟩
  | _ => exact hold rfl rfl id

lemma done_step (h : Sound c q o F v) (hF : F → Reaches c o) (ha : Allowed c q o k F v a v') :
    v'.done = true → v'.slot = [] ∧ (v'.thread = .absent ∨ v'.thread = .returned) ∧
      Over (c.shard o) q F v' := by
  have hgrow := grows_step h.entry ha.step
  have hold : v'.done = v.done → v'.slot = v.slot → v'.thread = v.thread →
      (v'.responded → v.responded) → v'.done = true →
      v'.slot = [] ∧ (v'.thread = .absent ∨ v'.thread = .returned) ∧ Over (c.shard o) q F v' := by
    intro hd hs ht hr hd'
    obtain ⟨hslot, hthread, hover⟩ := h.done (hd ▸ hd')
    exact ⟨hs ▸ hslot, ht ▸ hthread, hover.mono hgrow hr⟩
  have hopen : v.thread ≠ .absent → v.thread ≠ .returned → v.done = true → False := by
    intro h1 h2 hd
    rcases (h.done hd).2.1 with ht | ht
    · exact h1 ht
    · exact h2 ht
  cases ha.step with
  | wipe => exact fun hd => ⟨rfl, (h.done hd).2⟩
  | mark => exact fun hd => by cases hd
  | dead _ ht =>
    obtain ⟨hslot, hr, -⟩ := h.early (.inl ht)
    refine fun _ => ⟨hslot, .inl ht, ?_⟩
    by_cases hF' : F
    · exact (h.done (ha.kept hF' _ rfl rfl)).2.2
    · exact .inr ⟨hF', hr⟩
  | spawn ht hd =>
    intro hd'
    rw [hd] at hd'
    cases hd'
  | start ht => exact fun hd => (hopen (by simp [ht]) (by simp [ht]) hd).elim
  | stop ht => exact fun hd => (hopen (by simp [ht]) (by simp [ht]) hd).elim
  | issue ht => exact fun hd => (hopen (by simp [ht]) (by simp [ht]) hd).elim
  | expired ht => exact fun hd => (hopen (by simp [ht]) (by simp [ht]) hd).elim
  | timeout ht => exact fun hd => (hopen (by simp [ht]) (by simp [ht]) hd).elim
  | receive ht => exact fun hd => (hopen (by simp [ht]) (by simp [ht]) hd).elim
  | noHop ht hn =>
    obtain ⟨-, hover⟩ := prefetchDone_step h hF ha rfl
    exact fun _ => ⟨(h.early (.inr ht)).1, .inr rfl, hover⟩
  | refused ht hp hc =>
    obtain ⟨-, hover⟩ := prefetchDone_step h hF ha rfl
    exact fun _ => ⟨h.slot _ ht, .inr rfl, hover⟩
  | failed ht hd => exact absurd (ha.deadline _ rfl) hd
  | @drain maxRows rows rest hs =>
    intro hd
    simp only [Bool.or_eq_true, Bool.and_eq_true, List.isEmpty_iff] at hd
    rcases hd with hd | ⟨hp, hrest⟩
    · obtain ⟨hslot, ht, hover⟩ := h.done hd
      rw [hs, List.append_eq_nil_iff] at hslot
      exact ⟨hslot.2, ht, hover⟩
    · obtain ⟨ht, hover⟩ := h.prefetchDone hp
      exact ⟨hrest, .inr ht, hover⟩
  | _ => exact hold rfl rfl rfl id

lemma dropped_step (h : Sound c q o F v) (ha : Allowed c q o k F v a v') :
    v'.entry.table = none → v'.entry.gens = 0 ∨ Exhausted (c.shard o) q v'.entry := by
  have hgrow := grows_step h.entry ha.step
  cases ha.step with
  | register => exact fun ht => absurd ht (registerRequest_table _ _ _ _)
  | produce hs =>
    have hm := (prodStep_spec h.entry hs).2
    intro ht
    rw [hm.table] at ht
    exact (h.dropped ht).imp hm.gens.trans (·.mono hgrow)
  | evict _ => exact absurd rfl (ha.noCancel _ _)
  | flag => exact fun ht => (h.dropped ht).imp_right (·.mono hgrow)
  | clear => exact fun ht => (h.dropped ht).imp_right (·.mono hgrow)
  | pop => exact fun ht => (h.dropped ht).imp_right (·.mono hgrow)
  | last hp => exact fun _ => .inr (((h.call _ _ hp).2.2 rfl).mono hgrow)
  | erase hp => exact fun _ => .inr (((h.call _ _ hp).2.2 rfl).mono hgrow)
  | unschedule => exact fun ht => (h.dropped ht).imp_right (·.mono hgrow)
  | _ => exact h.dropped

lemma responded_step (h : Sound c q o F v) (hst : LaneStep c q o k v a v') :
    v'.responded → 0 < v'.entry.gens ∧ Reaches c o := by
  have hgrow := grows_step h.entry hst
  have hold : v.responded → 0 < v'.entry.gens ∧ Reaches c o := fun hr =>
    ⟨(h.responded hr).1.trans_le hgrow.gens, (h.responded hr).2⟩
  cases hst with
  | receive ht hp =>
    obtain ⟨hg, hr, -⟩ := (h.call _ _ hp).2 rfl
    exact fun _ => ⟨hg, hr⟩
  | _ => exact hold

lemma sound_step (h : Sound c q o F v) (hF : F → Reaches c o) (ha : Allowed c q o k F v a v') :
    Sound c q o F v' where
  entry := entry_step h.entry ha.step
  call := call_step h ha.step
  lost := lost_step h ha.calm ha.step
  slot := slot_step h ha.step
  early := early_step h ha.step
  refusal := refusal_step h hF ha
  prefetchDone := prefetchDone_step h hF ha
  done := done_step h hF ha
  dropped := dropped_step h ha
  responded := responded_step h ha.step

/-! ### The end of the stream -/

omit [DecidableEq N] in
/-- When a lane is exhausted and nothing is on the way, the client has all its rows. -/
lemma complete_of_exhausted {sh : Shard Query Row} (hok : EntryOk sh q v.entry)
    (hlost : ∀ g < v.entry.gens,
      NoneLost (sh.matchRows q) (made v.entry g) (v.entry.obj g).matched v.out)
    (hex : Exhausted sh q v.entry) (hout : v.out = v.log) : (sh.matchRows q).Sublist v.log := by
  rcases hex with hnil | ⟨g, hg, hd, hm⟩
  · rw [hnil]
    exact List.nil_sublist _
  · have hnone := hlost g hg
    rw [hm, hok.made_of_done hg hd, hout] at hnone
    exact hnone.complete le_rfl

/-- **When a lane is done, the client has all its rows**, if the owner has answered or its
forward is reliable. -/
theorem Sound.complete (h : Sound c q o F v) (hd : v.done = true) (hF : F ∨ v.responded) :
    ((c.shard o).matchRows q).Sublist v.log := by
  obtain ⟨hslot, ht, hover⟩ := h.done hd
  refine complete_of_exhausted h.entry h.lost ?_ (out_eq_log hslot ht)
  rcases hover with hex | ⟨hnF, hnr⟩
  · exact hex
  · rcases hF with hF | hr
    · exact absurd hF hnF
    · exact absurd hr hnr

/-! ### The system -/

open Mini2.GatherSteps Mini2.GatherShape

def awaited (s : Sys N Row) (k : ℕ) : Option (PullCall N Row) :=
  match s.thread k with
  | .pulling i => s.pull[i]?
  | _ => none

def takes (s : Sys N Row) (i : ℕ) (maxRows : ℤ) : List Row :=
  match s.pull[i]? with
  | some ⟨o, .found g⟩ => ((s.node o).obj g).matched.take maxRows.toNat
  | _ => []

/-- The step loses no row of the owner: a call of its prefetcher fails by its deadline only,
before it carries rows, and no call that has been given up takes rows off its buffer. -/
def KeepsRows (c : Config N Query Row) (q : Query) (o : N) (s : Sys N Row) : Act N → Prop
  | .prefetch k (.failed code) => (c.eligible q)[k]? = some o →
      code = .deadlineExceeded ∧ ∀ p ∈ awaited s k, stageRows p.stage = []
  | .pull i (.pop maxRows) => ∀ p ∈ s.pull[i]?, p.owner = o →
      takes s i maxRows = [] ∨ ∃ k < (c.eligible q).length, s.thread k = .pulling i
  | _ => True

instance (s : Sys N Row) (a : Act N) : Decidable (KeepsRows c q o s a) :=
  match a with
  | .prefetch k (.failed code) => inferInstanceAs (Decidable ((c.eligible q)[k]? = some o →
      code = .deadlineExceeded ∧ ∀ p ∈ awaited s k, stageRows p.stage = []))
  | .pull i (.pop maxRows) => inferInstanceAs (Decidable (∀ p ∈ s.pull[i]?, p.owner = o →
      takes s i maxRows = [] ∨ ∃ k < (c.eligible q).length, s.thread k = .pulling i))
  | .prefetch _ .start | .prefetch _ .issue | .prefetch _ .receive | .pull _ .handle
  | .pull _ .load | .pull _ .decide | .pull _ .reply | .pull _ .unschedule
  | .submit _ | .forward _ | .produce _ _ | .fetch _ | .cancelQuery | .cancel _ _ => .isTrue trivial

variable {s s' : Sys N Row}

lemma reply_lane (hsh : Threads c q s) (hl : IsLane c q o k)
    (h : ∀ p ∈ awaited s k, stageRows p.stage = []) : (lane o k s).reply = [] := by
  cases ht : s.thread k with
  | pulling i =>
    obtain ⟨o', stage, ho, hp⟩ := hsh.pulling k i ht
    obtain rfl : o' = o := Option.some.inj (ho.symm.trans hl.owner)
    rw [reply_pulling ht (lane_pull o' k s hp)]
    exact h ⟨o', stage⟩ (by simp [awaited, ht, hp])
  | _ => exact reply_eq_nil (v := lane o k s) (by simp [lane, ht])

lemma calm_of_keepsRows (hsh : Threads c q s) (hl : IsLane c q o k)
    (hk : KeepsRows c q o s a) (hnc : ∀ j act, a ≠ .cancel j act) :
    ¬ Loses k (lane o k s) a := by
  intro hloses
  unfold Loses at hloses
  split at hloses
  next j => exact hnc j .clear rfl
  next k' code =>
    obtain ⟨rfl, hrep⟩ := hloses
    exact hrep (reply_lane hsh hl (hk hl.owner).2)
  next i maxRows =>
    obtain ⟨ht, g, hp, hne⟩ := hloses
    obtain ⟨⟨o', stage⟩, hpi, hst⟩ := Option.bind_eq_some_iff.mp hp
    split at hst
    next ho =>
      obtain rfl : stage = .found g := Option.some.inj hst
      obtain rfl : o' = o := ho
      rcases hk _ hpi rfl with hnil | ⟨k', -, ht'⟩
      · rw [takes, hpi] at hnil
        exact hne hnil
      · -- the thread that waits for the call is the owner's
        obtain ⟨o'', stage, ho', hp'⟩ := hsh.pulling k' i ht'
        rw [hpi] at hp'
        obtain rfl : o' = o'' := congrArg PullCall.owner (Option.some.inj hp')
        obtain rfl : k' = k := hl.eq ho'
        exact ht ht'
    next => cases hst
  next => exact hloses

omit [DecidableEq N] in
lemma sound_init [DecidableEq N] (c : Config N Query Row) (q : Query) (o : N) (F : Prop) :
    Sound c q o F ⟨Entry.empty, .absent, fun _ => none, [], false, false, False, []⟩ where
  entry := entryOk_empty
  call i stage h := by cases h
  lost g hg := absurd hg (Nat.not_lt_zero g)
  slot _ _ := rfl
  early _ := ⟨rfl, id, rfl⟩
  refusal i code out isLast ht := by cases ht
  prefetchDone h := by cases h
  done h := by cases h
  dropped _ := .inl rfl
  responded h := h.elim

/-- **Every lane of a run is sound** when no step of it loses a row of its owner. -/
theorem sound_of_reach {G : Sys N Row → Act N → Prop} (hl : IsLane c q o k)
    (hF : F → Reaches c o) (hnc : ∀ s a, G s a → a ≠ .cancelQuery)
    (hk : ∀ s a, Runs.Reach (step c q) G (init N Row) s → G s a → KeepsRows c q o s a)
    (hreg : F → ∀ s, Runs.Reach (step c q) G (init N Row) s → s.thread k ≠ .absent →
      0 < (s.node o).gens)
    (hkept : F → ∀ s act s', Runs.Reach (step c q) G (init N Row) s → G s (.submit act) →
      step c q s (.submit act) = some s' → s'.gate.clientProducersDone o = true →
      s.gate.clientProducersDone o = true)
    (h : Runs.Reach (step c q) G (init N Row) s) : Sound c q o F (lane o k s) := by
  refine h.refine (lane o k) (Allowed c q o k F) ?_ ?_ fun v a v' hv => sound_step hv hF
  · rw [lane_init]
    exact sound_init c q o F
  · intro s a s' hr hg hst
    have hsh := shape_of_reach hr
    refine (lane_step hl hsh (steps_of_step hst)).imp_right fun hls => ⟨a, ?_⟩
    have hnocancel : ∀ j act, a ≠ .cancel j act := by
      rintro j act rfl
      have hnil := cancel_eq_nil hnc hr
      simp [step, cancelStep, hnil] at hst
    exact
      { step := hls
        calm := calm_of_keepsRows hsh.threads hl (hk s a hr hg) hnocancel
        noCancel := hnocancel
        deadline := fun code ha => by
          subst ha
          exact (hk s _ hr hg hl.owner).1
        registered := fun hF' => hreg hF' s' (.step hr hg hst)
        kept := fun hF' act ha => by
          subst ha
          exact hkept hF' s act s' hr hg hst }

end Mini2.Lane
