import Mini2.LaneFlow

/-!
The gateway's own part of a request. Its rows go from its buffer to the client under one lock,
so there is no slot and no call between the two.
-/

namespace Mini2.SelfLane

open Mini2.Net Mini2.Request Mini2.Producer Mini2.Gather Mini2.GatherSteps Mini2.GatherShape
open Mini2.RoundRobin Mini2.Pipe Mini2.Lane

variable {N Query Row : Type} [DecidableEq N]

/-- The steps of the gateway's entry `e` and of the rows the client has got of it. -/
inductive SelfStep (c : Config N Query Row) (q : Query) (e : Entry Row) (log : List Row) :
    Act N → Entry Row → List Row → Prop
  | register (h0 : e.gens = 0) : SelfStep c q e log (.submit .register)
      (registerRequest (c.shard c.gateway) q 1 e) log
  | produce {n : N} {a : ProdAct} {e' : Entry Row}
      (h : prodStep (c.shard c.gateway) (c.overlay.impl c.gateway) c.overlay.maxRows e a =
        some e') : SelfStep c q e log (.produce n a) e' log
  | drain {maxRows : ℤ} {rows rest : List Row} (hg : 0 < e.gens)
      (hs : (e.obj 0).matched = rows ++ rest) : SelfStep c q e log (.fetch (.drain maxRows))
        (e.setObj 0 { e.obj 0 with matched := rest }) (log ++ rows)
  | drop {a : Act N} {e' : Entry Row} (h : Removes e e') : SelfStep c q e log a e' log
  | flag {j g : ℕ} : SelfStep c q e log (.cancel j .flag) (e.flag g) log
  | clear {j g : ℕ} : SelfStep c q e log (.cancel j .clear) (e.clear g) log

variable {c : Config N Query Row} {q : Query} {s s' : Sys N Row} {a : Act N}

lemma self_setNode {n : N} {e : Entry Row}
    (h : n = c.gateway → SelfStep c q (s.node n) (itemsOf s.log c.gateway) a e
      (itemsOf s.log c.gateway)) :
    ((s.setNode n e).node c.gateway = s.node c.gateway ∧
        itemsOf s.log c.gateway = itemsOf s.log c.gateway) ∨
      SelfStep c q (s.node c.gateway) (itemsOf s.log c.gateway) a ((s.setNode n e).node c.gateway)
        (itemsOf s.log c.gateway) := by
  by_cases hn : n = c.gateway
  · subst hn
    rw [setNode_self]
    exact .inr (h rfl)
  · exact .inl ⟨setNode_ne s (Ne.symm hn) e, rfl⟩

/-- `FetchChunk` works on a request only after it has been registered. -/
def Started (c : Config N Query Row) (s : Sys N Row) : Prop :=
  s.fetch ≠ .idle → 0 < (s.node c.gateway).gens

/-- **The system refines the gateway's own lane.** -/
theorem self_step (hsh : Shape c q s) (hstart : Started c s) (hst : Steps c q s a s') :
    (s'.node c.gateway = s.node c.gateway ∧
        itemsOf s'.log c.gateway = itemsOf s.log c.gateway) ∨
      SelfStep c q (s.node c.gateway) (itemsOf s.log c.gateway) a (s'.node c.gateway)
        (itemsOf s'.log c.gateway) := by
  have hown : ∀ {i : ℕ} {o : N} {stage : PullStage N Row}, s.pull[i]? = some ⟨o, stage⟩ →
      o ≠ c.gateway := fun hp => (hsh.threads.pull _ (List.mem_of_getElem? hp)).2
  cases hst with
  | submit hst =>
    cases hst with
    | register h =>
      refine self_setNode (n := c.gateway) fun _ => ?_
      exact .register (hsh.selfOnce.idle h)
    | _ => exact .inl ⟨rfl, rfl⟩
  | forward hst =>
    cases hst with
    | @register o r ttl h =>
      have ho := (hsh.threads.fwd _ (List.mem_of_getElem? h)).2
      exact .inl ⟨setNode_ne s (Ne.symm ho) _, rfl⟩
    | _ => exact .inl ⟨rfl, rfl⟩
  | @produce n act e' h =>
    refine self_setNode (n := n) fun hn => ?_
    subst hn
    exact .produce h
  | prefetch hst => cases hst <;> exact .inl ⟨rfl, rfl⟩
  | pull hst =>
    cases hst with
    | pop hp => exact .inl ⟨setNode_ne s (hown hp).symm _, rfl⟩
    | last hp => exact .inl ⟨setNode_ne s (hown hp).symm _, rfl⟩
    | erase hp => exact .inl ⟨setNode_ne s (hown hp).symm _, rfl⟩
    | unschedule hp => exact .inl ⟨setNode_ne s (hown hp).symm _, rfl⟩
    | _ => exact .inl ⟨rfl, rfl⟩
  | fetch hst =>
    cases hst with
    | drain maxRows h =>
      right
      have hlog : itemsOf (drainStep c s maxRows).log c.gateway = itemsOf s.log c.gateway ++
          itemsOf (drain maxRows (sources c) (s.slots c)).taken c.gateway := itemsOf_append _ _ _
      have hnode : (drainStep c s maxRows).node c.gateway = (s.node c.gateway).setObj 0
          { (s.node c.gateway).obj 0 with
            matched := (drain maxRows (sources c) (s.slots c)).queue c.gateway } :=
        setNode_self s _ _
      have hself := drain_self (c := c) s maxRows
      show SelfStep c q _ _ _ ((drainStep c s maxRows).node c.gateway)
        (itemsOf (drainStep c s maxRows).log c.gateway)
      rw [hlog, hnode]
      refine .drain (hstart (by simp [h])) ?_
      simpa [Sys.self, hnode, Entry.setObj] using hself
    | erase =>
      exact self_setNode (n := c.gateway) fun _ => .drop .drop
    | erased =>
      exact self_setNode (n := c.gateway) fun _ => .drop .drop
    | _ => exact .inl ⟨rfl, rfl⟩
  | cancelQuery => exact .inl ⟨rfl, rfl⟩
  | @cancel j act s' hst =>
    cases hst with
    | @flag n g =>
      have := self_setNode (c := c) (q := q) (s := s) (a := .cancel j .flag) (n := n)
        (e := (s.node n).flag g) fun _ => .flag
      split <;> exact this
    | @clear n g =>
      have := self_setNode (c := c) (q := q) (s := s) (a := .cancel j .clear) (n := n)
        (e := (s.node n).clear g) fun _ => .clear
      split <;> exact this
    | @dropJoin n => exact self_setNode (n := n) fun _ => .drop .drop
    | @drop n => exact self_setNode (n := n) fun _ => .drop .drop
    | @erase n => exact self_setNode (n := n) fun _ => .drop .erase
    | @unschedule n => exact self_setNode (n := n) fun _ => .drop .unschedule
    | _ => exact .inl ⟨rfl, rfl⟩

/-! ### The rows of the gateway -/

/-- The client gets the gateway's rows in order and at most once, and if `L` all of those that
have left the buffer. -/
structure SelfRows (sh : Shard Query Row) (q : Query) (L : Prop) (e : Entry Row)
    (log : List Row) : Prop where
  entry : EntryOk sh q e
  unregistered : e.gens = 0 → log = []
  once : 0 < e.gens → AtMostOnce (sh.matchRows q) (made e 0) (e.obj 0).matched log
  lost : L → 0 < e.gens → NoneLost (sh.matchRows q) (made e 0) (e.obj 0).matched log

variable {L : Prop} {e e' : Entry Row} {log log' : List Row}

lemma selfRows_step (h : SelfRows (c.shard c.gateway) q L e log)
    (hL : L → ∀ j act, a ≠ .cancel j act) (hst : SelfStep c q e log a e' log') :
    SelfRows (c.shard c.gateway) q L e' log' := by
  cases hst with
  | register h0 =>
    have ht : e.table = none := by
      cases ht : e.table with
      | none => rfl
      | some g =>
        have := h.entry.table g ht
        omega
    obtain ⟨hg, hmade, hbuf⟩ := register_new h.entry (w := 1) ht
    rw [h0] at hg hmade hbuf
    refine ⟨h.entry.register 1, fun h' => ?_, fun _ => ?_, fun _ _ => ?_⟩
    · omega
    · rw [hmade, hbuf, h.unregistered h0]
      exact .start
    · rw [hmade, hbuf]
      exact .start _
  | produce hs =>
    obtain ⟨hok, hm⟩ := prodStep_spec h.entry hs
    have hg := hm.gens
    refine ⟨hok, fun h0 => h.unregistered (hg ▸ h0), fun hpos => ?_, fun hl hpos => ?_⟩
    · rw [hg] at hpos
      rcases hm.made 0 hpos with ⟨hmade, hb⟩ | ⟨r, hr, hmade, hb, -⟩ <;> rw [hmade, hb]
      · exact h.once hpos
      · exact (h.once hpos).make hr
    · rw [hg] at hpos
      rcases hm.made 0 hpos with ⟨hmade, hb⟩ | ⟨r, hr, hmade, hb, -⟩ <;> rw [hmade, hb]
      · exact h.lost hl hpos
      · exact (h.lost hl hpos).make hr
  | @drain maxRows rows rest hpos hs =>
    have hcourse : SameCourse (e.obj 0) { e.obj 0 with matched := rest } := ⟨rfl, rfl, rfl⟩
    refine ⟨h.entry.setObj hcourse, fun h0 => ?_, fun _ => ?_, fun hl _ => ?_⟩
    · exact absurd h0 (Nat.pos_iff_ne_zero.mp hpos)
    · have honce := h.once hpos
      rw [hs] at honce
      rw [made_setObj hcourse]
      simpa [Entry.setObj] using honce.move
    · have hlost := h.lost hl hpos
      rw [hs] at hlost
      rw [made_setObj hcourse]
      simpa [Entry.setObj] using hlost.move
  | drop hr =>
    obtain ⟨hgens, hobj, hmade⟩ := removes_obj hr
    refine ⟨h.entry.removes hr, fun h0 => h.unregistered (hgens ▸ h0), fun hpos => ?_,
      fun hl hpos => ?_⟩
    · rw [hmade, hobj]
      exact h.once (hgens ▸ hpos)
    · rw [hmade, hobj]
      exact h.lost hl (hgens ▸ hpos)
  | @flag j g =>
    refine ⟨h.entry.setObj ⟨rfl, rfl, rfl⟩, h.unregistered, fun hpos => ?_, fun hl => ?_⟩
    · rw [made_flag, flag_matched]
      exact h.once hpos
    · exact absurd rfl (hL hl _ _)
  | @clear j g =>
    refine ⟨h.entry.setObj ⟨rfl, rfl, rfl⟩, h.unregistered, fun hpos => ?_, fun hl => ?_⟩
    · rw [made_clear]
      exact (h.once hpos).lose (clear_matched_sublist g 0) (List.Sublist.refl _)
    · exact absurd rfl (hL hl _ _)

lemma selfGrows (hok : EntryOk (c.shard c.gateway) q e) (hst : SelfStep c q e log a e' log') :
    Grows e e' := by
  cases hst with
  | register => exact grows_register 1
  | produce h => exact grows_makes (prodStep_spec hok h).2
  | drain _ hs =>
    refine grows_setObj rfl fun h => ?_
    rw [hs, List.append_eq_nil_iff] at h
    exact h.2
  | drop h => exact grows_removes h
  | flag => exact grows_setObj rfl id
  | clear => exact grows_setObj rfl fun _ => rfl

omit [DecidableEq N] in
theorem SelfRows.log_sublist {sh : Shard Query Row} (h : SelfRows sh q L e log) :
    log.Sublist (sh.matchRows q) := by
  rcases Nat.eq_zero_or_pos e.gens with h0 | hpos
  · rw [h.unregistered h0]
    exact List.nil_sublist _
  · exact (h.once hpos).out_sublist

/-- What the client has got of the gateway is the beginning of its rows. -/
theorem SelfRows.log_isPrefix {sh : Shard Query Row} (h : SelfRows sh q L e log) (hL : L) :
    log <+: sh.matchRows q := by
  rcases Nat.eq_zero_or_pos e.gens with h0 | hpos
  · rw [h.unregistered h0]
    exact List.nil_prefix
  · have := eq_take (h.once hpos) (h.lost hL hpos)
    calc log <+: log ++ (e.obj 0).matched := List.prefix_append _ _
      _ = (sh.matchRows q).take (made e 0) := this
      _ <+: sh.matchRows q := List.take_prefix _ _

/-- When the gateway's rows have been made and drained, the client has all of them. -/
theorem SelfRows.complete {sh : Shard Query Row} (h : SelfRows sh q L e log) (hL : L)
    (hpos : 0 < e.gens) (hd : (e.obj 0).doneProducing = true) (hm : (e.obj 0).matched = []) :
    (sh.matchRows q).Sublist log := by
  have hnone := h.lost hL hpos
  rw [hm, h.entry.made_of_done hpos hd] at hnone
  exact hnone.complete le_rfl

/-! ### The system -/

lemma started_step (hsh : Shape c q s) (h : Started c s) (hst : Steps c q s a s') :
    Started c s' := by
  have hle := (node_move hst c.gateway).gens_le (hsh.entries c.gateway)
  have hold : s'.fetch = s.fetch → Started c s' := fun hf hne =>
    (h (hf ▸ hne)).trans_le hle
  cases hst with
  | submit hst => cases hst <;> exact hold rfl
  | forward hst => cases hst <;> exact hold rfl
  | produce => exact hold rfl
  | prefetch hst => cases hst <;> exact hold rfl
  | pull hst => exact hold (by rw [pulls_frame hst])
  | fetch hst =>
    cases hst with
    | start hf ht =>
      intro _
      obtain ⟨g, hg⟩ := Option.isSome_iff_exists.mp ht
      have := (hsh.entries c.gateway).table g hg
      exact Nat.lt_of_lt_of_le (Nat.succ_pos g) this.le
    | drain maxRows hf => exact fun _ => (h (by simp [hf])).trans_le hle
    | count hf => exact fun _ => (h (by simp [hf])).trans_le hle
    | erase hf => exact fun _ => (h (by simp [hf])).trans_le hle
    | erased hf => exact fun hne => absurd rfl hne
    | finish hf => exact fun hne => absurd rfl hne
  | cancelQuery => exact hold rfl
  | cancel hst => exact hold (by rw [cancels_frame hst])

lemma started_of_reach {G : Sys N Row → Act N → Prop}
    (h : Runs.Reach (step c q) G (init N Row) s) : Started c s :=
  h.invariant (I := Started c) (fun hne => absurd rfl hne) fun _ _ _ hr hi _ hst =>
    started_step (shape_of_reach hr) hi (steps_of_step hst)

/-- **The gateway's rows reach the client in order and at most once**, and without a
cancellation none is lost. -/
theorem selfRows_of_reach {G : Sys N Row → Act N → Prop}
    (hL : L → ∀ s a, G s a → a ≠ .cancelQuery) (h : Runs.Reach (step c q) G (init N Row) s) :
    SelfRows (c.shard c.gateway) q L (s.node c.gateway) (itemsOf s.log c.gateway) := by
  refine h.invariant (I := fun s =>
    SelfRows (c.shard c.gateway) q L (s.node c.gateway) (itemsOf s.log c.gateway)) ?_ ?_
  · refine ⟨entryOk_empty, fun _ => rfl, fun hpos => ?_, fun _ hpos => ?_⟩
    · exact absurd hpos (Nat.lt_irrefl 0)
    · exact absurd hpos (Nat.lt_irrefl 0)
  · intro s a s' hr hi hg hst
    rcases self_step (shape_of_reach hr) (started_of_reach hr) (steps_of_step hst) with
      ⟨hnode, hlog⟩ | hself
    · rw [hnode, hlog]
      exact hi
    · refine selfRows_step hi (fun hl j act ha => ?_) hself
      subst ha
      have hnil := cancel_eq_nil (hL hl) hr
      simp [step, cancelStep, hnil] at hst

end Mini2.SelfLane
