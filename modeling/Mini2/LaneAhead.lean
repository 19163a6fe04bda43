import Mini2.NextRow
import Mini2.Standing

/-!
What can be done behind the gateway, however far the threads have got and whatever the size of the
chunks: every call for rows can be brought to its answer, and the slot of every owner can be filled,
or its prefetcher brought to its end.
-/

namespace Mini2.LaneAhead

open Mini2.Proto Mini2.Net Mini2.Request Mini2.Producer Mini2.Gather Mini2.GatherSteps
open Mini2.GatherShape Mini2.Runs Mini2.Lane Mini2.Finish Mini2.Forwarded Mini2.Course
open Mini2.Delivery Mini2.ExactlyOnce Mini2.Progress Mini2.Standing Mini2.NextRow

variable {N Query Row : Type} [DecidableEq N]

/-! ### Steps behind the gateway -/

/-- A chunk has `m` rows at most. -/
def Sized (m : ℤ) : Act N → Prop
  | .pull _ (.pop maxRows) => maxRows = m
  | .fetch (.drain maxRows) => maxRows = m
  | _ => True

/-- Only the nodes produce that have to do with data. -/
def Placed (c : Config N Query Row) : Act N → Prop
  | .produce n _ => n = c.gateway ∨ n ∈ c.overlay.dataOwners
  | _ => True

/-- The action is one of a producer, a prefetcher or a `PullChunk`. -/
def Behind : Act N → Prop
  | .produce _ _ => True
  | .prefetch _ _ => True
  | .pull _ _ => True
  | _ => False

structure Onward (c : Config N Query Row) (m : ℤ) (a : Act N) : Prop where
  answered : AllAnswered a
  sized : Sized m a
  placed : Placed c a

structure Works (c : Config N Query Row) (m : ℤ) (a : Act N) : Prop extends Onward c m a where
  behind : Behind a

/-- The slot of the owner has a row, or no other one will come into it. -/
def Ready (s : Sys N Row) (o : N) : Prop :=
  s.gate.prefetchBuf o ≠ [] ∨ s.gate.clientProducersDone o = true ∨ s.gate.prefetchDone o = true

/-- There is no prefetcher, or it has returned. -/
def Rested (s : Sys N Row) (k : ℕ) : Prop := s.thread k = .absent ∨ s.thread k = .returned

/-- What steps behind the gateway leave as it is, and what they do not undo. -/
structure Kept (c : Config N Query Row) (s s' : Sys N Row) : Prop where
  submit : s'.submit = s.submit
  fetch : s'.fetch = s.fetch
  finished : s'.finished = s.finished
  log : s'.log = s.log
  stop : s'.gate.prefetchStop = s.gate.prefetchStop
  gens : (s'.node c.gateway).gens = (s.node c.gateway).gens
  ready : ∀ o, Ready s o → Ready s' o
  rested : ∀ k, Rested s k → Rested s' k
  stocked : ∀ g < (s.node c.gateway).gens, Stocked (s.node c.gateway) g →
    Stocked (s'.node c.gateway) g

variable {c : Config N Query Row} {q : Query} {s s' : Sys N Row} {a : Act N} {m : ℤ} {o : N}
  {k i : ℕ}

omit [DecidableEq N] in
lemma Kept.refl (s : Sys N Row) : Kept c s s :=
  ⟨rfl, rfl, rfl, rfl, rfl, rfl, fun _ => id, fun _ => id, fun _ _ => id⟩

omit [DecidableEq N] in
lemma Kept.trans {s₁ s₂ s₃ : Sys N Row} (h : Kept c s₁ s₂) (h' : Kept c s₂ s₃) : Kept c s₁ s₃ where
  submit := h'.submit.trans h.submit
  fetch := h'.fetch.trans h.fetch
  finished := h'.finished.trans h.finished
  log := h'.log.trans h.log
  stop := h'.stop.trans h.stop
  gens := h'.gens.trans h.gens
  ready o ho := h'.ready o (h.ready o ho)
  rested k hk := h'.rested k (h.rested k hk)
  stocked g hg hs := h'.stocked g (h.gens.symm ▸ hg) (h.stocked g hg hs)

lemma ready_prefetch {act : PrefetchAct} (hst : Prefetches c q s k act s') {o' : N}
    (h : Ready s o') : Ready s' o' := by
  have hset : ∀ {f : N → Bool} {o : N}, f o' = true → Function.update f o true o' = true := by
    intro f o hf
    by_cases ho : o' = o
    · rw [ho, Function.update_self]
    · rwa [Function.update_of_ne ho]
  have hfail : ∀ {o : N}, Ready (s.failThread k o) o' :=
    fun {o} => h.imp_right fun h => h.imp hset hset
  cases hst with
  | noHop => exact hfail
  | refused => exact hfail
  | failed => exact hfail
  | @receive o _ _ out isLast =>
    rcases h with h | h | h
    · left
      show Function.update s.gate.prefetchBuf o (s.gate.prefetchBuf o ++ out) o' ≠ []
      by_cases ho : o' = o
      · subst ho
        rw [Function.update_self]
        exact List.append_ne_nil_of_left_ne_nil h _
      · rwa [Function.update_of_ne ho]
    · exact .inr (.inl h)
    · refine .inr (.inr ?_)
      cases isLast with
      | true => exact hset h
      | false => exact h
  | _ => exact h

lemma rested_prefetch {act : PrefetchAct} (hst : Prefetches c q s k act s') {k' : ℕ}
    (h : Rested s k') : Rested s' k' := by
  have hgoes : ∀ {pc pc' : ThreadPc}, s.thread k = pc → pc ≠ .absent → pc ≠ .returned →
      Function.update s.thread k pc' k' = .absent ∨
        Function.update s.thread k pc' k' = .returned := by
    intro pc pc' ht habs hret
    by_cases hkk : k' = k
    · subst hkk
      exact absurd h (by simp [Rested, ht, habs, hret])
    · rwa [Function.update_of_ne hkk]
  cases hst with
  | start _ ht => exact hgoes ht nofun nofun
  | noHop _ ht => exact hgoes ht nofun nofun
  | stop _ ht => exact hgoes ht nofun nofun
  | issue _ ht => exact hgoes ht nofun nofun
  | receive _ ht => exact hgoes ht nofun nofun
  | expired _ ht => exact hgoes ht nofun nofun
  | refused _ ht => exact hgoes ht nofun nofun
  | timeout _ ht => exact hgoes ht nofun nofun
  | failed _ ht => exact hgoes ht nofun nofun

lemma kept_step (hsh : Shape c q s) (hst : Steps c q s a s') (ha : Behind a) : Kept c s s' := by
  cases hst with
  | @produce n act e' hst =>
    refine ⟨rfl, rfl, rfl, rfl, rfl, ?_, fun _ => id, fun _ => id, fun g hg hs => ?_⟩
    · by_cases hn : c.gateway = n
      · subst hn
        rw [setNode_self]
        exact (prodStep_spec (hsh.entries c.gateway) hst).2.gens
      · rw [setNode_ne s hn]
    · by_cases hn : c.gateway = n
      · subst hn
        rw [setNode_self]
        exact stocked_step (hsh.entries c.gateway) hst hg hs
      · rwa [setNode_ne s hn]
  | prefetch hst =>
    have hnode : s'.node = s.node := by cases hst <;> rfl
    refine ⟨?_, ?_, ?_, ?_, ?_, by rw [hnode], fun _ => ready_prefetch hst,
      fun _ => rested_prefetch hst, by rw [hnode]; exact fun _ _ => id⟩ <;> cases hst <;> rfl
  | pull hst =>
    obtain ⟨o, stage, stage', hp, -⟩ := pulls_set hst
    have hnode := pulls_node hst hp (hsh.threads.pull _ (List.mem_of_getElem? hp)).2.symm
    have hframe := pulls_frame hst
    refine ⟨?_, ?_, ?_, ?_, ?_, by rw [hnode], fun o => ?_, fun k => ?_,
      by rw [hnode]; exact fun _ _ => id⟩ <;> rw [hframe]
    · exact id
    · exact id
  | _ => exact ha.elim

section Reached

variable (h : Reach (step c q) (fun _ a => AllAnswered a) (init N Row) s)

include h in
lemma reach_of_works (hr : Reach (step c q) (fun _ a => Works c m a) s s') :
    Reach (step c q) (fun _ a => AllAnswered a) (init N Row) s' :=
  h.trans (hr.mono fun _ _ ha => ha.answered)

include h in
lemma kept_of_works (hr : Reach (step c q) (fun _ a => Works c m a) s s') : Kept c s s' :=
  hr.invariant (I := Kept c s) (.refl s) fun _ _ _ hr' hi ha hst =>
    hi.trans (kept_step (shape_of_reach (reach_of_works h hr')) (steps_of_step hst) ha.behind)

end Reached

/-! ### A call is brought to its answer -/

/-- The call will bring a row, or the end of the rows of its owner. -/
def Promising (c : Config N Query Row) (o : N) (e : Entry Row) : PullStage N Row → Prop
  | .at _ => serves (c.overlay.impl o) (c.shard o) = true → ∀ g, e.table = some g → Stocked e g
  | .found g => Stocked e g
  | .popped g out => out ≠ [] ∨ (e.obj g).doneProducing = true ∧ (e.obj g).matched = []
  | .loaded g out doneProd => out ≠ [] ∨ doneProd = true ∧ (e.obj g).matched = []
  | .decided _ out isLast => out ≠ [] ∨ isLast = true
  | .dropping _ => True
  | .replied code out isLast => code ≠ .deadlineExceeded ∧ (code = .ok → out ≠ [] ∨ isLast = true)

/-- The prefetcher waits for no call any more; and the slot is ready, if `P`. -/
def Settled (P : Prop) (o : N) (k : ℕ) (s : Sys N Row) : Prop :=
  (s.thread k = .waiting ∨ s.thread k = .returned) ∧ (P → Ready s o)

section Call

variable {P : Prop} {stage : PullStage N Row} {code : StatusCode} {out : List Row} {isLast : Bool}
  {g : ℕ} {n : N}

omit [DecidableEq N] in
lemma setPull_getElem? (hp : s.pull[i]? = some ⟨o, stage⟩) (stage' : PullStage N Row) :
    (s.setPull i ⟨o, stage'⟩).pull[i]? = some ⟨o, stage'⟩ :=
  List.getElem?_set_self (List.getElem?_eq_some_iff.mp hp).1

variable (hk : (c.eligible q)[k]? = some o)

include hk

lemma can_receive (ht : s.thread k = .pulling i)
    (hp : s.pull[i]? = some ⟨o, .replied code out isLast⟩)
    (hP : P → Promising c o (s.node o) (.replied code out isLast : PullStage N Row)) :
    Can (step c q) (fun _ a => Works c m a) (Settled P o k) s := by
  have hst : step c q s (.prefetch k .receive) = some (prefetchResult s k o code out isLast) := by
    simp [step, prefetchStep, hk, ht, hp]
  refine .first hst ⟨⟨trivial, trivial, trivial⟩, trivial⟩ (.now ?_)
  unfold prefetchResult
  split
  next hok =>
    have hthread : (s.gotChunk k o out isLast).thread k = if isLast then .returned else .waiting :=
      setThread_self s k _
    refine ⟨?_, fun h => ?_⟩
    · rw [hthread]
      cases isLast with
      | true => exact .inr rfl
      | false => exact .inl rfl
    · rcases (hP h).2 hok with hout | rfl
      · refine .inl ?_
        show Function.update s.gate.prefetchBuf o (s.gate.prefetchBuf o ++ out) o ≠ []
        rw [Function.update_self]
        exact List.append_ne_nil_of_right_ne_nil _ hout
      · exact .inr (.inr (Function.update_self ..))
  next =>
    split
    next hd => exact ⟨.inl (setThread_self s k _), fun h => absurd hd (hP h).1⟩
    next =>
      refine ⟨.inr (setThread_self (s.markDone o) k _), fun _ => .inr (.inr ?_)⟩
      exact Function.update_self ..

lemma can_unschedule (ht : s.thread k = .pulling i) (hp : s.pull[i]? = some ⟨o, .dropping out⟩) :
    Can (step c q) (fun _ a => Works c m a) (Settled P o k) s := by
  have hst : step c q s (.pull i .unschedule) = some
      ((s.setNode o (s.node o).unschedule).setPull i ⟨o, .replied .ok out true⟩) := by
    simp [step, pullStep, hp]
  exact .first hst ⟨⟨trivial, trivial, trivial⟩, trivial⟩
    (can_receive hk ht (setPull_getElem? hp _) fun _ => ⟨by simp, fun _ => .inr rfl⟩)

lemma can_answer (ht : s.thread k = .pulling i) (hp : s.pull[i]? = some ⟨o, .decided g out isLast⟩)
    (hP : P → out ≠ [] ∨ isLast = true) :
    Can (step c q) (fun _ a => Works c m a) (Settled P o k) s := by
  cases isLast with
  | false =>
    have hst : step c q s (.pull i .reply) = some (s.setPull i ⟨o, .replied .ok out false⟩) := by
      simp [step, pullStep, hp]
    exact .first hst ⟨⟨trivial, trivial, trivial⟩, trivial⟩
      (can_receive hk ht (setPull_getElem? hp _) fun h => ⟨by simp, fun _ => hP h⟩)
  | true =>
    cases himpl : c.overlay.impl o with
    | cpp =>
      have hst : step c q s (.pull i .reply) = some
          ((s.setNode o (dropRequest (s.node o))).setPull i ⟨o, .replied .ok out true⟩) := by
        simp [step, pullStep, hp, himpl]
      exact .first hst ⟨⟨trivial, trivial, trivial⟩, trivial⟩
        (can_receive hk ht (setPull_getElem? hp _) fun _ => ⟨by simp, fun _ => .inr rfl⟩)
    | python =>
      have hst : step c q s (.pull i .reply) = some
          ((s.setNode o (s.node o).erase).setPull i ⟨o, .dropping out⟩) := by
        simp [step, pullStep, hp, himpl]
      exact .first hst ⟨⟨trivial, trivial, trivial⟩, trivial⟩
        (can_unschedule hk ht (setPull_getElem? hp _))

lemma can_decide {d : Bool} (ht : s.thread k = .pulling i)
    (hp : s.pull[i]? = some ⟨o, .loaded g out d⟩)
    (hP : P → Promising c o (s.node o) (.loaded g out d : PullStage N Row)) :
    Can (step c q) (fun _ a => Works c m a) (Settled P o k) s := by
  have hst : step c q s (.pull i .decide) = some (s.setPull i ⟨o, .decided g out
      (d && ((s.node o).obj g).matched.isEmpty && out.isEmpty)⟩) := by
    simp [step, pullStep, hp]
  refine .first hst ⟨⟨trivial, trivial, trivial⟩, trivial⟩
    (can_answer hk ht (setPull_getElem? hp _) fun h => ?_)
  by_cases hout : out = []
  · obtain ⟨hd, hmatched⟩ := (hP h).resolve_left (not_not_intro hout)
    exact .inr (by simp [hd, hmatched, hout])
  · exact .inl hout

lemma can_load (ht : s.thread k = .pulling i) (hp : s.pull[i]? = some ⟨o, .popped g out⟩)
    (hP : P → Promising c o (s.node o) (.popped g out : PullStage N Row)) :
    Can (step c q) (fun _ a => Works c m a) (Settled P o k) s := by
  have hst : step c q s (.pull i .load) = some
      (s.setPull i ⟨o, .loaded g out ((s.node o).obj g).doneProducing⟩) := by
    simp [step, pullStep, hp]
  exact .first hst ⟨⟨trivial, trivial, trivial⟩, trivial⟩
    (can_decide hk ht (setPull_getElem? hp _) hP)

/-- A state with rows, or without more to come, still promises as much when rows are popped. -/
lemma can_pop (hm : 1 ≤ m) (ht : s.thread k = .pulling i) (hp : s.pull[i]? = some ⟨o, .found g⟩)
    (hP : P → Stocked (s.node o) g) :
    Can (step c q) (fun _ a => Works c m a) (Settled P o k) s := by
  have hst : step c q s (.pull i (.pop m)) = some
      ((s.setNode o ((s.node o).pop g m.toNat)).setPull i
        ⟨o, .popped g (((s.node o).obj g).matched.take m.toNat)⟩) := by
    simp [step, pullStep, hp]
  refine .first hst ⟨⟨trivial, rfl, trivial⟩, trivial⟩
    (can_load hk ht (setPull_getElem? hp _) fun h => ?_)
  have hnode : ((s.setNode o ((s.node o).pop g m.toNat)).node o).obj g =
      { (s.node o).obj g with matched := ((s.node o).obj g).matched.drop m.toNat } := by
    rw [setNode_self]
    exact Function.update_self ..
  by_cases hmatched : ((s.node o).obj g).matched = []
  · refine .inr ?_
    show (((s.setNode o ((s.node o).pop g m.toNat)).node o).obj g).doneProducing = true ∧
      (((s.setNode o ((s.node o).pop g m.toNat)).node o).obj g).matched = []
    rw [hnode, hmatched]
    exact ⟨(hP h).resolve_left (not_not_intro hmatched), List.drop_nil⟩
  · refine .inl fun hnil => ?_
    rcases List.take_eq_nil_iff.mp hnil with h0 | h0
    · omega
    · exact hmatched h0

/-- A call that has found the request pops rows, and decides from what it sees then. -/
lemma can_serve (hm : 1 ≤ m) (ht : s.thread k = .pulling i)
    (hp : s.pull[i]? = some ⟨o, stage⟩) (hat : ∀ n, stage ≠ .at n)
    (hP : P → Promising c o (s.node o) stage) :
    Can (step c q) (fun _ a => Works c m a) (Settled P o k) s := by
  cases stage with
  | «at» n => exact absurd rfl (hat n)
  | found g => exact can_pop hk hm ht hp hP
  | popped g out => exact can_load hk ht hp hP
  | loaded g out d => exact can_decide hk ht hp hP
  | decided g out isLast => exact can_answer hk ht hp hP
  | dropping out => exact can_unschedule hk ht hp
  | replied code out isLast => exact can_receive hk ht hp hP

lemma can_call (hm : 1 ≤ m) {d : ℕ} : ∀ {s : Sys N Row} {n : N}, Routes c.overlay o d n →
    s.thread k = .pulling i → s.pull[i]? = some ⟨o, .at n⟩ →
    (P → Promising c o (s.node o) (.at n : PullStage N Row)) →
    Can (step c q) (fun _ a => Works c m a) (Settled P o k) s := by
  induction d with
  | zero =>
    intro s n hroute ht hp hP
    obtain rfl : n = o := hroute
    have hhere : c.overlay.toward n n = .here := toward_here_iff.mpr rfl
    have hrefuse : step c q s (.pull i .handle) =
        some (s.setPull i ⟨n, .replied .notFound [] false⟩) →
        Can (step c q) (fun _ a => Works c m a) (Settled P n k) s := fun hst =>
      .first hst ⟨⟨trivial, trivial, trivial⟩, trivial⟩
        (can_receive hk ht (setPull_getElem? hp _) fun _ => ⟨by simp, by simp⟩)
    cases htable : (s.node n).table with
    | none => exact hrefuse (by simp [step, pullStep, hp, hhere, htable])
    | some g =>
      by_cases hserves : serves (c.overlay.impl n) (c.shard n) = true
      · have hst : step c q s (.pull i .handle) = some (s.setPull i ⟨n, .found g⟩) := by
          simp [step, pullStep, hp, hhere, htable, hserves]
        exact .first hst ⟨⟨trivial, trivial, trivial⟩, trivial⟩
          (can_serve hk hm ht (setPull_getElem? hp _) (by simp) fun h => hP h hserves g htable)
      · exact hrefuse (by simp [step, pullStep, hp, hhere, htable, hserves])
  | succ d ih =>
    intro s n hroute ht hp hP
    obtain ⟨nh, htoward, hroute⟩ := hroute
    have hst : step c q s (.pull i .handle) = some (s.setPull i ⟨o, .at nh⟩) := by
      simp [step, pullStep, hp, htoward]
    exact .first hst ⟨⟨trivial, trivial, trivial⟩, trivial⟩
      (ih hroute ht (setPull_getElem? hp _) hP)

end Call

/-! ### The prefetcher of an owner -/

lemma can_produce {Q : Entry Row → Prop} {n : N}
    (hn : n = c.gateway ∨ n ∈ c.overlay.dataOwners)
    (h : Can (prodStep (c.shard n) (c.overlay.impl n) c.overlay.maxRows) (fun _ _ => True) Q
      (s.node n)) :
    Can (step c q) (fun _ a => Works c m a) (fun s' => ∃ e,
      Reach (prodStep (c.shard n) (c.overlay.impl n) c.overlay.maxRows) (fun _ _ => True)
        (s.node n) e ∧ Q e ∧ s' = s.setNode n e) s := by
  obtain ⟨e, hr, hQ⟩ := h
  have hself : s.setNode n (s.node n) = s := by simp [Sys.setNode]
  have hrun : Reach (step c q) (fun _ a => Works c m a) (s.setNode n (s.node n)) (s.setNode n e) :=
    hr.embed (fun e => s.setNode n e) (fun a => .produce n a) fun e a e' _ hst => by
      refine ⟨⟨⟨trivial, trivial, hn⟩, trivial⟩, ?_⟩
      show (prodStep _ _ _ ((s.setNode n e).node n) a).map _ = _
      rw [setNode_self, hst]
      simp [Sys.setNode]
  rw [hself] at hrun
  exact ⟨_, hrun, e, hr, hQ, rfl⟩

/-- The owner does what there is to do, if it serves anything. -/
def Productive (c : Config N Query Row) (o : N) : Prop :=
  serves (c.overlay.impl o) (c.shard o) = true →
    Diligent (c.shard o) (c.overlay.impl o) c.overlay.maxRows

lemma can_stock_owner (h : Reach (step c q) (fun _ a => AllAnswered a) (init N Row) s)
    (hd : Productive c o) :
    Can (prodStep (c.shard o) (c.overlay.impl o) c.overlay.maxRows) (fun _ _ => True)
      (fun e => serves (c.overlay.impl o) (c.shard o) = true → ∀ g, e.table = some g → Stocked e g)
      (s.node o) := by
  by_cases hserves : serves (c.overlay.impl o) (c.shard o) = true
  · cases htable : (s.node o).table with
    | none => exact .now fun _ g hg => by rw [htable] at hg; cases hg
    | some g =>
      have hentry := (shape_of_reach h).entries o
      have hcancel := uncancelled_of_reach (notCancelled fun _ _ => id) h o g
      have hlisted := (stands_of_reach h).scheduled o (by simp [htable])
      refine (can_stock hentry (hd hserves) htable hlisted hcancel).imp
        fun e hre hstocked _ g' hg' => ?_
      rw [(after_of_reach hentry hre).table, htable] at hg'
      exact Option.some.inj hg' ▸ hstocked.2
  · exact .now fun hs => absurd hs hserves

section Lane

variable (hm : 1 ≤ m) (hown : (c.eligible q).Nodup) (hr : WithinTtl c q)
  (h : Reach (step c q) (fun _ a => AllAnswered a) (init N Row) s) (hl : IsLane c q o k)

include hm hr h hl

lemma can_settle : Can (step c q) (fun _ a => Works c m a)
    (fun s' => s'.thread k = .waiting ∨ Rested s' k) s := by
  have hreaches := reaches_of_withinTtl hr hl.mem hl.remote
  cases ht : s.thread k with
  | absent => exact .now (.inr (.inl ht))
  | starting =>
    obtain ⟨hop, hhop, -⟩ := hreaches
    have hst : step c q s (.prefetch k .start) = some (s.setThread k .waiting) := by
      simp [step, prefetchStep, hl.owner, ht, hhop]
    exact .first hst ⟨⟨trivial, trivial, trivial⟩, trivial⟩ (.now (.inl (setThread_self s k _)))
  | waiting => exact .now (.inl ht)
  | returned => exact .now (.inr (.inr ht))
  | pulling i =>
    obtain ⟨o', stage, hk', hp⟩ := (shape_of_reach h).threads.pulling k i ht
    obtain rfl : o' = o := Option.some.inj (hk'.symm.trans hl.owner)
    have hsettled : Can (step c q) (fun _ a => Works c m a) (Settled False o' k) s := by
      by_cases hat : ∃ n, stage = .at n
      · obtain ⟨n, rfl⟩ := hat
        have hsound : Sound c q o' True (lane o' k s) :=
          sound_of_answered hl hr (fun _ _ ha => ha.forwardsAnswered) (notCancelled fun _ _ => id)
            (fun s a hs ha => keepsRows_of_callsAwaited ha
              (callsAwaited_of_reach (fun _ _ => id) hs) o') h
        obtain ⟨d, hroute⟩ : Leads c.overlay o' n :=
          (hsound.call i _ (lane_pull o' k s hp)).mpr hreaches
        exact can_call hl.owner hm hroute ht hp False.elim
      · exact can_serve hl.owner hm ht hp (fun n hn => hat ⟨n, hn⟩) False.elim
    exact hsettled.imp fun s' _ hs => hs.1.imp_right .inr

include hown

/-- **The slot of an owner can be filled**, or its prefetcher brought to its end. -/
lemma can_ready (hsub : s.submit = .returned) (hopen : ¬ Closed s) (hd : Productive c o) :
    Can (step c q) (fun _ a => Works c m a) (fun s' => Ready s' o) s := by
  refine (can_settle hm hr h hl).bind fun s₁ hr₁ ht₁ => ?_
  have h₁ := reach_of_works h hr₁
  have hkept := kept_of_works h hr₁
  by_cases hready : Ready s₁ o
  · exact .now hready
  obtain ⟨hbuf, hready⟩ := not_or.mp hready
  obtain ⟨-, hpre⟩ := not_or.mp hready
  rw [not_not] at hbuf
  have hstands := stands_of_reach h₁
  have hstop : s₁.gate.prefetchStop = false := by
    by_contra hstop
    have hclosed := hstands.stopped (Bool.eq_true_of_not_eq_false hstop)
    unfold Closed at hclosed hopen
    rw [hkept.fetch, hkept.finished] at hclosed
    exact hopen hclosed
  have ht : s₁.thread k = .waiting := by
    rcases ht₁ with ht | ht | ht
    · exact ht
    · refine absurd ht ((onCourse_of_reach hown hr h₁).spawned k o hl.owner hl.remote (.inr ?_))
      rw [hkept.submit, hsub]
      rfl
    · rcases hstands.returned k o hl.owner ht with hdone | hdone
      · exact absurd hdone hpre
      · rw [hstop] at hdone
        cases hdone
  refine (can_produce (.inr hl.mem_dataOwners) (can_stock_owner h₁ hd)).bind fun s₂ _ hs₂ => ?_
  obtain ⟨e, -, hpromise, rfl⟩ := hs₂
  obtain ⟨hop, hhop, d, hroute⟩ := reaches_of_withinTtl hr hl.mem hl.remote
  have hself : ((s₁.setNode o e).self c).cancelled = false := by
    unfold Sys.self
    rw [setNode_ne s₁ hl.remote.symm]
    exact uncancelled_of_reach (notCancelled fun _ _ => id) h₁ c.gateway 0
  have hst : step c q (s₁.setNode o e) (.prefetch k .issue) = some
      { (s₁.setNode o e).setThread k (.pulling s₁.pull.length) with
        pull := s₁.pull ++ [⟨o, .at hop⟩] } := by
    simp only [step, prefetchStep, hl.owner, Sys.setNode, ht, hstop, hbuf, hpre, hhop]
    simp [Sys.self, Sys.setNode] at hself
    simp [Sys.self, hself]
  refine .first hst ⟨⟨trivial, trivial, trivial⟩, trivial⟩ ?_
  refine (can_call (i := s₁.pull.length) (P := True) hl.owner hm hroute ?_ ?_ fun _ => ?_).imp
    fun s' _ hs => hs.2 trivial
  · exact setThread_self (s₁.setNode o e) k _
  · exact List.getElem?_concat_length
  · show Promising c o ((s₁.setNode o e).node o) (.at hop : PullStage N Row)
    rw [setNode_self]
    exact hpromise

end Lane

end Mini2.LaneAhead
