import Mini2.Traces

/-!
What `owners_hit` counts when every call is answered: the owners that are near and have rows.
One without rows refuses its calls, and is not counted.
-/

namespace Mini2.Coverage

open Mini2.Proto Mini2.Net Mini2.Request Mini2.Producer Mini2.Gather Mini2.GatherSteps
open Mini2.GatherShape Mini2.Runs Mini2.Lane Mini2.SelfLane Mini2.Finish Mini2.Forwarded
open Mini2.ExactlyOnce Mini2.Outcome Mini2.Traces

variable {N Query Row : Type}

/-! ### An owner that serves is heard -/

/-- The call has been answered, or is about to be, with the last chunk. -/
def Final : PullStage N Row → Prop
  | .dropping _ => True
  | .replied code _ isLast => code = .ok ∧ isLast = true
  | _ => False

/-- The owner still has the request, so a call that has been answered has got a chunk. -/
def Open (e : Entry Row) (stage : PullStage N Row) : Prop :=
  e.table ≠ none ∧ ∀ code out isLast, stage = .replied code out isLast → code = .ok ∧ isLast = false

/-- An owner with rows has the request until its prefetcher has got its last chunk, and is
never taken to be done before it has answered. -/
structure Heard (v : View N Row) : Prop where
  asking : (∀ i, v.thread ≠ .pulling i) → v.thread ≠ .returned → 0 < v.entry.gens →
    v.entry.table ≠ none
  asked : ∀ i stage, v.thread = .pulling i → v.pull i = some stage →
    Final stage ∨ Open v.entry stage
  prefetchDone : v.prefetchDone = true → v.responded
  done : v.done = true → v.responded

variable [DecidableEq N]

/-- A step of a run in which every call is answered, for an owner that is near and serves. -/
structure Healthy (c : Config N Query Row) (q : Query) (o : N) (k : ℕ) (v : View N Row)
    (a : Act N) (v' : View N Row) : Prop where
  step : LaneStep c q o k v a v'
  answered : AllAnswered a
  noCancel : ∀ j act, a ≠ .cancel j act
  serves : Serves c o
  reaches : ∃ hop, c.overlay.nextHop c.gateway o = .ok hop
  entry : EntryOk (c.shard o) q v.entry
  awaited : ∀ i stage, v.pull i = some stage →
    (∀ code out isLast, stage ≠ .replied code out isLast) → v.thread = .pulling i
  leads : ∀ i n, v.pull i = some (.at n) → Leads c.overlay o n
  registered : v.thread ≠ .absent → 0 < v.entry.gens
  kept : ∀ act, a = .submit act → v'.done = true → v.done = true

variable {c : Config N Query Row} {q : Query} {o : N} {k : ℕ} {v v' : View N Row} {a : Act N}

omit [DecidableEq N] in
lemma Open.mono {e e' : Entry Row} {stage : PullStage N Row} (h : Open e stage)
    (ht : e.table ≠ none → e'.table ≠ none) : Open e' stage :=
  ⟨ht h.1, h.2⟩

omit [DecidableEq N] in
/-- A step that leaves the prefetcher and its calls alone, and keeps the request. -/
lemma Heard.frame (h : Heard v) (hthread : v'.thread = v.thread) (hpull : v'.pull = v.pull)
    (htable : v.entry.table ≠ none → v'.entry.table ≠ none)
    (hgens : 0 < v'.entry.gens → v'.entry.table = none → 0 < v.entry.gens)
    (hpre : v'.prefetchDone = true → v'.responded) (hdone : v'.done = true → v'.responded) :
    Heard v' := by
  refine ⟨fun ht hr hpos hnone => ?_, fun i stage ht hp => ?_, hpre, hdone⟩
  · rw [hthread] at ht hr
    exact htable (h.asking ht hr (hgens hpos hnone)) hnone
  · rw [hthread] at ht
    rw [hpull] at hp
    exact (h.asked i stage ht hp).imp_right (·.mono htable)

omit [DecidableEq N] in
lemma Heard.move (h : Heard v) {i : ℕ} {stage : PullStage N Row} {e : Entry Row}
    (ht : v.thread = .pulling i) (hnew : Final stage ∨ Open e stage) :
    Heard { v.setPull i stage with entry := e } := by
  refine ⟨fun hne => absurd ht (hne i), fun j st hj hp => ?_, h.prefetchDone, h.done⟩
  obtain rfl : i = j := ThreadPc.pulling.inj (ht.symm.trans hj)
  have hst : (v.setPull i stage).pull i = some st := hp
  rw [setPull_pull_self] at hst
  obtain rfl := Option.some.inj hst
  exact hnew

lemma heard_step (h : Heard v) (hh : Healthy c q o k v a v') : Heard v' := by
  -- a call that is under way is awaited, and its owner has the request
  have hopen : ∀ {i : ℕ} {stage : PullStage N Row}, v.pull i = some stage →
      (∀ code out isLast, stage ≠ .replied code out isLast) → ¬ Final stage →
      v.thread = .pulling i ∧ v.entry.table ≠ none := by
    intro i stage hp hne hnf
    have ht := hh.awaited i stage hp hne
    exact ⟨ht, ((h.asked i stage ht hp).resolve_left hnf).1⟩
  have hmove : ∀ {i : ℕ} {stage stage' : PullStage N Row} {e : Entry Row}, v.pull i = some stage →
      (∀ code out isLast, stage ≠ .replied code out isLast) → ¬ Final stage →
      (v.entry.table ≠ none → Final stage' ∨ Open e stage') →
      Heard { v.setPull i stage' with entry := e } := by
    intro i stage stage' e hp hne hnf hnew
    obtain ⟨ht, htab⟩ := hopen hp hne hnf
    exact h.move ht (hnew htab)
  have hbefore : ∀ {pc}, v.thread = pc → pc = .starting ∨ pc = .waiting →
      v.entry.table ≠ none := by
    intro pc ht hpc
    have hne : (∀ i, v.thread ≠ .pulling i) ∧ v.thread ≠ .returned ∧ v.thread ≠ .absent := by
      rcases hpc with rfl | rfl <;> simp [ht]
    exact h.asking hne.1 hne.2.1 (hh.registered hne.2.2)
  cases hh.step with
  | register =>
    exact h.frame rfl rfl (fun _ => registerRequest_table _ _ _ _)
      (fun _ ht => absurd ht (registerRequest_table _ _ _ _)) h.prefetchDone h.done
  | produce hs =>
    have hm := (prodStep_spec hh.entry hs).2
    refine h.frame rfl rfl (fun ht => ?_) (fun hpos _ => ?_) h.prefetchDone h.done
    · simpa only [hm.table] using ht
    · simpa only [hm.gens] using hpos
  | flag => exact absurd rfl (hh.noCancel _ _)
  | clear => exact absurd rfl (hh.noCancel _ _)
  | evict => exact absurd rfl (hh.noCancel _ _)
  | wipe => exact absurd rfl (hh.noCancel _ _)
  | mark => exact h.frame rfl rfl id (fun hpos _ => hpos) h.prefetchDone fun hd => by cases hd
  | dead => exact h.frame rfl rfl id (fun hpos _ => hpos) h.prefetchDone fun _ =>
      h.done (hh.kept _ rfl rfl)
  | spawn ht =>
    refine ⟨fun _ _ => h.asking (by simp [ht]) (by simp [ht]), fun i _ hi => ?_,
      h.prefetchDone, h.done⟩
    cases hi
  | start ht =>
    refine ⟨fun _ _ _ => hbefore ht (.inl rfl), fun i _ hi => ?_, h.prefetchDone, h.done⟩
    cases hi
  | noHop _ hn =>
    obtain ⟨hop, hhop⟩ := hh.reaches
    rw [hn] at hhop
    cases hhop
  | stop =>
    refine ⟨fun _ hr => absurd rfl hr, fun i _ hi => ?_, h.prefetchDone, h.done⟩
    cases hi
  | @issue i hop ht hs hd hi =>
    refine ⟨fun hne => absurd rfl (hne i), fun j stage hj hp => .inr ?_, h.prefetchDone, h.done⟩
    obtain rfl := ThreadPc.pulling.inj hj
    rw [setPull_pull_self] at hp
    obtain rfl := Option.some.inj hp
    exact ⟨hbefore ht (.inr rfl), by simp⟩
  | relay hp => exact hmove hp (by simp) (by simp [Final]) fun ht => .inr ⟨ht, by simp⟩
  | noRoute hp hhere hn =>
    exact absurd (hh.leads _ _ hp) (not_leads hhere hn)
  | missing hp hm =>
    obtain ⟨-, ht⟩ := hopen hp (by simp) (by simp [Final])
    have hs := hm.resolve_left ht
    rw [show Gather.serves _ _ = true from hh.serves] at hs
    cases hs
  | found hp => exact hmove hp (by simp) (by simp [Final]) fun ht => .inr ⟨ht, by simp⟩
  | pop hp => exact hmove hp (by simp) (by simp [Final]) fun ht => .inr ⟨ht, by simp⟩
  | load hp => exact hmove hp (by simp) (by simp [Final]) fun ht => .inr ⟨ht, by simp⟩
  | decide hp => exact hmove hp (by simp) (by simp [Final]) fun ht => .inr ⟨ht, by simp⟩
  | more hp => exact hmove hp (by simp) (by simp [Final]) fun ht => .inr ⟨ht, by simp⟩
  | last hp => exact hmove hp (by simp) (by simp [Final]) fun _ => .inl (by simp [Final])
  | erase hp => exact hmove hp (by simp) (by simp [Final]) fun _ => .inl (by simp [Final])
  | unschedule hp =>
    have ht := hh.awaited _ _ hp (by simp)
    exact h.move ht (.inl (by simp [Final]))
  | @receive i out isLast ht hp =>
    refine ⟨fun _ hr _ => ?_, fun j _ hj => ?_, fun _ => trivial, fun _ => trivial⟩
    · cases isLast with
      | true => exact absurd rfl hr
      | false => exact ((h.asked i _ ht hp).resolve_left (by simp [Final])).1
    · cases isLast <;> cases hj
  | expired ht hp =>
    rcases h.asked _ _ ht hp with hf | ho
    · exact absurd hf.1 (by simp)
    · exact absurd (ho.2 _ _ _ rfl).1 (by simp)
  | refused ht hp hc =>
    rcases h.asked _ _ ht hp with hf | ho
    · exact absurd hf.1 hc
    · exact absurd (ho.2 _ _ _ rfl).1 hc
  | timeout => exact hh.answered.elim
  | failed => exact hh.answered.elim
  | drain =>
    refine h.frame rfl rfl id (fun hpos _ => hpos) h.prefetchDone fun hd => ?_
    simp only [Bool.or_eq_true, Bool.and_eq_true] at hd
    rcases hd with hd | ⟨hp, -⟩
    · exact h.done hd
    · exact h.prefetchDone hp

variable {s s' : Sys N Row}

lemma pull_of_lane {i : ℕ} {stage : PullStage N Row} (h : (lane o k s).pull i = some stage) :
    s.pull[i]? = some ⟨o, stage⟩ := by
  obtain ⟨p, hp, hstage⟩ := Option.bind_eq_some_iff.mp h
  split at hstage
  next ho =>
    obtain rfl := Option.some.inj hstage
    rw [hp, ← ho]
  next => cases hstage

omit [DecidableEq N] in
lemma forwardsAnswered : ∀ (_ : Sys N Row) (a : Act N), AllAnswered a → ForwardsAnswered a :=
  fun _ _ ha => ha.forwardsAnswered

lemma healthy (hl : IsLane c q o k) (hn : Near c o) (hs : Serves c o)
    (hr : Reach (step c q) (fun _ a => AllAnswered a) (init N Row) s) (ha : AllAnswered a)
    (hst : step c q s a = some s') (hlane : LaneStep c q o k (lane o k s) a (lane o k s')) :
    Healthy c q o k (lane o k s) a (lane o k s') where
  step := hlane
  answered := ha
  noCancel j act heq := by
    subst heq
    have hnil : s.cancel = [] := cancel_eq_nil notCancelling hr
    cases steps_of_step hst with
    | cancel hst => exact cancel_ne_nil hst hnil
  serves := hs
  reaches := by
    obtain ⟨h, -, hroute⟩ := hn
    cases h with
    | zero => exact absurd hroute.symm hl.remote
    | succ h =>
      obtain ⟨nh, htoward, -⟩ := hroute
      exact ⟨nh, (toward_hop_iff.mp htoward).2.1⟩
  entry := (shape_of_reach hr).entries o
  awaited i stage hp hne := by
    have hp := pull_of_lane hp
    have hcalls := callsAwaited_of_reach (fun _ _ ha => ha) hr
    rcases hcalls i _ hp with ⟨code, out, isLast, hreplied⟩ | ⟨k', hk', ht⟩
    · exact absurd hreplied (hne code out isLast)
    · obtain ⟨o', stage', hown, hp'⟩ := (shape_of_reach hr).threads.pulling k' i ht
      obtain rfl : o = o' := congrArg PullCall.owner (Option.some.inj (hp.symm.trans hp'))
      obtain rfl := hl.eq hown
      exact ht
  leads i n hp := by
    have hcall := (fate_of_reach hl.remote hr).calls _ (List.mem_of_getElem? (pull_of_lane hp)) rfl
    exact hcall hn
  registered ht :=
    registered_of_thread (shape_of_reach hr).threads (told_of_reach forwardsAnswered hr)
      hl.owner hl.remote ht hn
  kept act heq hd := by
    subst heq
    exact kept_of_told (told_of_reach forwardsAnswered hr) ha.forwardsAnswered
      (submits_of_step hst) hl.mem hn hd

lemma heard_of_reach (hl : IsLane c q o k) (hn : Near c o) (hs : Serves c o)
    (h : Reach (step c q) (fun _ a => AllAnswered a) (init N Row) s) : Heard (lane o k s) := by
  refine h.invariant (I := fun s => Heard (lane o k s)) ?_ fun s a s' hr hi ha hst => ?_
  · rw [lane_init]
    refine ⟨fun _ _ hpos => absurd hpos (Nat.lt_irrefl 0), fun i _ ht => ?_, ?_, ?_⟩
    · cases ht
    · exact fun hp => by cases hp
    · exact fun hd => by cases hd
  · rcases lane_step hl (shape_of_reach hr) (steps_of_step hst) with heq | hlane
    · rw [heq]
      exact hi
    · exact heard_step hi (healthy hl hn hs hr ha hst hlane)

/-! ### The gateway's own part -/

/-- The gateway counts nothing before `SubmitQuery` has marked the owners, and itself from then
on, where it is eligible. -/
structure Counted (c : Config N Query Row) (q : Query) (s : Sys N Row) : Prop where
  unmarked : Unmarked s → s.gate.ownersResponded = ∅ ∧ s.gate.eligibleOwners = 0
  self : 0 < (s.node c.gateway).gens → ¬ Unmarked s → c.gateway ∈ c.eligible q →
    c.gateway ∈ s.gate.ownersResponded

lemma counted_step (hsh : Shape c q s) (hst : Steps c q s a s') (h : Counted c q s) :
    Counted c q s' := by
  -- a step that leaves `SubmitQuery` and the counts alone
  have hframe : s'.submit = s.submit → s'.gate.eligibleOwners = s.gate.eligibleOwners →
      s'.gate.ownersResponded = s.gate.ownersResponded →
      (s'.node c.gateway).gens = (s.node c.gateway).gens → Counted c q s' := by
    intro hsub helig hresp hgens
    refine ⟨fun hu => ?_, fun hpos hu hg => ?_⟩
    · rw [hresp, helig]
      exact h.unmarked (by rwa [Unmarked, hsub] at hu)
    · rw [hresp]
      exact h.self (hgens ▸ hpos) (by rwa [Unmarked, hsub] at hu) hg
  have hgens : a ≠ .submit .register → (s'.node c.gateway).gens = (s.node c.gateway).gens :=
    fun ha => gens_eq hst hsh.entries (fun h' => absurd h' ha) fun f _ r ttl hf =>
      (hsh.threads.fwd _ (List.mem_of_getElem? hf)).2 rfl
  -- a step of `SubmitQuery` after it has marked the owners
  have hlater : ∀ {pc}, s.submit = pc → pc ≠ .idle → pc ≠ .registered →
      s'.submit ≠ .idle → s'.submit ≠ .registered → a ≠ .submit .register →
      s'.gate.ownersResponded = s.gate.ownersResponded → Counted c q s' := by
    intro pc hs h1 h2 h1' h2' ha hresp
    refine ⟨fun hu => absurd hu (not_or.mpr ⟨h1', h2'⟩), fun hpos _ hg => ?_⟩
    rw [hresp]
    refine h.self (hgens ha ▸ hpos) ?_ hg
    rw [Unmarked, hs]
    exact not_or.mpr ⟨h1, h2⟩
  have hst' := hst
  cases hst with
  | submit hst =>
    cases hst with
    | register hi => exact ⟨fun _ => h.unmarked (.inl hi), fun _ hu => absurd (.inr rfl) hu⟩
    | refuse hi =>
      refine ⟨fun hu => (by rcases hu with hu | hu <;> cases hu), fun hpos _ _ => ?_⟩
      have hzero : (s.node c.gateway).gens = 0 := hsh.selfOnce.idle hi
      exact absurd hpos (by simp [hzero])
    | mark =>
      refine ⟨fun hu => (by rcases hu with hu | hu <;> cases hu), fun _ _ hg => ?_⟩
      simp [Sys.marked, hg]
    | retry hs _ _ ha =>
      refine hlater hs (by simp) (by simp) (by simp) (by simp) ?_ rfl
      rcases ha with ⟨rfl, -⟩ | rfl <;> simp
    | dead hs _ _ ha =>
      refine hlater hs (by simp) (by simp) (by simp) (by simp) ?_ rfl
      rcases ha with ⟨rfl, -⟩ | rfl <;> simp
    | _ => exact hlater (by assumption) (by simp) (by simp) (by simp) (by simp) (by simp) rfl
  | forward hst => cases hst <;> exact hframe rfl rfl rfl (hgens (by simp))
  | produce => exact hframe rfl rfl rfl (hgens (by simp))
  | prefetch hst =>
    cases hst with
    | receive hk ht =>
      refine ⟨fun hu => ?_, fun hpos hu hg => ?_⟩
      · rw [hsh.threads.absent hu.early] at ht
        cases ht
      · exact responded_mono hst' (h.self (hgens (by simp) ▸ hpos) hu hg)
    | _ => exact hframe rfl rfl rfl (hgens (by simp))
  | pull hst => refine hframe ?_ ?_ ?_ (hgens (by simp)) <;> rw [pulls_frame hst]
  | fetch hst => cases hst <;> exact hframe rfl rfl rfl (hgens (by simp))
  | cancelQuery => exact hframe rfl rfl rfl (hgens (by simp))
  | cancel hst => refine hframe ?_ ?_ ?_ (hgens (by simp)) <;> rw [cancels_frame hst]

lemma counted_of_reach {G : Sys N Row → Act N → Prop}
    (h : Reach (step c q) G (init N Row) s) : Counted c q s := by
  refine h.invariant (I := Counted c q) ?_ fun s a s' hr hi _ hst =>
    counted_step (shape_of_reach hr) (steps_of_step hst) hi
  exact ⟨fun _ => ⟨rfl, rfl⟩, fun hpos => absurd hpos (Nat.lt_irrefl 0)⟩

/-! ### The counts -/

/-- Every eligible owner is listed once, and those behind the gateway are near and serve. -/
def Covered (c : Config N Query Row) (q : Query) : Prop :=
  (c.eligible q).Nodup ∧ ∀ o ∈ c.eligible q, o ≠ c.gateway → Near c o ∧ Serves c o

lemma card_of_closed (hcov : Covered c q)
    (h : Reach (step c q) (fun _ a => AllAnswered a) (init N Row) s) (hc : Closed s)
    (hu : ¬ Unmarked s) (hpos : 0 < (s.node c.gateway).gens) :
    s.gate.ownersResponded.card = (c.eligible q).length := by
  have hall : ∀ o ∈ c.eligible q, o ∈ s.gate.ownersResponded := by
    intro o ho
    by_cases hg : o = c.gateway
    · exact hg ▸ (counted_of_reach h).self hpos hu (hg ▸ ho)
    · obtain ⟨k, hk⟩ := List.getElem?_of_mem ho
      obtain ⟨hn, hs⟩ := hcov.2 o ho hg
      have hown := (c.eligible_sublist q).subset ho
      have hdone := (closing_of_reach h).remote hc o hown hg
      exact (heard_of_reach ⟨hcov.1, hk, hg⟩ hn hs h).done hdone
  have heq : s.gate.ownersResponded = (c.eligible q).toFinset := by
    ext o
    rw [List.mem_toFinset]
    exact ⟨(shape_of_reach h).threads.responded o, hall o⟩
  rw [heq, List.toFinset_card_of_nodup hcov.1]

lemma announces_covered (hcov : Covered c q)
    (h : Reach (step c q) (fun _ a => AllAnswered a) (init N Row) s) :
    ∀ hit eligible, Announces s hit eligible → hit = eligible := by
  refine h.invariant (I := fun s => ∀ hit eligible, Announces s hit eligible → hit = eligible)
    ?_ fun s a s' hr hi _ hst hit eligible hann => ?_
  · intro hit eligible hann
    rcases hann with hann | hann | hann <;> cases hann
  · rcases announces_step (steps_of_step hst) hann with hann | ⟨hf, hhit, helig⟩
    · exact hi hit eligible hann
    · by_cases hu : Unmarked s
      · obtain ⟨hresp, hzero⟩ := (counted_of_reach hr).unmarked hu
        rw [hresp, Finset.card_empty] at hhit
        rw [← hhit, ← helig, hzero]
      · have hpos : 0 < (s.node c.gateway).gens := started_of_reach hr (by simp [hf])
        have hcard := card_of_closed hcov hr (.inr (by simp [hf])) hu hpos
        calc hit = s.gate.ownersResponded.card := hhit.symm
          _ = (c.eligible q).length := hcard
          _ = s.gate.eligibleOwners := ((closing_of_reach hr).marked hpos hu).symm
          _ = eligible := helig

/-- In every run in which every call is answered and nobody cancels, the last chunk counts as
many owners hit as eligible. -/
def FullCoverage (c : Config N Query Row) (q : Query) : Prop :=
  ∀ s, Reach (step c q) (fun _ a => AllAnswered a) (init N Row) s →
    ∀ hit eligible, s.finished = some (hit, eligible) → hit = eligible

/-- **A healthy run reports full coverage exactly if** the eligible owners are covered; one
whose eligible owners are all the gateway may also do so when they are not. -/
theorem coverage_iff (c : Config N Query Row) (q : Query) {hit eligible : ℕ}
    (h : Reach (step c q) (fun _ a => AllAnswered a) (init N Row) s)
    (hfin : s.finished = some (hit, eligible)) :
    (Covered c q → hit = eligible) ∧
      (hit = eligible → Covered c q ∨ ∀ o ∈ c.eligible q, o = c.gateway) := by
  refine ⟨fun hcov => announces_covered hcov h hit eligible (.inr (.inr hfin)), ?_⟩
  rintro rfl
  obtain ⟨hresp, hnodup⟩ := (closing_of_reach h).count hit (.inr (.inr hfin))
  rcases hnodup with hnodup | hall
  · refine .inl ⟨hnodup, fun o ho hg => ?_⟩
    obtain ⟨hpos, hs⟩ := (fate_of_reach hg h).responded (hresp o ho hg)
    exact ⟨((told_of_reach forwardsAnswered h).registered o hg hpos).2, hs⟩
  · exact .inr hall

theorem coverage_iff_served :
    ∃ s hit eligible, Reach (step (chainConfig 2 [1] fun o => o) ()) (fun _ a => AllAnswered a)
      (init ℕ ℕ) s ∧ s.finished = some (hit, eligible) ∧ hit = eligible := by
  have hrun : (run (step (chainConfig 2 [1] fun o => o) ()) (fun _ a => AllAnswered a)
      (init ℕ ℕ) served).map (fun s => s.finished) = some (some (1, 1)) := by decide +kernel
  obtain ⟨s, hs, hfin⟩ := Option.map_eq_some_iff.mp hrun
  have hreach := reach_of_run .init hs
  refine ⟨s, 1, 1, hreach, hfin, (coverage_iff _ () hreach hfin).1 ⟨by decide, fun o ho _ => ?_⟩⟩
  obtain rfl := List.mem_singleton.mp ho
  exact ⟨⟨1, by decide, 1, by decide, rfl⟩, by decide⟩

/-- **An owner without rows is not counted** as hit, though it is up and has answered. -/
theorem not_fullCoverage_refused : ¬ FullCoverage (chainConfig 2 [1] fun _ => 0) () := by
  intro h
  have hrun : (run (step (chainConfig 2 [1] fun _ => 0) ()) (fun _ a => AllAnswered a)
      (init ℕ ℕ) refused).map (fun s => s.finished) = some (some (0, 1)) := by decide +kernel
  obtain ⟨s, hs, hfin⟩ := Option.map_eq_some_iff.mp hrun
  have hzero := h s (reach_of_run .init hs) 0 1 hfin
  cases hzero

end Mini2.Coverage
