import Mini2.LaneFlow

/-!
No row of a lane is delivered twice, invented or moved, whatever is lost and whoever cancels,
as long as the owner does not register the request anew after it has begun to serve it.
-/

namespace Mini2.Lane

open Mini2.Proto Mini2.Net Mini2.Request Mini2.Producer Mini2.Gather Mini2.Pipe

variable {N Query Row : Type}

def served : PullStage N Row → Bool
  | .at _ => false
  | .replied code _ _ => code = .ok
  | _ => true

def View.Unserved (v : View N Row) : Prop := ∀ i stage, v.pull i = some stage → served stage = false

/-- A call is served from the last state made, of `gens` states. -/
def CallOnce (gens : ℕ) : PullStage N Row → Prop
  | .at _ => True
  | .found g => g + 1 = gens
  | .popped g _ => g + 1 = gens
  | .loaded g _ _ => g + 1 = gens
  | .decided g _ _ => g + 1 = gens
  | .dropping _ => 0 < gens
  | .replied code out _ => if code = .ok then 0 < gens else out = []

structure Once (sh : Shard Query Row) (q : Query) (v : View N Row) : Prop where
  entry : EntryOk sh q v.entry
  calls : ∀ i stage, v.pull i = some stage → CallOnce v.entry.gens stage
  once : ∀ g, g + 1 = v.entry.gens →
    AtMostOnce (sh.matchRows q) (made v.entry g) (v.entry.obj g).matched v.out
  before : v.Unserved → v.log = [] ∧ v.slot = []

variable {sh : Shard Query Row} {q : Query} {v : View N Row}

lemma Once.repliesOk (h : Once sh q v) : RepliesOk v := by
  intro i code out isLast hp hc
  have := h.calls i _ hp
  rwa [CallOnce, if_neg hc] at this

lemma Once.out_eq_nil (h : Once sh q v) (hu : v.Unserved) : v.out = [] := by
  obtain ⟨hlog, hslot⟩ := h.before hu
  have hrep : v.reply = [] := by
    cases ht : v.thread with
    | pulling i =>
      cases hp : v.pull i with
      | none => simp [View.reply, ht, hp]
      | some stage =>
        rw [reply_pulling ht hp]
        have hs := hu i stage hp
        cases stage with
        | «at» n => rfl
        | replied code out isLast =>
          have hc : code ≠ .ok := by simpa [served] using hs
          exact h.repliesOk i code out isLast hp hc
        | _ => cases hs
    | _ => exact reply_eq_nil (by simp [ht])
  rw [View.out, hlog, hslot, hrep]
  rfl

/-! ### One step -/

variable [DecidableEq N] {c : Config N Query Row} {o : N} {k : ℕ} {a : Act N} {v' : View N Row}

/-- The owner registers the request only while no call has been served. -/
def InTime (v : View N Row) (a : Act N) : Prop :=
  ∀ f, a = .forward f → v.entry.table = none → v.Unserved

omit [DecidableEq N] in
lemma CallOnce.mono {gens gens' : ℕ} {stage : PullStage N Row} (h : CallOnce gens stage)
    (hg : gens' = gens ∨ served stage = false) : CallOnce gens' stage := by
  rcases hg with rfl | hs
  · exact h
  · cases stage with
    | «at» n => trivial
    | replied code out isLast =>
      have hc : code ≠ .ok := by simpa [served] using hs
      simpa [CallOnce, hc] using h
    | _ => cases hs

lemma calls_step (h : Once (c.shard o) q v) (ht : InTime v a) (hst : LaneStep c q o k v a v') :
    ∀ i stage, v'.pull i = some stage → CallOnce v'.entry.gens stage := by
  have hdecided : ∀ {i g : ℕ} {out : List Row} {isLast : Bool},
      v.pull i = some (.decided g out isLast) → 0 < v.entry.gens := fun hp =>
    Nat.lt_of_lt_of_eq (Nat.succ_pos _) (h.calls _ _ hp)
  have hreplied : ∀ {out : List Row} {isLast : Bool}, 0 < v.entry.gens →
      CallOnce v.entry.gens (.replied .ok out isLast : PullStage N Row) := fun hg => by
    rwa [CallOnce, if_pos rfl]
  cases hst with
  | register =>
    intro i stage hp
    cases htab : v.entry.table with
    | some g =>
      have hsame : registerRequest (c.shard o) q 1 v.entry = v.entry := by
        simp [registerRequest, htab]
      rw [hsame]
      exact h.calls i stage hp
    | none => exact (h.calls i stage hp).mono (.inr (ht _ rfl htab i stage hp))
  | produce hs =>
    have hg := (prodStep_spec h.entry hs).2.gens
    exact fun i stage hp => (h.calls i stage hp).mono (.inl hg)
  | evict hr => exact fun i stage hp => (h.calls i stage hp).mono (.inl (removes_obj hr).1)
  | issue => exact forall_setPull h.calls trivial
  | relay => exact forall_setPull h.calls trivial
  | noRoute hp hh hn hc => exact forall_setPull h.calls (by simp [CallOnce, hc])
  | missing => exact forall_setPull h.calls (by simp [CallOnce])
  | found _ htable => exact forall_setPull h.calls (h.entry.table _ htable)
  | pop hp =>
    have hg := h.calls _ _ hp
    exact forall_setPull h.calls hg
  | load hp =>
    have hg := h.calls _ _ hp
    exact forall_setPull h.calls hg
  | decide hp =>
    have hg := h.calls _ _ hp
    exact forall_setPull h.calls hg
  | more hp => exact forall_setPull h.calls (hreplied (hdecided hp))
  | last hp => exact forall_setPull h.calls (hreplied (hdecided hp))
  | erase hp => exact forall_setPull h.calls (hdecided hp)
  | unschedule hp =>
    have hg := h.calls _ _ hp
    exact forall_setPull h.calls (hreplied hg)
  | _ => exact h.calls

omit [DecidableEq N] in
lemma unserved_of_setPull {i : ℕ} {stage : PullStage N Row} (hu : (v.setPull i stage).Unserved)
    (hi : ∀ st, v.pull i = some st → served st = false) : v.Unserved := by
  intro j st hj
  by_cases hij : j = i
  · exact hi st (hij ▸ hj)
  · exact hu j st (by rwa [setPull_pull_ne v hij])

lemma before_step (h : Once (c.shard o) q v) (hst : LaneStep c q o k v a v')
    (hu : v'.Unserved) : v'.log = [] ∧ v'.slot = [] := by
  -- a call that has been served stays so
  have hserved : ∀ {i : ℕ} {stage : PullStage N Row}, served stage = true →
      ¬ (v.setPull i stage).Unserved := fun hs hu => by
    have := hu _ _ (setPull_pull_self v _ _)
    rw [hs] at this
    cases this
  have hopen : ∀ {i : ℕ} {n : N}, v.pull i = some (.at n) →
      ∀ st, v.pull i = some st → served st = false := by
    intro i n hp st hst
    obtain rfl := Option.some.inj (hp.symm.trans hst)
    rfl
  cases hst with
  | wipe => exact ⟨(h.before hu).1, rfl⟩
  | issue _ _ _ hi => exact h.before (unserved_of_setPull hu (by simp [hi]))
  | relay hp => exact h.before (unserved_of_setPull hu (hopen hp))
  | noRoute hp => exact h.before (unserved_of_setPull hu (hopen hp))
  | missing hp => exact h.before (unserved_of_setPull hu (hopen hp))
  | found hp => exact absurd hu (hserved rfl)
  | pop hp => exact absurd hu (hserved rfl)
  | load hp => exact absurd hu (hserved rfl)
  | decide hp => exact absurd hu (hserved rfl)
  | more hp => exact absurd hu (hserved (by simp [served]))
  | last hp => exact absurd hu (hserved (by simp [served]))
  | erase hp => exact absurd hu (hserved rfl)
  | unschedule hp => exact absurd hu (hserved (by simp [served]))
  | receive ht hp =>
    have := hu _ _ hp
    cases this
  | drain hs =>
    obtain ⟨hlog, hslot⟩ := h.before hu
    rw [hs, List.append_eq_nil_iff] at hslot
    simp [hlog, hslot.1, hslot.2]
  | _ => exact h.before hu

omit [DecidableEq N] in
lemma once_flow (h : Once sh q v) (ht : InTime v a) (hf : Flow sh q k v a v') :
    ∀ g, g + 1 = v'.entry.gens →
      AtMostOnce (sh.matchRows q) (made v'.entry g) (v'.entry.obj g).matched v'.out := by
  intro g hg
  cases hf with
  | same he ho =>
    rw [he] at hg ⊢
    rw [ho]
    exact h.once g hg
  | register ha he ho =>
    rw [he] at hg ⊢
    rw [ho]
    cases hm : v.entry.table with
    | some g' =>
      have hsame : registerRequest sh q 1 v.entry = v.entry := by simp [registerRequest, hm]
      rw [hsame] at hg ⊢
      exact h.once g hg
    | none =>
      obtain ⟨hgens, hmade, hbuf⟩ := register_new h.entry (w := 1) hm
      obtain rfl : g = v.entry.gens := by omega
      rw [hmade, hbuf, h.out_eq_nil (ht _ ha hm)]
      exact .start
  | produce hok he ho =>
    rw [ho]
    have hlt : g < v.entry.gens := by
      have := he.gens
      omega
    rw [he.gens] at hg
    rcases he.made g hlt with ⟨hm, hb⟩ | ⟨r, hr, hm, hb, -⟩
    · rw [hm, hb]
      exact h.once g hg
    · rw [hm, hb]
      exact (h.once g hg).make hr
  | flag he ho =>
    rw [he] at hg ⊢
    rw [ho, made_flag, flag_matched]
    exact h.once g hg
  | clear ha he ho =>
    rw [he] at hg ⊢
    rw [ho, made_clear]
    exact (h.once g hg).lose (clear_matched_sublist _ g) (List.Sublist.refl _)
  | drop he ho =>
    obtain ⟨hgens, hobj, hmade⟩ := removes_obj he
    rw [hgens] at hg
    rw [hmade, hobj, ho]
    exact h.once g hg
  | lose ha he ho =>
    rw [he] at hg ⊢
    exact (h.once g hg).lose (List.Sublist.refl _) ho
  | @take i g' n hp he ho =>
    rw [he] at hg ⊢
    -- the call is served from the last state made
    obtain rfl : g' = g := by
      have : g' + 1 = v.entry.gens := h.calls i _ hp
      have hg : g + 1 = v.entry.gens := hg
      omega
    rw [ho, pop_matched, if_pos rfl, made_pop]
    exact (h.once g' hg).take n
  | @waste i g' n ha hp he ho =>
    rw [he] at hg ⊢
    rw [ho, pop_matched, made_pop]
    refine (h.once g hg).lose ?_ (List.Sublist.refl _)
    split
    next hgg =>
      subst hgg
      exact List.drop_sublist n _
    next => exact List.Sublist.refl _

lemma once_step (h : Once (c.shard o) q v) (ht : InTime v a) (hst : LaneStep c q o k v a v') :
    Once (c.shard o) q v' where
  entry := entry_step h.entry hst
  calls := calls_step h ht hst
  once := once_flow h ht (flow_of_step h.entry h.repliesOk hst)
  before := before_step h hst

omit [DecidableEq N] in
lemma Once.log_eq_nil (h : Once sh q v) (hg : v.entry.gens = 0) : v.log = [] := by
  refine (h.before fun i stage hp => ?_).1
  have hcall := h.calls i stage hp
  rw [hg] at hcall
  cases stage with
  | «at» n => rfl
  | replied code out isLast =>
    by_cases hc : code = .ok
    · rw [CallOnce, if_pos hc] at hcall
      exact absurd hcall (Nat.lt_irrefl 0)
    · simp [served, hc]
  | _ => cases hcall

omit [DecidableEq N] in
lemma View.log_prefix_out (v : View N Row) : v.log <+: v.out := by
  rw [View.out, List.append_assoc]
  exact List.prefix_append _ _

omit [DecidableEq N] in
/-- What the client has got is in the order of the owner's rows, and each row at most once. -/
theorem Once.log_sublist (h : Once sh q v) : v.log.Sublist (sh.matchRows q) := by
  cases hg : v.entry.gens with
  | zero =>
    rw [h.log_eq_nil hg]
    exact List.nil_sublist _
  | succ g => exact v.log_prefix_out.sublist.trans (h.once g hg.symm).out_sublist

/-! ### The system -/

open Mini2.GatherSteps Mini2.GatherShape

def arrived (p : ForwardCall N) : Bool :=
  match p.stage with
  | .at n ttl => n = p.owner ∧ 0 < ttl
  | .answered _ => false

/-- An owner registers the request for a `ForwardQuery` only while it has served no
`PullChunk`. -/
def Timely (s : Sys N Row) : Act N → Prop
  | .forward f => ∀ p ∈ s.fwd[f]?, arrived p = true → (s.node p.owner).table = none →
      ∀ p' ∈ s.pull, p'.owner = p.owner → served p'.stage = false
  | _ => True

instance (s : Sys N Row) (a : Act N) : Decidable (Timely s a) :=
  match a with
  | .forward f => inferInstanceAs (Decidable (∀ p ∈ s.fwd[f]?, arrived p = true →
      (s.node p.owner).table = none → ∀ p' ∈ s.pull, p'.owner = p.owner →
        served p'.stage = false))
  | .submit _ | .produce _ _ | .prefetch _ _ | .pull _ _ | .fetch _ | .cancelQuery
  | .cancel _ _ => .isTrue trivial

variable {s s' : Sys N Row}

lemma unserved_lane (h : ∀ p ∈ s.pull, p.owner = o → served p.stage = false) :
    (lane o k s).Unserved := by
  intro i stage hi
  obtain ⟨p, hp, hst⟩ := Option.bind_eq_some_iff.mp hi
  split at hst
  next ho =>
    obtain rfl := Option.some.inj hst
    exact h p (List.mem_of_getElem? hp) ho
  next => cases hst

lemma lane_step_inTime (hl : IsLane c q o k) (hsh : Shape c q s) (ht : Timely s a)
    (hst : Steps c q s a s') : lane o k s' = lane o k s ∨
      LaneStep c q o k (lane o k s) a (lane o k s') ∧ InTime (lane o k s) a := by
  cases hst with
  | @forward f s' hf =>
    cases hf with
    | @register o' r ttl h httl =>
      by_cases ho : o' = o
      · subst ho
        refine (lane_step hl hsh (.forward (.register h httl))).imp_right fun hls => ⟨hls, ?_⟩
        exact fun f' hf' htab => unserved_lane (ht _ h (by simp [arrived, httl]) htab)
      · exact .inl (lane_setNode_ne o k s ho _)
    | _ => exact .inl rfl
  | submit h => exact (lane_step hl hsh (.submit h)).imp_right fun hls => ⟨hls, by simp [InTime]⟩
  | produce h => exact (lane_step hl hsh (.produce h)).imp_right fun hls => ⟨hls, by simp [InTime]⟩
  | prefetch h =>
    exact (lane_step hl hsh (.prefetch h)).imp_right fun hls => ⟨hls, by simp [InTime]⟩
  | pull h => exact (lane_step hl hsh (.pull h)).imp_right fun hls => ⟨hls, by simp [InTime]⟩
  | fetch h => exact (lane_step hl hsh (.fetch h)).imp_right fun hls => ⟨hls, by simp [InTime]⟩
  | cancelQuery => exact .inl rfl
  | cancel h => exact (lane_step hl hsh (.cancel h)).imp_right fun hls => ⟨hls, by simp [InTime]⟩

omit [DecidableEq N] in
lemma once_init (sh : Shard Query Row) (q : Query) : Once sh q
    (⟨Entry.empty, .absent, fun _ => none, [], false, false, False, []⟩ : View N Row) where
  entry := entryOk_empty
  calls i stage h := by cases h
  once g h := by cases h
  before _ := ⟨rfl, rfl⟩

/-- **Every lane of a run keeps its rows at most once.** -/
theorem once_of_reach {G : Sys N Row → Act N → Prop} (hl : IsLane c q o k)
    (hG : ∀ s a, Runs.Reach (step c q) G (init N Row) s → G s a → Timely s a)
    (h : Runs.Reach (step c q) G (init N Row) s) : Once (c.shard o) q (lane o k s) := by
  refine h.refine (lane o k)
    (fun v a v' => LaneStep c q o k v a v' ∧ InTime v a) ?_ ?_ fun v a v' hv ⟨hst, ht⟩ =>
      once_step hv ht hst
  · rw [lane_init]
    exact once_init _ q
  · intro s a s' hr hg hst
    refine (lane_step_inTime hl (shape_of_reach hr) (hG s a hr hg) (steps_of_step hst)).imp_right ?_
    exact fun h => ⟨a, h⟩

end Mini2.Lane
