import Mini2.Traces

/-!
The prefetchers of a request are threads whose handles lie in its `RequestState`, in
`prefetch_threads`. `drop_request` joins those that are there when it has taken the request off
the table. `SubmitQuery` may come to its own spawns only afterwards, and what it spawns then is
joined by nobody.
-/

namespace Mini2.Joins

open Mini2.Proto Mini2.Net Mini2.Request Mini2.Producer Mini2.Gather Mini2.GatherSteps
open Mini2.GatherShape Mini2.Runs Mini2.Traces

variable {N Query Row : Type} [DecidableEq N]

/-- A request with any number of `FetchChunk` calls under way, and the prefetchers in
`prefetch_threads`. -/
structure Pool (N Row : Type) where
  sys : Sys N Row
  fetch : List FetchPc
  handles : List ℕ

inductive PoolAct (N : Type)
  | act (a : Act N)
  | fetchChunk
  | fetch (i : ℕ) (a : FetchAct)

def poolInit (N Row : Type) : Pool N Row := ⟨init N Row, [], []⟩

/-- The prefetcher that `SubmitQuery` spawns with its next step. -/
def spawns (c : Config N Query Row) (q : Query) (s : Sys N Row) : Option ℕ :=
  match s.submit with
  | .spawning k => ((c.eligible q)[k]?).bind fun o =>
      if o = c.gateway ∨ s.gate.clientProducersDone o = true then none else some k
  | _ => none

/-- `prefetch_threads` after an action: a spawn adds its thread, and a join clears it. -/
def handlesAfter (c : Config N Query Row) (q : Query) (x : Pool N Row) : Act N → List ℕ
  | .submit .spawn => x.handles ++ (spawns c q x.sys).toList
  | .cancel _ .finish => []
  | _ => x.handles

/-- Each `FetchChunk` goes its way as the only one does; the others see what it shares. -/
def poolStep (c : Config N Query Row) (q : Query) (x : Pool N Row) :
    PoolAct N → Option (Pool N Row)
  | .act (.fetch _) => none
  | .act a => (step c q x.sys a).map fun s => ⟨s, x.fetch, handlesAfter c q x a⟩
  | .fetchChunk => some { x with fetch := x.fetch ++ [.idle] }
  | .fetch i a => (x.fetch[i]?).bind fun pc =>
      (fetchStep c q { x.sys with fetch := pc } a).map fun s =>
        ⟨{ s with fetch := .idle }, x.fetch.set i s.fetch,
          if a = .finish then [] else x.handles⟩

def refers : CancelStage → Bool
  | .start | .done _ | .failed => false
  | _ => true

def works : Producer → Bool
  | .idle | .picked => false
  | _ => true

/-- Neither the table nor a handler nor a thread refers to the gateway's `RequestState`. -/
def Released (c : Config N Query Row) (q : Query) (x : Pool N Row) : Prop :=
  (x.sys.node c.gateway).table = none ∧
  (x.sys.submit = .returned ∨ x.sys.submit = .failed) ∧
  (∀ pc ∈ x.fetch, pc = .idle) ∧
  (∀ p ∈ x.sys.cancel, p.node = c.gateway → refers p.stage = false) ∧
  x.sys.joined c q ∧
  works (x.sys.node c.gateway).producer = false

instance (c : Config N Query Row) (q : Query) (x : Pool N Row) : Decidable (Released c q x) :=
  inferInstanceAs (Decidable (_ ∧ _ ∧ _ ∧ _ ∧ _ ∧ _))

/-- Every prefetcher has been joined when the last reference to its `RequestState` is gone. -/
def PrefetchersJoined (c : Config N Query Row) (q : Query)
    (G : Pool N Row → PoolAct N → Prop) : Prop :=
  c.overlay.impl c.gateway = .cpp → ∀ x, Reach (poolStep c q) G (poolInit N Row) x →
    Released c q x → x.handles = []

/-- `SubmitQuery` spawns a prefetcher only while the request is in the gateway's table. -/
def InTime (c : Config N Query Row) (q : Query) (x : Pool N Row) : PoolAct N → Prop
  | .act (.submit .spawn) => spawns c q x.sys ≠ none → (x.sys.node c.gateway).table ≠ none
  | _ => True

instance (c : Config N Query Row) (q : Query) (x : Pool N Row) (a : PoolAct N) :
    Decidable (InTime c q x a) :=
  match a with
  | .act (.submit .spawn) => inferInstanceAs (Decidable (_ → _))
  | .act (.submit .register) | .act (.submit .mark) | .act (.submit .next)
  | .act (.submit .answered) | .act (.submit (.failed _)) | .act (.submit .relayFailed)
  | .act (.forward _) | .act (.produce _ _) | .act (.prefetch _ _) | .act (.pull _ _)
  | .act (.fetch _) | .act .cancelQuery | .act (.cancel _ _) | .fetchChunk
  | .fetch _ _ => .isTrue trivial

variable {c : Config N Query Row} {q : Query} {s s' : Sys N Row} {x x' : Pool N Row}

/-! ### Who is to join -/

/-- A `CancelQuery` of the gateway is joining. -/
def CancelJoins (c : Config N Query Row) (s : Sys N Row) : Prop :=
  (⟨c.gateway, .joining⟩ : CancelCall N) ∈ s.cancel

def FetchJoins (x : Pool N Row) : Prop := ∃ hit eligible, FetchPc.joining hit eligible ∈ x.fetch

/-- Prefetchers are there while the request is in the table, or while somebody joins them. -/
structure Guarded (c : Config N Query Row) (q : Query) (x : Pool N Row) : Prop where
  threads : Threads c q x.sys
  entries : EntriesOk c q x.sys
  handles : x.handles ≠ [] →
    (x.sys.node c.gateway).table ≠ none ∨ FetchJoins x ∨ CancelJoins c x.sys

omit [DecidableEq N] in
lemma guarded_init : Guarded c q (poolInit N Row) :=
  ⟨threads_init, fun _ => entryOk_empty, fun h => absurd rfl h⟩

lemma cancelJoins_cancel {j : ℕ} {act : CancelAct} (hst : Cancels c q s j act s')
    (hact : act ≠ .finish) (h : CancelJoins c s) : CancelJoins c s' := by
  obtain ⟨n, stage, stage', new, hj, hset, -⟩ := cancels_set hst
  have hstage : stage ≠ .joining := by
    rintro rfl
    cases hst with
    | finish => exact hact rfl
    | _ h' => cases h'.symm.trans hj
  obtain ⟨i, hi⟩ := List.getElem?_of_mem h
  have hij : j ≠ i := by
    rintro rfl
    have heq := congrArg CancelCall.stage (Option.some.inj (hj.symm.trans hi))
    exact hstage heq
  have hi' : (s.cancel.set j ⟨n, stage'⟩)[i]? = some ⟨c.gateway, .joining⟩ := by
    rw [List.getElem?_set_ne hij, hi]
  rw [CancelJoins, hset]
  exact List.mem_append_left new (List.mem_of_getElem? hi')

/-- A `CancelQuery` that takes the request off the gateway's table joins next. -/
lemma table_cancel {j : ℕ} {act : CancelAct} (hcpp : c.overlay.impl c.gateway = .cpp)
    (hst : cancelStep c q s j act = some s') (ht : (s.node c.gateway).table ≠ none) :
    (s'.node c.gateway).table ≠ none ∨ CancelJoins c s' := by
  have hkeep : ∀ {n : N} {e : Entry Row}, (n = c.gateway → e.table = (s.node n).table) →
      ((s.setNode n e).node c.gateway).table ≠ none := by
    intro n e he
    by_cases hn : c.gateway = n
    · subst hn
      rw [setNode_self, he rfl]
      exact ht
    · rwa [setNode_ne s hn]
  have hlt : ∀ {p : CancelCall N}, s.cancel[j]? = some p → j < s.cancel.length :=
    fun hp => (List.getElem?_eq_some_iff.mp hp).1
  have hcases := cancels_of_step hst
  cases hcases with
  | flag => split <;> exact .inl (hkeep fun _ => rfl)
  | clear => split <;> exact .inl (hkeep fun _ => rfl)
  | @dropJoin n hj =>
    by_cases hn : n = c.gateway
    · subst hn
      exact .inr (List.mem_set (hlt hj) _)
    · exact .inl (hkeep fun h => absurd h hn)
  | @drop n hj _ hnone =>
    refine .inl (hkeep fun hn => ?_)
    subst hn
    exact absurd (hnone rfl) ht
  | @erase n hj =>
    refine .inl (hkeep fun hn => ?_)
    subst hn
    -- a C++ node drops the request in one step
    simp only [cancelStep, hj, hcpp] at hst
    split at hst
    next hjoin =>
      have heq := congrArg (fun t => t.cancel[j]?) (Option.some.inj hst)
      simp [Sys.setCancel, Sys.stopPrefetch, Sys.setNode, hlt hj] at heq
    next hjoin => exact absurd ⟨trivial, Option.isSome_iff_ne_none.mpr ht⟩ hjoin
  | unschedule => exact .inl (hkeep fun _ => rfl)
  | _ => exact .inl ht

/-- A `FetchChunk` that takes the request off the gateway's table joins next. -/
lemma table_fetch {act : FetchAct} (hst : fetchStep c q s act = some s')
    (ht : (s.node c.gateway).table ≠ none) : (s'.node c.gateway).table ≠ none ∨
      ∃ hit eligible, s'.fetch = .joining hit eligible := by
  have hcases := fetches_of_step hst
  cases hcases with
  | drain => exact .inl (by simpa [drainStep, Entry.setObj, Sys.setNode] using ht)
  | @erase hit eligible => exact .inr ⟨hit, eligible, rfl⟩
  | @erased hit eligible hf =>
    simp only [fetchStep, hf] at hst
    rw [if_pos (Option.isSome_iff_ne_none.mpr ht)] at hst
    have heq := congrArg Sys.fetch (Option.some.inj hst)
    cases heq
  | _ => exact .inl ht

lemma table_other {a : Act N} (hst : Steps c q s a s') (hth : Threads c q s)
    (hok : EntriesOk c q s) (hf : ∀ act, a ≠ .fetch act)
    (hc : ∀ j act, a ≠ .cancel j act) (ht : (s.node c.gateway).table ≠ none) :
    (s'.node c.gateway).table ≠ none := by
  cases hst with
  | submit hst =>
    cases hst with
    | register =>
      show ((s.setNode c.gateway _).node c.gateway).table ≠ none
      rw [setNode_self]
      exact registerRequest_table _ _ _ _
    | _ => exact ht
  | forward hst =>
    cases hst with
    | register hp =>
      have hne := (hth.fwd _ (List.mem_of_getElem? hp)).2
      show ((s.setNode _ _).node c.gateway).table ≠ none
      rwa [setNode_ne s hne.symm]
    | _ => exact ht
  | @produce n act e' hst =>
    by_cases hn : c.gateway = n
    · subst hn
      rw [setNode_self, (prodStep_spec (hok c.gateway) hst).2.table]
      exact ht
    · rwa [setNode_ne s hn]
  | prefetch hst => cases hst <;> exact ht
  | pull hst =>
    have hne : ∀ {i : ℕ} {p : PullCall N Row}, s.pull[i]? = some p → c.gateway ≠ p.owner :=
      fun hp => (hth.pull _ (List.mem_of_getElem? hp)).2.symm
    cases hst with
    | pop hp | last hp | erase hp | unschedule hp =>
      show ((s.setNode _ _).node c.gateway).table ≠ none
      rwa [setNode_ne s (hne hp)]
    | _ => exact ht
  | fetch => exact absurd rfl (hf _)
  | cancelQuery => exact ht
  | cancel => exact absurd rfl (hc _ _)

/-! ### The step -/

/-- `FetchChunk` leaves the calls of `CancelQuery` alone, and only its last step is a join. -/
lemma fetch_frame {act : FetchAct} (hst : fetchStep c q s act = some s') (hact : act ≠ .finish) :
    s'.cancel = s.cancel ∧ ∀ hit eligible, s.fetch ≠ .joining hit eligible := by
  have hcases := fetches_of_step hst
  cases hcases with
  | finish => exact absurd rfl hact
  | start h | drain _ h | count h | erase h | erased h => exact ⟨rfl, by simp [h]⟩

lemma guarded_fetch {i : ℕ} {act : FetchAct} {pc : FetchPc} (h : Guarded c q x)
    (hi : x.fetch[i]? = some pc) (hst : fetchStep c q { x.sys with fetch := pc } act = some s) :
    Guarded c q ⟨{ s with fetch := .idle }, x.fetch.set i s.fetch,
      if act = .finish then [] else x.handles⟩ := by
  have hcases : Steps c q { x.sys with fetch := pc } (.fetch act) s := .fetch (fetches_of_step hst)
  have hthreads : Threads c q s := threads_step hcases (h.threads.setFetch pc)
  have hentries : EntriesOk c q s := entriesOk_step hcases h.entries
  refine ⟨hthreads.setFetch .idle, hentries, fun hne => ?_⟩
  have hact : act ≠ .finish := by
    rintro rfl
    exact hne rfl
  rw [if_neg hact] at hne
  obtain ⟨hcancel, hnot⟩ := fetch_frame hst hact
  rcases h.handles hne with ht | ⟨hit, eligible, hj⟩ | hj
  · rcases table_fetch hst ht with ht' | ⟨hit, eligible, hj⟩
    · exact .inl ht'
    · have hlt := (List.getElem?_eq_some_iff.mp hi).1
      exact .inr (.inl ⟨hit, eligible, hj ▸ List.mem_set hlt _⟩)
  · -- the call that joins is another one
    obtain ⟨i', hi'⟩ := List.getElem?_of_mem hj
    have hii : i ≠ i' := by
      rintro rfl
      exact hnot hit eligible (Option.some.inj (hi.symm.trans hi'))
    have hkeep : (x.fetch.set i s.fetch)[i']? = some (.joining hit eligible) := by
      rw [List.getElem?_set_ne hii, hi']
    exact .inr (.inl ⟨hit, eligible, List.mem_of_getElem? hkeep⟩)
  · refine .inr (.inr ?_)
    rw [CancelJoins, hcancel]
    exact hj

lemma guarded_act {a : Act N} (hcpp : c.overlay.impl c.gateway = .cpp) (h : Guarded c q x)
    (hg : InTime c q x (.act a)) (hf : ∀ act, a ≠ .fetch act)
    (hst : step c q x.sys a = some s) : Guarded c q ⟨s, x.fetch, handlesAfter c q x a⟩ := by
  have hcases := steps_of_step hst
  refine ⟨threads_step hcases h.threads, entriesOk_step hcases h.entries, fun hne => ?_⟩
  by_cases hc : ∃ j act, a = .cancel j act
  · obtain ⟨j, act, rfl⟩ := hc
    have hact : act ≠ .finish := by
      rintro rfl
      exact hne rfl
    have hne' : x.handles ≠ [] := by
      cases act with
      | finish => exact absurd rfl hact
      | _ => exact hne
    rcases h.handles hne' with ht | hj | hj
    · exact (table_cancel hcpp hst ht).imp_right .inr
    · exact .inr (.inl hj)
    · exact .inr (.inr (cancelJoins_cancel (cancels_of_step hst) hact hj))
  · have hc' : ∀ j act, a ≠ .cancel j act := fun j act heq => hc ⟨j, act, heq⟩
    have hcancel : CancelJoins c x.sys → CancelJoins c s := by
      intro hj
      by_cases ha : a = .cancelQuery
      · subst ha
        cases hcases
        exact List.mem_append_left _ hj
      · rw [CancelJoins, cancel_eq hcases ha hc']
        exact hj
    have hbefore : (x.sys.node c.gateway).table ≠ none ∨ FetchJoins x ∨ CancelJoins c x.sys := by
      by_cases hnew : x.handles = []
      · -- the first thread that is there has just been spawned
        cases a with
        | submit act =>
          cases act with
          | spawn =>
            refine .inl (hg fun hnone => hne ?_)
            simp [handlesAfter, hnew, hnone]
          | _ => exact absurd hnew hne
        | cancel j act => exact absurd rfl (hc' j act)
        | _ => exact absurd hnew hne
      · exact h.handles hnew
    rcases hbefore with ht | hj | hj
    · exact .inl (table_other hcases h.threads h.entries hf hc' ht)
    · exact .inr (.inl hj)
    · exact .inr (.inr (hcancel hj))

lemma poolStep_act {a : Act N} (hf : ∀ act, a ≠ .fetch act) : poolStep c q x (.act a) =
    (step c q x.sys a).map fun s => ⟨s, x.fetch, handlesAfter c q x a⟩ := by
  cases a with
  | fetch act => exact absurd rfl (hf act)
  | _ => rfl

lemma guarded_step {a : PoolAct N} (hcpp : c.overlay.impl c.gateway = .cpp) (h : Guarded c q x)
    (hg : InTime c q x a) (hst : poolStep c q x a = some x') : Guarded c q x' := by
  cases a with
  | fetchChunk =>
    obtain rfl := Option.some.inj hst
    refine ⟨h.threads, h.entries, fun hne => ?_⟩
    rcases h.handles hne with ht | ⟨hit, eligible, hj⟩ | hj
    · exact .inl ht
    · exact .inr (.inl ⟨hit, eligible, List.mem_append_left _ hj⟩)
    · exact .inr (.inr hj)
  | fetch i act =>
    obtain ⟨pc, hi, hst⟩ := Option.bind_eq_some_iff.mp hst
    obtain ⟨s, hs, rfl⟩ := Option.map_eq_some_iff.mp hst
    exact guarded_fetch h hi hs
  | act a =>
    have hf : ∀ act, a ≠ .fetch act := by
      rintro act rfl
      cases hst
    rw [poolStep_act hf] at hst
    obtain ⟨s, hs, rfl⟩ := Option.map_eq_some_iff.mp hst
    exact guarded_act hcpp h hg hf hs

/-- **Every prefetcher is joined** in every run in which `SubmitQuery` spawns it while the
request is in the table. -/
theorem prefetchersJoined (c : Config N Query Row) (q : Query) :
    PrefetchersJoined c q (InTime c q) := by
  intro hcpp x hx hrel
  have hguard : Guarded c q x :=
    hx.invariant guarded_init fun _ _ _ _ hi hg hst => guarded_step hcpp hi hg hst
  obtain ⟨ht, -, hfetch, hcancel, -, -⟩ := hrel
  by_contra hne
  rcases hguard.handles hne with h | ⟨hit, eligible, hj⟩ | hj
  · exact h ht
  · have hidle := hfetch _ hj
    cases hidle
  · have hdone := hcancel _ hj rfl
    cases hdone

/-- An action of a run with one `FetchChunk` after the other. -/
def poolAct : Act ℕ → PoolAct ℕ
  | .fetch a => .fetch 0 a
  | a => .act a

theorem prefetchersJoined_served :
    ∃ x, Reach (poolStep (chainConfig 2 [1] fun o => o) ())
      (InTime (chainConfig 2 [1] fun o => o) ()) (poolInit ℕ ℕ) x ∧
      x.sys.finished = some (1, 1) ∧ x.handles = [] := by
  have hrun : (run (poolStep (chainConfig 2 [1] fun o => o) ())
      (InTime (chainConfig 2 [1] fun o => o) ()) (poolInit ℕ ℕ)
      (.fetchChunk :: served.map poolAct)).map (fun x =>
        (decide (Released (chainConfig 2 [1] fun o => o) () x), x.sys.finished)) =
      some (true, some (1, 1)) := by decide +kernel
  obtain ⟨x, hx, heq⟩ := Option.map_eq_some_iff.mp hrun
  obtain ⟨hrel, hfin⟩ := Prod.mk.inj heq
  have hreach := reach_of_run .init hx
  exact ⟨x, hreach, hfin, prefetchersJoined _ () rfl x hreach (of_decide_eq_true hrel)⟩

/-! ### A late spawn -/

/-- The client cancels while `SubmitQuery` is between its two loops. -/
def cancelledEarly : List (PoolAct ℕ) :=
  [.submit .register, .submit .mark, .submit .next, .forward 0, .submit .answered, .cancelQuery,
    .cancel 0 .find, .cancel 0 .flag, .cancel 0 .clear, .cancel 0 .send, .cancel 1 .find,
    .cancel 1 .flag, .cancel 1 .clear, .cancel 1 .erase, .cancel 0 .resume, .cancel 0 .send,
    .cancel 0 .erase, .cancel 0 .finish, .submit .next, .submit .spawn, .submit .spawn,
    .prefetch 0 .start, .prefetch 0 .issue].map PoolAct.act

/-- **A prefetcher that is spawned after a cancel** is destroyed without being joined. -/
theorem not_prefetchersJoined_cancelledEarly :
    ¬ PrefetchersJoined (chainConfig 2 [1] fun _ => 1) () fun _ _ => True := by
  intro h
  have hrun : (run (poolStep (chainConfig 2 [1] fun _ => 1) ()) (fun _ _ => True)
      (poolInit ℕ ℕ) cancelledEarly).map (fun x =>
        (decide (Released (chainConfig 2 [1] fun _ => 1) () x), x.handles)) =
      some (true, [0]) := by decide +kernel
  obtain ⟨x, hx, heq⟩ := Option.map_eq_some_iff.mp hrun
  obtain ⟨hrel, hhandles⟩ := Prod.mk.inj heq
  have hnil := h rfl x (reach_of_run .init hx) (of_decide_eq_true hrel)
  rw [hhandles] at hnil
  cases hnil

end Mini2.Joins
