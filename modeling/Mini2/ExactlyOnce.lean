import Mini2.Cluster
import Mini2.Delivery

/-!
Exactly-once gather: when every call is answered, the client gets every matching row of every
owner once, at any time the beginning of what each owner has listed, whatever the order in
which the threads of all requests run.
-/

namespace Mini2.ExactlyOnce

open Mini2.Proto Mini2.Store Mini2.Net Mini2.Request Mini2.Producer Mini2.Gather
open Mini2.GatherSteps Mini2.GatherShape Mini2.RoundRobin Mini2.Runs Mini2.Pipe Mini2.Lane
open Mini2.SelfLane Mini2.Finish Mini2.Forwarded Mini2.Delivery Mini2.Cluster

variable {N Query Row : Type}

/-- No call fails, and nobody cancels. -/
def AllAnswered : Act N → Prop
  | .submit (.failed _) => False
  | .submit .relayFailed => False
  | .prefetch _ (.failed _) => False
  | .cancelQuery => False
  | .cancel _ .giveUp => False
  | _ => True

instance (a : Act N) : Decidable (AllAnswered a) :=
  match a with
  | .submit (.failed _) | .submit .relayFailed | .prefetch _ (.failed _) | .cancelQuery
  | .cancel _ .giveUp => .isFalse id
  | .submit .register | .submit .mark | .submit .next | .submit .answered | .submit .spawn
  | .prefetch _ .start | .prefetch _ .issue | .prefetch _ .receive | .forward _
  | .produce _ _ | .pull _ _ | .fetch _ | .cancel _ .find | .cancel _ .flag | .cancel _ .clear
  | .cancel _ .send | .cancel _ .resume | .cancel _ .erase | .cancel _ .unschedule
  | .cancel _ .finish => .isTrue trivial

lemma AllAnswered.forwardsAnswered {a : Act N} (h : AllAnswered a) : ForwardsAnswered a := by
  unfold ForwardsAnswered
  split
  · exact h
  · exact h
  · trivial

/-! ### Every call is awaited until it is answered -/

variable {c : Config N Query Row} {q : Query} {s s' : Sys N Row} {a : Act N}
  {G : Sys N Row → Act N → Prop}

/-- The call has been answered, or a prefetcher waits for it. -/
def Awaited (c : Config N Query Row) (q : Query) (thread : ℕ → ThreadPc) (i : ℕ)
    (stage : PullStage N Row) : Prop :=
  (∃ code out isLast, stage = .replied code out isLast) ∨
    ∃ k < (c.eligible q).length, thread k = .pulling i

def CallsAwaited (c : Config N Query Row) (q : Query) (s : Sys N Row) : Prop :=
  ∀ i p, s.pull[i]? = some p → Awaited c q s.thread i p.stage

/-- A prefetcher that has waited for no call, or for one that is answered, moves on. -/
lemma Awaited.update {thread : ℕ → ThreadPc} {i k : ℕ} {stage : PullStage N Row} {pc : ThreadPc}
    (h : Awaited c q thread i stage)
    (hk : thread k = .pulling i → ∃ code out isLast, stage = .replied code out isLast) :
    Awaited c q (Function.update thread k pc) i stage := by
  rcases h with h | ⟨k', hlt, ht⟩
  · exact .inl h
  · by_cases hkk : k' = k
    · exact .inl (hk (hkk ▸ ht))
    · exact .inr ⟨k', hlt, by rwa [Function.update_of_ne hkk]⟩

variable [DecidableEq N]

lemma callsAwaited_prefetch {k : ℕ} {act : PrefetchAct} (ha : ∀ code, act ≠ .failed code)
    (hst : Prefetches c q s k act s') (h : CallsAwaited c q s) : CallsAwaited c q s' := by
  -- the prefetcher waits for no call
  have hidle : ∀ {pc pc' : ThreadPc}, s.thread k = pc → (∀ i, pc ≠ .pulling i) → ∀ i p,
      s.pull[i]? = some p → Awaited c q (Function.update s.thread k pc') i p.stage := by
    intro pc pc' ht hpc i p hp
    exact (h i p hp).update fun hk => absurd (ht.symm.trans hk) (hpc i)
  -- it waits for an answered call
  have hdone : ∀ {j : ℕ} {o : N} {code out isLast} {pc' : ThreadPc}, s.thread k = .pulling j →
      s.pull[j]? = some ⟨o, .replied code out isLast⟩ → ∀ i p,
      s.pull[i]? = some p → Awaited c q (Function.update s.thread k pc') i p.stage := by
    intro j o code out isLast pc' ht hj i p hp
    refine (h i p hp).update fun hk => ?_
    obtain rfl : j = i := ThreadPc.pulling.inj (ht.symm.trans hk)
    obtain rfl := Option.some.inj (hj.symm.trans hp)
    exact ⟨code, out, isLast, rfl⟩
  cases hst with
  | start _ ht => exact hidle ht (by simp)
  | noHop _ ht => exact hidle ht (by simp)
  | stop _ ht => exact hidle ht (by simp)
  | receive _ ht hp => exact hdone ht hp
  | expired _ ht hp => exact hdone ht hp
  | refused _ ht hp => exact hdone ht hp
  | timeout => exact absurd rfl (ha _)
  | failed => exact absurd rfl (ha _)
  | @issue o hop hk ht =>
    intro i p hp
    rw [show (_ : List (PullCall N Row))[i]? = _ from getElem?_snoc s.pull _ i] at hp
    split at hp
    next hi =>
      exact .inr ⟨k, (List.getElem?_eq_some_iff.mp hk).1, by simp [Sys.setThread, hi]⟩
    next => exact hidle ht (by simp) i p hp

lemma callsAwaited_pull {i : ℕ} {act : PullAct} (hst : Pulls c s i act s')
    (h : CallsAwaited c q s) : CallsAwaited c q s' := by
  obtain ⟨o, stage, stage', hi, hs, hset⟩ := pulls_set hst
  have hthread : s'.thread = s.thread := by rw [pulls_frame hst]
  intro j p hp
  rw [hthread]
  rw [hset] at hp
  by_cases hij : i = j
  · subst hij
    refine .inr ((h i _ hi).resolve_left ?_)
    rintro ⟨code, out, isLast, hst⟩
    exact hs _ _ _ hst
  · rw [List.getElem?_set_ne hij] at hp
    exact h j p hp

lemma callsAwaited_step (ha : AllAnswered a) (hsh : Threads c q s) (hst : Steps c q s a s')
    (h : CallsAwaited c q s) : CallsAwaited c q s' := by
  cases hst with
  | submit hst =>
    cases hst with
    | @spawn k o hs hk =>
      intro i p hp
      refine (h i p hp).update fun ht => ?_
      rw [hsh.absent_of_spawning hs] at ht
      cases ht
    | _ => exact h
  | forward hst => cases hst <;> exact h
  | produce => exact h
  | prefetch hst =>
    refine callsAwaited_prefetch (fun code hc => ?_) hst h
    subst hc
    exact ha
  | pull hst => exact callsAwaited_pull hst h
  | fetch hst => cases hst <;> exact h
  | cancelQuery => exact h
  | cancel hst =>
    rw [cancels_frame hst]
    exact h

lemma callsAwaited_of_reach (hG : ∀ s a, G s a → AllAnswered a)
    (h : Reach (Gather.step c q) G (Gather.init N Row) s) : CallsAwaited c q s := by
  refine h.invariant (I := CallsAwaited c q) ?_ fun s a s' hr hi hg hst =>
    callsAwaited_step (hG s a hg) (shape_of_reach hr).threads (steps_of_step hst) hi
  intro i p hp
  simp [Gather.init] at hp

omit [DecidableEq N] in
lemma keepsRows_of_callsAwaited (ha : AllAnswered a) (h : CallsAwaited c q s) (o : N) :
    KeepsRows c q o s a := by
  unfold KeepsRows
  split
  next => exact ha.elim
  next i maxRows =>
    intro p hp _
    rcases h i p hp with ⟨code, out, isLast, hst⟩ | hw
    · left
      unfold takes
      split
      next hp' =>
        obtain rfl := Option.some.inj (hp'.symm.trans hp)
        cases hst
      next => rfl
    · exact .inr hw
  next => trivial

/-! ### One request -/

omit [DecidableEq N] in
lemma log_isPrefix_of_lane [DecidableEq N] {o : N} {F : Prop} {v : View N Row}
    (h1 : Once (c.shard o) q v) (h2 : Sound c q o F v) : v.log <+: (c.shard o).matchRows q := by
  cases hg : v.entry.gens with
  | zero =>
    rw [h1.log_eq_nil hg]
    exact List.nil_prefix
  | succ g =>
    have hout := eq_take (h1.once g hg.symm) (h2.lost g (by omega))
    calc v.log <+: v.out := v.log_prefix_out
      _ <+: v.out ++ (v.entry.obj g).matched := List.prefix_append _ _
      _ = ((c.shard o).matchRows q).take (made v.entry g) := hout
      _ <+: (c.shard o).matchRows q := List.take_prefix _ _

section Request

variable (hown : (c.eligible q).Nodup) (hr : WithinTtl c q)
  (hG : ∀ s a, G s a → AllAnswered a) (h : Reach (Gather.step c q) G (Gather.init N Row) s)

omit [DecidableEq N] in
include hG in
lemma notCancelled : ∀ s a, G s a → a ≠ .cancelQuery := by
  rintro s a hg rfl
  exact hG s _ hg

include hown hr hG h

lemma log_isPrefix (o : N) : itemsOf s.log o <+: (c.shard o).matchRows q := by
  by_cases hg : o = c.gateway
  · subst hg
    exact (selfRows_of_reach (L := True) (fun _ => notCancelled hG) h).log_isPrefix trivial
  · by_cases he : o ∈ c.eligible q
    · obtain ⟨k, hk⟩ := List.getElem?_of_mem he
      have hl : IsLane c q o k := ⟨hown, hk, hg⟩
      have hfw : ∀ s a, G s a → ForwardsAnswered a := fun s a ha => (hG s a ha).forwardsAnswered
      have h1 := once_of_reach hl (fun s a hs _ =>
        timely_of_forwards (forwards_of_reach hr hfw hs) (pending_of_reach hfw hs)) h
      have h2 := sound_of_answered hl hr hfw (notCancelled hG) (fun s a hs ha =>
        keepsRows_of_callsAwaited (hG s a ha) (callsAwaited_of_reach hG hs) o) h
      exact log_isPrefix_of_lane h1 h2
    · rw [((shape_of_reach h).ledger.foreign o hg he).2]
      exact List.nil_prefix

/-- When the stream ends the client has got exactly the rows of the eligible owners. -/
lemma log_eq (hc : Closed s) {o : N} (ho : o ∈ c.eligible q) :
    itemsOf s.log o = (c.shard o).matchRows q := by
  have hdel := delivered_of_closed hown hr (fun s a ha => (hG s a ha).forwardsAnswered)
    (notCancelled hG) (fun s a hs ha o _ _ =>
      keepsRows_of_callsAwaited (hG s a ha) (callsAwaited_of_reach hG hs) o) h hc o ho
  exact (log_isPrefix hown hr hG h o).eq_of_length_le hdel.length_le

lemma log_perm (hall : ∀ o, (c.shard o).matchRows q ≠ [] → o ∈ c.eligible q) (hc : Closed s) :
    (s.log.map Prod.snd).Perm ((c.eligible q).flatMap fun o => (c.shard o).matchRows q) := by
  have hsrc : ∀ p ∈ s.log, p.1 ∈ c.eligible q := by
    intro p hp
    refine hall p.1 fun hnil => ?_
    have hpre := log_isPrefix hown hr hG h p.1
    rw [hnil, List.prefix_nil] at hpre
    have hmem : p.2 ∈ itemsOf s.log p.1 :=
      List.mem_map.mpr ⟨p, List.mem_filter.mpr ⟨hp, by simp⟩, rfl⟩
    rw [hpre] at hmem
    cases hmem
  have hperm := perm_flatMap_itemsOf hown hsrc
  rwa [List.flatMap_congr fun o ho => log_eq hown hr hG h hc ho] at hperm

end Request

/-! ### All requests -/

variable {Rid : Type} [DecidableEq Rid]

/-- Along routes from the gateway to all data owners, and for queries whose matches are at
eligible owners: whatever the order of the steps of all requests, a request that ends has got
the matching rows of its eligible owners, each once; at any time it has got the beginning of
what each owner lists; and `total_matched` counts the rows. -/
def ExactlyOnceGather (D : Deployment N) (query : Rid → Proto.Query) : Prop :=
  (∀ o ∈ D.overlay.dataOwners, o ≠ D.gateway → Leads D.overlay o D.gateway) →
  (∀ rid o, D.answer (query rid) o ≠ [] → o ∈ D.eligible (query rid)) →
  ∀ R, Reach (Cluster.step D query) (fun _ a => AllAnswered a.2) (Requests.init N Rid) R →
    ∀ rid, ((R.request rid).finished ≠ none → ((R.request rid).log.map Prod.snd).Perm
        ((D.eligible (query rid)).flatMap (D.answer (query rid)))) ∧
      (∀ o, itemsOf (R.request rid).log o <+: D.answer (query rid) o) ∧
      (R.request rid).gate.totalMatched = (R.request rid).log.length

/-- **Exactly-once gather**, for owners that are listed once and at most eight hops away. -/
theorem exactlyOnceGather (D : Deployment N) (query : Rid → Proto.Query)
    (hown : ∀ rid, (D.eligible (query rid)).Nodup) (hr : ∀ rid, WithinTtl D.config (query rid)) :
    ExactlyOnceGather D query := by
  intro _ hall R hR rid
  have h := request_reach hR rid
  have hG : ∀ (s : Sys N TaxiRow) (a : Act N), AllAnswered a → AllAnswered a := fun _ _ ha => ha
  refine ⟨fun hf => ?_, fun o => ?_, (shape_of_reach h).ledger.total⟩
  · have hmatch : ∀ o, (D.shard o).matchRows (query rid) ≠ [] → o ∈ D.eligible (query rid) := by
      intro o ho
      rw [matchRows_shard] at ho
      exact hall rid o ho
    have hperm := log_perm (c := D.config) (hown rid) (hr rid) hG h hmatch (.inl hf)
    rwa [show (fun o => (D.config.shard o).matchRows (query rid)) = D.answer (query rid) from
      funext (matchRows_shard D (query rid))] at hperm
  · have hpre := log_isPrefix (c := D.config) (hown rid) (hr rid) hG h o
    rwa [show (D.config.shard o).matchRows (query rid) = D.answer (query rid) o from
      matchRows_shard D (query rid) o] at hpre

/-- A trip of the given distance. -/
def trip (d : ℚ) : TaxiRow := { (PartitionStore.ofRows []).fill 0 with tripDistance := d }

/-- A chain whose last node owns two trips, listed as given. -/
def chainDeployment (n : ℕ) (dataOwners : List ℕ) : Deployment ℕ where
  overlay := .chain n dataOwners
  gateway := 0
  partition o := some (.ofRows (if o + 1 = n then [trip 1, trip 2] else []))
  eligible _ := dataOwners
  eligible_sublist _ := List.Sublist.refl _

/-- One request for all trips, and one for the long ones. -/
def twoQueries (rid : Bool) : Proto.Query :=
  if rid then ⟨[]⟩ else ⟨[⟨"trip_distance", 2, 10, true⟩]⟩

/-- Two requests step by step next to each other, but for the producers. -/
def sideBySide : List (Bool × Act ℕ) :=
  let both := List.flatMap fun a => [(true, a), (false, a)]
  let one (rid : Bool) := List.map fun a => (rid, a)
  both (submitted 1) ++ one true (produced 1 2) ++ one false (produced 1 1) ++
    both ([.prefetch 0 .start, .prefetch 0 .issue] ++ servedCall 0 10 ++ [.prefetch 0 .receive] ++
      fetched ++ [.prefetch 0 .issue] ++ servedCall 1 10 ++ [.prefetch 0 .receive]) ++
    one true nothingProduced ++ one false nothingProduced ++ both fetchedLast

def near : Deployment ℕ := chainDeployment 2 [1]

theorem exactlyOnceGather_sideBySide :
    ∃ R, Reach (Cluster.step near twoQueries) (fun _ a => AllAnswered a.2)
        (Requests.init ℕ Bool) R ∧
      ((R.request true).log.map Prod.snd).Perm [trip 1, trip 2] ∧
      ((R.request false).log.map Prod.snd).Perm [trip 2] := by
  have hrun : (run (Cluster.step near twoQueries) (fun _ a => AllAnswered a.2)
      (Requests.init ℕ Bool) sideBySide).map
      (fun R => ((R.request true).finished, (R.request false).finished)) =
      some (some (1, 1), some (1, 1)) := by decide +kernel
  obtain ⟨R, hs, hfin⟩ := Option.map_eq_some_iff.mp hrun
  obtain ⟨ht, hf⟩ := Prod.mk.inj hfin
  have hreach := reach_of_run .init hs
  have hroute : Routes near.overlay 1 1 0 := ⟨1, by decide, rfl⟩
  have hone : ∀ o ∈ near.overlay.dataOwners, o = 1 := fun o ho => List.mem_singleton.mp ho
  have hall := exactlyOnceGather near twoQueries
    (fun _ => List.nodup_singleton 1) (fun _ o ho _ => ⟨1, by decide, hone o ho ▸ hroute⟩)
    (fun o ho _ => ⟨1, hone o ho ▸ hroute⟩) (fun _ _ ho => mem_of_answer ho) R hreach
  have hboth := (hall true).1 (by simp [ht])
  have hlong := (hall false).1 (by simp [hf])
  rw [show (near.eligible (twoQueries true)).flatMap (near.answer (twoQueries true)) =
    [trip 1, trip 2] by decide +kernel] at hboth
  rw [show (near.eligible (twoQueries false)).flatMap (near.answer (twoQueries false)) =
    [trip 2] by decide +kernel] at hlong
  exact ⟨R, hreach, hboth, hlong⟩

/-- A forward over nine hops expires, and its relay's answer is taken for success. -/
def expired : List (Act ℕ) :=
  [.submit .register, .submit .mark, .submit .next] ++ List.replicate 9 (.forward 0) ++
    [.submit .answered, .submit .next, .submit .spawn, .submit .spawn,
      .prefetch 0 .start, .prefetch 0 .issue] ++ List.replicate 9 (.pull 0 .handle) ++
    [.prefetch 0 .receive] ++ nothingProduced ++ fetchedLast

def far : Deployment ℕ := chainDeployment 10 [9]

def listedTwice : Deployment ℕ := chainDeployment 2 [1, 1]

def everything (_ : Unit) : Proto.Query := ⟨[]⟩

lemma far_finishes : ∃ R, Reach (Cluster.step far everything) (fun _ a => AllAnswered a.2)
    (Requests.init ℕ Unit) R ∧ (R.request ()).finished = some (0, 1) ∧ (R.request ()).log = [] := by
  have hrun : (run (Cluster.step far everything) (fun _ a => AllAnswered a.2)
      (Requests.init ℕ Unit) (expired.map fun a => ((), a))).map
      (fun R => ((R.request ()).finished, (R.request ()).log)) =
      some (some (0, 1), []) := by decide +kernel
  obtain ⟨R, hs, hfin⟩ := Option.map_eq_some_iff.mp hrun
  exact ⟨R, reach_of_run .init hs, Prod.mk.inj hfin⟩

lemma listedTwice_overtaken : ∃ R, Reach (Cluster.step listedTwice everything)
    (fun _ a => AllAnswered a.2) (Requests.init ℕ Unit) R ∧
    itemsOf (R.request ()).log 1 = [trip 2, trip 1] := by
  have hrun : (run (Cluster.step listedTwice everything) (fun _ a => AllAnswered a.2)
      (Requests.init ℕ Unit) (overtaken.map fun a => ((), a))).map
      (fun R => itemsOf (R.request ()).log 1) = some [trip 2, trip 1] := by decide +kernel
  obtain ⟨R, hs, hlog⟩ := Option.map_eq_some_iff.mp hrun
  exact ⟨R, reach_of_run .init hs, hlog⟩

/-- **A route of nine hops loses the rows at its end**, and an owner that is listed twice gets
its rows out of order. -/
theorem not_exactlyOnceGather :
    ¬ ExactlyOnceGather far everything ∧ ¬ ExactlyOnceGather listedTwice everything := by
  refine ⟨fun h => ?_, fun h => ?_⟩
  · obtain ⟨R, hreach, hf, hlog⟩ := far_finishes
    have hroute : Routes far.overlay 9 9 0 :=
      ⟨1, by decide, 2, by decide, 3, by decide, 4, by decide, 5, by decide, 6, by decide,
        7, by decide, 8, by decide, 9, by decide, rfl⟩
    have hone : ∀ o ∈ far.overlay.dataOwners, o = 9 := fun o ho => List.mem_singleton.mp ho
    have hperm := (h (fun o ho _ => ⟨9, hone o ho ▸ hroute⟩) (fun _ _ ho => mem_of_answer ho)
      R hreach ()).1 (by simp [hf])
    rw [hlog, show (far.eligible (everything ())).flatMap (far.answer (everything ())) =
      [trip 1, trip 2] by decide +kernel] at hperm
    exact absurd hperm.length_eq (by decide)
  · obtain ⟨R, hreach, hlog⟩ := listedTwice_overtaken
    have hroute : Routes listedTwice.overlay 1 1 0 := ⟨1, by decide, rfl⟩
    have hone : ∀ o ∈ listedTwice.overlay.dataOwners, o = 1 := by decide
    have hpre := (h (fun o ho _ => ⟨1, hone o ho ▸ hroute⟩) (fun _ _ ho => mem_of_answer ho)
      R hreach ()).2.1 1
    rw [hlog, show listedTwice.answer (everything ()) 1 = [trip 1, trip 2] by decide +kernel]
      at hpre
    revert hpre
    decide +kernel

end Mini2.ExactlyOnce
