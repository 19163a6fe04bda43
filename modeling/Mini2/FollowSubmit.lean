import Mini2.FollowSteps

/-!
The steps of a `SubmitQuery` among others.
-/

namespace Mini2.FollowSubmit

open Mini2.Proto Mini2.Net Mini2.Request Mini2.Producer Mini2.Gather Mini2.GatherSteps
open Mini2.GatherShape Mini2.Runs Mini2.Lane Mini2.Forwarded Mini2.ExactlyOnce Mini2.Traces
open Mini2.Course Mini2.Resubmit Mini2.Follow Mini2.FollowSteps

variable {N Query Row : Type} [DecidableEq N] {c : Config N Query Row} {q : Query}
  {x : ReSys N Row} {v w : Single N} {s' : Sys N Row} {j k : ℕ} {pc : SubmitPc}

/-- The `j`-th call has moved to its place in `s'`, and `w` has followed it or not. -/
lemma tracks_submit (h : Tracks c q x v) (hj : j < x.calls)
    (hmove : Behind (x.submit j) s'.submit) (hw : Behind v.submit w.submit)
    (hb : Behind s'.submit w.submit) (hlead : w.submit = v.submit ∨ Behind w.submit s'.submit)
    (hbegun : w.submit = .idle ∨ 1 ≤ phase w.submit ∧ 0 < (s'.node c.gateway).gens)
    (hg : ∀ n, (x.sys.node n).gens ≤ (s'.node n).gens)
    (hawait : ∀ k a f, s'.submit = .awaiting k a f →
      ∃ p, s'.fwd[f]? = some p ∧ (c.eligible q)[k]? = some p.owner ∧ Arrives c s' p)
    (hfwd : ∀ (f : ℕ) p, x.sys.fwd[f]? = some p → s'.fwd[f]? = some p)
    (hsent : ∀ p ∈ s'.fwd, p.owner ≠ c.gateway ∧
      ∃ k, (c.eligible q)[k]? = some p.owner ∧ Asked w.submit k)
    (htold : ∀ k a f p, w.submit = .awaiting k a f → w.fwd[f]? = some p →
      0 < (s'.node p.owner).gens → answered p.stage = true) :
    Tracks c q { x.put j s' with renewed := false } w := by
  have hself : (x.put j s').submit j = s'.submit := Function.update_self ..
  have hother : ∀ {j'}, j' ≠ j → (x.put j s').submit j' = x.submit j' := fun hjj =>
    Function.update_of_ne hjj _ _
  constructor
  case behind =>
    intro j'
    show Behind ((x.put j s').submit j') w.submit
    by_cases hjj : j' = j
    · subst hjj
      rw [hself]
      exact hb
    · rw [hother hjj]
      exact (h.behind j').trans hw
  case ahead =>
    rcases hlead with hsame | hlead
    · rw [hsame]
      refine h.ahead.imp_right fun ⟨j', hj', hb'⟩ => ⟨j', hj', ?_⟩
      show Behind v.submit ((x.put j s').submit j')
      by_cases hjj : j' = j
      · subst hjj
        rw [hself]
        exact hb'.trans hmove
      · rw [hother hjj]
        exact hb'
    · refine .inr ⟨j, hj, ?_⟩
      show Behind w.submit ((x.put j s').submit j)
      rw [hself]
      exact hlead
  case unborn =>
    intro j' hj'
    show (x.put j s').submit j' = .idle
    rw [hother (Nat.ne_of_gt (hj.trans_le hj'))]
    exact h.unborn j' hj'
  case begun => exact hbegun
  case awaiting =>
    intro j' k a f hs
    by_cases hjj : j' = j
    · subst hjj
      exact hawait k a f (hself.symm.trans hs)
    · obtain ⟨p, hp, hk, harr⟩ := h.awaiting j' k a f ((hother hjj).symm.trans hs)
      exact ⟨p, hfwd f p hp, hk, arrives_mono harr hg⟩
  case sent => exact hsent
  case told => exact htold

lemma sent_mono (h : Tracks c q x v) (hw : Behind v.submit pc) :
    ∀ p ∈ x.sys.fwd, p.owner ≠ c.gateway ∧
      ∃ k, (c.eligible q)[k]? = some p.owner ∧ Asked pc k := by
  intro p hp
  obtain ⟨hne, k, hk, hasked⟩ := h.sent p hp
  exact ⟨hne, k, hk, hw.asked hasked⟩

/-- The call that stands for all stays where it is, and no forward is sent. -/
lemma tracks_behind (h : Tracks c q x v) (hj : j < x.calls)
    (hmove : Behind (x.submit j) s'.submit) (hb : Behind s'.submit v.submit)
    (hfwd : s'.fwd = x.sys.fwd) (hgens : ∀ n, (s'.node n).gens = (x.sys.node n).gens)
    (hno : ∀ k a f, s'.submit ≠ .awaiting k a f) :
    Tracks c q { x.put j s' with renewed := false } v := by
  refine tracks_submit h hj hmove (.refl _) hb (.inl rfl) ?_ (fun n => (hgens n).ge)
    (fun k a f hs => absurd hs (hno k a f)) (fun _ _ => hfwd ▸ id) (hfwd ▸ h.sent) ?_
  · rw [hgens]
    exact h.begun
  · intro k a f p hs hp hpos
    exact h.told k a f p hs hp (hgens p.owner ▸ hpos)

/-- The call that stands for all goes along to the same place, and no forward is sent. -/
lemma tracks_ahead (h : Tracks c q x v) (hj : j < x.calls)
    (hmove : Behind (x.submit j) s'.submit) (hw : Behind v.submit s'.submit)
    (hsame : w.submit = s'.submit) (hfwd : s'.fwd = x.sys.fwd)
    (hbegun : 1 ≤ phase s'.submit ∧ 0 < (s'.node c.gateway).gens)
    (hg : ∀ n, (x.sys.node n).gens ≤ (s'.node n).gens)
    (hno : ∀ k a f, s'.submit ≠ .awaiting k a f) :
    Tracks c q { x.put j s' with renewed := false } w := by
  rw [← hsame] at hw hbegun
  refine tracks_submit h hj hmove hw (hsame ▸ .refl _) (.inr (hsame ▸ .refl _)) (.inr hbegun) hg
    (fun k a f hs => absurd hs (hno k a f)) (fun _ _ => hfwd ▸ id) (hfwd ▸ sent_mono h hw) ?_
  intro k a f p hs
  exact absurd (hsame.symm.trans hs) (hno k a f)

omit [DecidableEq N] in
lemma pooled_submit (h : Pooled c q x v) (hmove : Behind (x.submit j) s'.submit)
    (hthread : s'.thread = x.thread j) (hw : w.thread = v.thread)
    (hstop : s'.gate.prefetchStop = x.sys.gate.prefetchStop)
    (hdone : s'.gate.prefetchDone = x.sys.gate.prefetchDone) :
    Pooled c q { x.put j s' with renewed := false } w := by
  have hspent : ∀ k, Spent c q x.sys k → Spent c q s' k := fun k hs =>
    hs.mono (hstop ▸ id) fun o hd => hdone ▸ hd
  refine pooled_put (k := 0) h hmove (fun k' _ => congrFun hthread k') (fun ht => ?_) hspent
    (fun k' _ => congrFun hw k') ?_
  · rw [hthread] at ht
    exact hmove.passed (h.spawned j 0 ht)
  · rw [hthread, hw, Function.update_eq_self]
    exact (h.merged 0).mono (hspent 0)

section Steps

variable (hreach : Reach (step c q) (fun _ a => AllAnswered a) (init N Row) (v.on x.sys))
  (h : Follows c q x v) (hj : j < x.calls)

include hreach h hj

lemma moved_behind (hmove : Behind (x.submit j) pc) (hb : Behind pc v.submit)
    (hno : ∀ k a f, pc ≠ .awaiting k a f) :
    Followed c q { x.put j { x.focus j with submit := pc } with renewed := false } :=
  ⟨v, hreach, rfl, h.done, h.spare,
    tracks_behind h.tracks hj hmove hb rfl (fun _ => rfl) hno,
    pooled_submit h.pooled hmove rfl rfl rfl rfl⟩

lemma moved_ahead {a : SubmitAct} (hok : AllAnswered (.submit a : Act N))
    (hst : submitStep c q (v.on x.sys) a = some { v.on x.sys with submit := pc })
    (hmove : Behind (x.submit j) pc) (hw : Behind v.submit pc) (hp : 1 ≤ phase v.submit)
    (hno : ∀ k a f, pc ≠ .awaiting k a f) :
    Followed c q { x.put j { x.focus j with submit := pc } with renewed := false } := by
  let w : Single N := { v with submit := pc }
  have hbegun : 1 ≤ phase pc ∧ 0 < (x.sys.node c.gateway).gens := by
    have hpos : 1 ≤ phase v.submit ∧ _ := h.tracks.begun.resolve_left fun hidle => by
      rw [hidle] at hp
      cases hp
    refine ⟨?_, hpos.2⟩
    unfold Behind at hw
    omega
  exact ⟨w, .step (a := .submit a) hreach hok hst, rfl, h.done, h.spare,
    tracks_ahead h.tracks hj hmove hw rfl rfl hbegun (fun _ => le_rfl) hno,
    pooled_submit h.pooled hmove rfl rfl rfl rfl⟩

lemma followed_register (hs : x.submit j = .idle) (hr : c.overlay.role c.gateway = .gateway)
    (hharm : ¬ Dropped (x.sys.node c.gateway)) :
    Followed c q { x.put j { (x.focus j).setNode c.gateway
      (registerRequest (c.shard c.gateway) q 1 (x.sys.node c.gateway)) with
        submit := .registered } with renewed := false } := by
  have hsh := shape_of_reach hreach
  have hmove : Behind (x.submit j) .registered := by
    rw [hs]
    exact .inl (by decide)
  by_cases hidle : v.submit = .idle
  · let w : Single N := { v with submit := .registered }
    have hidle' : (v.on x.sys).submit = .idle := hidle
    have hst : submitStep c q (v.on x.sys) .register = some (w.on { (x.focus j).setNode c.gateway
        (registerRequest (c.shard c.gateway) q 1 (x.sys.node c.gateway)) with
          submit := .registered }) := by
      unfold submitStep
      rw [if_pos hidle', if_pos hr]
      rfl
    have hw : Behind v.submit .registered := by
      rw [hidle]
      exact .inl (by decide)
    have hpos : 0 < (((x.focus j).setNode c.gateway (registerRequest (c.shard c.gateway) q 1
        (x.sys.node c.gateway))).node c.gateway).gens := by
      rw [setNode_self]
      exact register_gens_pos (hsh.entries c.gateway)
    refine ⟨w, .step (a := .submit .register) hreach trivial hst, rfl, h.done, h.spare, ?_,
      pooled_submit h.pooled hmove rfl rfl rfl rfl⟩
    refine tracks_ahead h.tracks hj hmove hw rfl rfl ⟨le_rfl, hpos⟩ (fun n => ?_) (by simp)
    by_cases hn : n = c.gateway
    · subst hn
      exact register_gens_le.trans_eq (congrArg Entry.gens (setNode_self ..).symm)
    · exact (congrArg Entry.gens (setNode_ne (x.focus j) hn _)).ge
  · obtain ⟨hp, hpos⟩ := h.tracks.begun.resolve_left hidle
    -- the gateway has the request already
    obtain ⟨g, hg⟩ := Option.ne_none_iff_exists'.mp fun hnone => hharm ⟨hnone, hpos⟩
    have hsame : (x.focus j).setNode c.gateway
        (registerRequest (c.shard c.gateway) q 1 (x.sys.node c.gateway)) = x.focus j := by
      unfold Sys.setNode registerRequest
      rw [hg]
      exact congrArg (fun node => { x.focus j with node := node }) (Function.update_eq_self ..)
    rw [hsame]
    exact moved_behind hreach h hj hmove (behind_of_le rfl hp) (by simp)

lemma followed_mark (hown : (c.eligible q).Nodup) (hr : WithinTtl c q)
    (hs : x.submit j = .registered) : Followed c q
      { x.put j { (x.focus j).marked c q with submit := .forwarding 0 0 } with
        renewed := false } := by
  have hcourse := onCourse_of_reach hown hr hreach
  have hb := h.tracks.behind j
  rw [hs] at hb
  have hmove : Behind (x.submit j) (.forwarding 0 0) := by
    rw [hs]
    exact .inl (by decide)
  have hp : 1 ≤ phase v.submit := hb.elim Nat.le_of_lt fun hb => hb.1.le
  by_cases hlead : phase v.submit = 1
  · -- it is the first to mark the owners
    have hreg : v.submit = .registered := eq_registered hlead
    let w : Single N :=
      { v with
        submit := .forwarding 0 0
        done := ((v.on x.sys).marked c q).gate.clientProducersDone }
    have hreg' : (v.on x.sys).submit = .registered := hreg
    have hst : submitStep c q (v.on x.sys) .mark = some (w.on
        { (x.focus j).marked c q with submit := .forwarding 0 0 }) := by
      unfold submitStep
      rw [if_pos hreg']
      rfl
    have hw : Behind v.submit (.forwarding 0 0) := by
      rw [hreg]
      exact .inl (by decide)
    have hbegun := h.tracks.begun.resolve_left fun hidle => by
      rw [hidle] at hreg
      cases hreg
    refine ⟨w, .step (a := .submit .mark) hreach trivial hst, rfl, fun o hd => ?_,
      fun o ho he hd => ?_, ?_, pooled_submit h.pooled hmove rfl rfl rfl rfl⟩
    · by_cases ho : o ∈ c.overlay.dataOwners
      · simpa [w, ReSys.put, Sys.marked, ho] using hd
      · have hold : x.sys.gate.clientProducersDone o = true := by
          simpa [ReSys.put, Sys.marked, ReSys.focus, ho] using hd
        simpa [w, Sys.marked, Single.on, ho] using h.done o hold
    · simp [ReSys.put, Sys.marked, ho, he]
    · exact tracks_ahead h.tracks hj hmove hw rfl rfl ⟨Nat.le_succ 1, hbegun.2⟩
        (fun _ => le_rfl) (by simp)
  · -- they have been marked, and the gateway has not forgotten it
    have hp2 : 2 ≤ phase v.submit := by omega
    obtain ⟨hn, hresp, hdone⟩ := hcourse.marked hp2
    have hinsert : (if c.gateway ∈ c.eligible q then insert c.gateway x.sys.gate.ownersResponded
        else x.sys.gate.ownersResponded) = x.sys.gate.ownersResponded := by
      split
      next hg => exact Finset.insert_eq_of_mem (hresp hg)
      next => rfl
    have hon : v.on { (x.focus j).marked c q with submit := .forwarding 0 0 } = v.on x.sys := by
      show { v.on x.sys with gate := { x.sys.gate with
        clientProducersDone := v.done
        eligibleOwners := (c.eligible q).length
        ownersResponded := if c.gateway ∈ c.eligible q
          then insert c.gateway x.sys.gate.ownersResponded
          else x.sys.gate.ownersResponded } } = v.on x.sys
      rw [hinsert, ← hn]
      rfl
    have hb' : Behind (.forwarding 0 0) v.submit := behind_of_le rfl hp2
    refine ⟨v, hon ▸ hreach, rfl, fun o hd => ?_, fun o ho he hd => ?_, ?_,
      pooled_submit h.pooled hmove rfl rfl rfl rfl⟩
    · by_cases ho : o ∈ c.overlay.dataOwners
      · have he : o ∉ c.eligible q := by
          simpa [ReSys.put, Sys.marked, ho] using hd
        exact hdone o ho he
      · refine h.done o ?_
        simpa [ReSys.put, Sys.marked, ReSys.focus, ho] using hd
    · simp [ReSys.put, Sys.marked, ho, he]
    · exact tracks_behind h.tracks hj hmove hb' rfl (fun _ => rfl) (by simp)

lemma followed_loopEnd {a : ℕ} (hr : WithinTtl c q) (hs : x.submit j = .forwarding k a)
    (hk : (c.eligible q)[k]? = none) :
    Followed c q { x.put j { x.focus j with submit := .spawning 0 } with renewed := false } := by
  have hforwards := forwards_of_reach hr (fun _ _ ha => ha.forwardsAnswered) hreach
  have hb := h.tracks.behind j
  have hlen := List.getElem?_eq_none_iff.mp hk
  rw [hs, behind_forwarding] at hb
  have hmove : Behind (x.submit j) (.spawning 0) := by
    rw [hs]
    exact .inl (Nat.lt_succ_self 2)
  by_cases hle : 3 ≤ phase v.submit
  · exact moved_behind hreach h hj hmove (behind_of_le rfl hle) (by simp)
  · obtain ⟨k', a', hv, hk'⟩ : ∃ k' a', v.submit = .forwarding k' a' ∧
        (c.eligible q)[k']? = none := by
      have hlevel : phase v.submit = 2 ∧ 2 * k ≤ spot v.submit := by omega
      cases hv : v.submit with
      | forwarding k' a' =>
        rw [hv] at hlevel
        refine ⟨k', a', rfl, List.getElem?_eq_none_iff.mpr ?_⟩
        simp only [spot] at hlevel
        omega
      | awaiting k' a' f =>
        obtain ⟨p, -, hk'⟩ := hforwards.awaiting k' a' f hv
        have hlt := (List.getElem?_eq_some_iff.mp hk').1
        rw [hv] at hlevel
        simp only [spot] at hlevel
        omega
      | _ => simp [hv, phase] at hlevel
    have hsub : (v.on x.sys).submit = .forwarding k' a' := hv
    have hst : submitStep c q (v.on x.sys) .next =
        some { v.on x.sys with submit := .spawning 0 } := by
      simp only [submitStep, hsub, hk']
    exact moved_ahead hreach h hj (a := .next) trivial hst hmove (.inl (Nat.lt_of_not_le hle))
      (by simp [hv, phase]) (by simp)

lemma followed_itself {a : ℕ} (hr : WithinTtl c q) (hs : x.submit j = .forwarding k a)
    (hk : (c.eligible q)[k]? = some c.gateway) : Followed c q
      { x.put j { x.focus j with submit := .forwarding (k + 1) 0 } with renewed := false } := by
  have hforwards := forwards_of_reach hr (fun _ _ ha => ha.forwardsAnswered) hreach
  have hb := h.tracks.behind j
  rw [hs, behind_forwarding] at hb
  have hmove : Behind (x.submit j) (.forwarding (k + 1) 0) := by
    rw [hs, behind_forwarding]
    exact .inr ⟨rfl, by simp only [spot]; omega⟩
  by_cases hle : Behind (.forwarding (k + 1) 0) v.submit
  · exact moved_behind hreach h hj hmove hle (by simp)
  · rw [behind_forwarding] at hle
    obtain ⟨a', hv⟩ : ∃ a', v.submit = .forwarding k a' := by
      refine exists_forwarding v.submit (by omega) ?_
      by_contra hne
      -- the gateway sends itself no forward
      obtain ⟨a', f, hv⟩ := exists_awaiting v.submit (k := k) (by omega) (by omega)
      obtain ⟨p, hp, hk'⟩ := hforwards.awaiting k a' f hv
      have hself := ((shape_of_reach hreach).threads.fwd p (List.mem_of_getElem? hp)).2
      exact hself (Option.some.inj (hk'.symm.trans hk))
    have hsub : (v.on x.sys).submit = .forwarding k a' := hv
    have hst : submitStep c q (v.on x.sys) .next =
        some { v.on x.sys with submit := .forwarding (k + 1) 0 } := by
      simp only [submitStep, hsub, hk, if_true]
    have hw : Behind v.submit (.forwarding (k + 1) 0) := by
      rw [hv, behind_forwarding]
      exact .inr ⟨rfl, by simp only [spot]; omega⟩
    exact moved_ahead hreach h hj (a := .next) trivial hst hmove hw (by simp [hv, phase])
      (by simp)

lemma followed_delivered {a f : ℕ} {o : N} {r : Bool} (hr : WithinTtl c q)
    (hs : x.submit j = .awaiting k a f) (hf : x.sys.fwd[f]? = some ⟨o, r, .answered .ok⟩) :
    Followed c q
      { x.put j { x.focus j with submit := .forwarding (k + 1) 0 } with renewed := false } := by
  have hforwards := forwards_of_reach hr (fun _ _ ha => ha.forwardsAnswered) hreach
  have hb := h.tracks.behind j
  rw [hs, behind_awaiting] at hb
  have hmove : Behind (x.submit j) (.forwarding (k + 1) 0) := by
    rw [hs, behind_awaiting]
    exact .inr ⟨rfl, by simp only [spot]; omega⟩
  by_cases hle : Behind (.forwarding (k + 1) 0) v.submit
  · exact moved_behind hreach h hj hmove hle (by simp)
  · rw [behind_forwarding] at hle
    obtain ⟨a', f', hv⟩ := exists_awaiting v.submit (k := k) (by omega) (by omega)
    -- the owner has been told, by whatever call
    obtain ⟨p, hp, hk, harr⟩ := h.tracks.awaiting j k a f hs
    obtain rfl := Option.some.inj (hf.symm.trans hp)
    obtain ⟨⟨o', r', stage⟩, hp', hk'⟩ := hforwards.awaiting k a' f' hv
    obtain rfl : o = o' := Option.some.inj (hk.symm.trans hk')
    have hanswered : answered stage = true := h.tracks.told k a' f' _ hv hp' harr.2
    cases stage with
    | «at» n ttl => cases hanswered
    | answered code =>
      obtain ⟨rfl, -⟩ := ok_of_answered hforwards hp'
      have hsub : (v.on x.sys).submit = .awaiting k a' f' := hv
      have hst : submitStep c q (v.on x.sys) .answered =
          some { v.on x.sys with submit := .forwarding (k + 1) 0 } := by
        simp only [submitStep, hsub, hp', if_true]
      have hw : Behind v.submit (.forwarding (k + 1) 0) := by
        rw [hv, behind_awaiting]
        exact .inr ⟨rfl, by simp only [spot]; omega⟩
      exact moved_ahead hreach h hj (a := .answered) trivial hst hmove hw (by simp [hv, phase])
        (by simp)

lemma followed_spawnEnd (hs : x.submit j = .spawning k) (hk : (c.eligible q)[k]? = none) :
    Followed c q { x.put j { x.focus j with submit := .returned } with renewed := false } := by
  have hb := h.tracks.behind j
  have hlen := List.getElem?_eq_none_iff.mp hk
  rw [hs, behind_spawning] at hb
  have hmove : Behind (x.submit j) .returned := by
    rw [hs]
    exact .inl (Nat.lt_succ_self 3)
  by_cases hle : 4 ≤ phase v.submit
  · exact moved_behind hreach h hj hmove (behind_of_le rfl hle) (by simp)
  · have hv := exists_spawning v.submit (by omega)
    have hk' : (c.eligible q)[spot v.submit]? = none := List.getElem?_eq_none_iff.mpr (by omega)
    have hsub : (v.on x.sys).submit = .spawning (spot v.submit) := hv
    have hst : submitStep c q (v.on x.sys) .spawn =
        some { v.on x.sys with submit := .returned } := by
      simp only [submitStep, hsub, hk']
    exact moved_ahead hreach h hj (a := .spawn) trivial hst hmove (.inl (Nat.lt_of_not_le hle))
      (by omega) (by simp)

lemma followed_skip {o : N} (hs : x.submit j = .spawning k) (hk : (c.eligible q)[k]? = some o)
    (ho : o = c.gateway ∨ x.sys.gate.clientProducersDone o = true) : Followed c q
      { x.put j { x.focus j with submit := .spawning (k + 1) } with renewed := false } := by
  have hb := h.tracks.behind j
  rw [hs, behind_spawning] at hb
  have hmove : Behind (x.submit j) (.spawning (k + 1)) := by
    rw [hs, behind_spawning]
    exact .inr ⟨rfl, Nat.le_succ k⟩
  by_cases hle : Behind (.spawning (k + 1)) v.submit
  · exact moved_behind hreach h hj hmove hle (by simp)
  · rw [behind_spawning] at hle
    have hv : v.submit = .spawning k := by
      rw [exists_spawning v.submit (by omega)]
      congr
      omega
    have hsub : (v.on x.sys).submit = .spawning k := hv
    have hcond : o = c.gateway ∨ (v.on x.sys).gate.clientProducersDone o = true :=
      ho.imp_right (h.done o)
    have hst : submitStep c q (v.on x.sys) .spawn =
        some { v.on x.sys with submit := .spawning (k + 1) } := by
      simp only [submitStep, hsub, hk, if_pos hcond]
    have hw : Behind v.submit (.spawning (k + 1)) := by
      rw [hv, behind_spawning]
      exact .inr ⟨rfl, Nat.le_succ k⟩
    exact moved_ahead hreach h hj (a := .spawn) trivial hst hmove hw (by simp [hv, phase])
      (by simp)

lemma followed_send {a : ℕ} {o hop : N} (hown : (c.eligible q).Nodup) (hr : WithinTtl c q)
    (hs : x.submit j = .forwarding k a) (hk : (c.eligible q)[k]? = some o) (ho : o ≠ c.gateway)
    (hn : c.overlay.nextHop c.gateway o = .ok hop) (hh : c.overlay.hasNode hop = true) :
    Followed c q { x.put j { x.focus j with
      submit := .awaiting k a x.sys.fwd.length
      fwd := x.sys.fwd ++ [⟨o, false, .at hop 8⟩] } with renewed := false } := by
  have hb := h.tracks.behind j
  rw [hs, behind_forwarding] at hb
  let s' : Sys N Row := { x.focus j with
    submit := .awaiting k a x.sys.fwd.length
    fwd := x.sys.fwd ++ [⟨o, false, .at hop 8⟩] }
  have hmove : Behind (x.submit j) s'.submit := by
    rw [hs, behind_forwarding]
    exact .inr ⟨rfl, Nat.le_succ _⟩
  -- the forward that is sent can reach its owner
  have hnear : Near c o := hr o (List.mem_of_getElem? hk) ho
  have harr : Arrives c s' ⟨o, false, .at hop 8⟩ := (near_iff_first_hop ho hn hh).mp hnear
  have hawait : ∀ k' a' f, s'.submit = .awaiting k' a' f →
      ∃ p, s'.fwd[f]? = some p ∧ (c.eligible q)[k']? = some p.owner ∧ Arrives c s' p := by
    intro k' a' f hs'
    obtain ⟨rfl, -, rfl⟩ := SubmitPc.awaiting.inj hs'
    exact ⟨_, List.getElem?_concat_length, hk, harr⟩
  have hfwd : ∀ (f : ℕ) p, x.sys.fwd[f]? = some p → s'.fwd[f]? = some p := fun f p hp =>
    (List.getElem?_append_left (List.getElem?_eq_some_iff.mp hp).1).trans hp
  have hsent : ∀ {pc}, Behind v.submit pc → Asked pc k → ∀ p ∈ s'.fwd, p.owner ≠ c.gateway ∧
      ∃ k, (c.eligible q)[k]? = some p.owner ∧ Asked pc k := by
    intro pc hw hasked p hp
    rcases List.mem_append.mp hp with hp | hp
    · exact sent_mono h.tracks hw p hp
    · obtain rfl := List.mem_singleton.mp hp
      exact ⟨ho, k, hk, hasked⟩
  have hasked : Asked s'.submit k := .inl ⟨rfl, le_rfl⟩
  by_cases hle : Behind s'.submit v.submit
  · exact ⟨v, hreach, rfl, h.done, h.spare,
      tracks_submit h.tracks hj hmove (.refl _) hle (.inl rfl) h.tracks.begun (fun _ => le_rfl)
        hawait hfwd (hsent (.refl _) (hle.asked hasked)) h.tracks.told,
      pooled_submit h.pooled hmove rfl rfl rfl rfl⟩
  · rw [behind_awaiting] at hle
    obtain ⟨a', hv⟩ := exists_forwarding v.submit (k := k) (by omega) (by omega)
    let w : Single N := { v with
      submit := .awaiting k a' v.fwd.length
      fwd := v.fwd ++ [⟨o, false, .at hop 8⟩] }
    have hsub : (v.on x.sys).submit = .forwarding k a' := hv
    have hst : step c q (v.on x.sys) (.submit .next) = some (w.on s') := by
      simp only [step, submitStep, hsub, hk, if_neg ho, hn, if_pos hh]
      rfl
    have hw : Behind v.submit w.submit := by
      rw [hv, behind_forwarding]
      exact .inr ⟨rfl, Nat.le_succ _⟩
    have hbegun := h.tracks.begun.resolve_left fun hidle => by
      rw [hidle] at hv
      cases hv
    refine ⟨w, .step (a := .submit .next) hreach trivial hst, rfl, h.done, h.spare, ?_,
      pooled_submit h.pooled hmove rfl rfl rfl rfl⟩
    refine tracks_submit h.tracks hj hmove hw (.inr ⟨rfl, le_rfl⟩) (.inr (.inr ⟨rfl, le_rfl⟩))
      (.inr ⟨Nat.le_succ 1, hbegun.2⟩) (fun _ => le_rfl) hawait hfwd
      (hsent hw (.inl ⟨rfl, le_rfl⟩)) fun k' a'' f p hs' hp hpos => ?_
    -- nobody has told the owner before
    obtain ⟨-, -, rfl⟩ := SubmitPc.awaiting.inj hs'
    obtain rfl := Option.some.inj (List.getElem?_concat_length.symm.trans hp)
    obtain ⟨k'', hk'', hasked'⟩ := (onCourse_of_reach hown hr hreach).known o ho hpos
    have hl : IsLane c q o k := ⟨hown, hk, ho⟩
    obtain rfl := hl.eq hk''
    rw [hsub] at hasked'
    simp only [Asked, phase, spot] at hasked'
    omega

lemma followed_spawn {o : N} (hown : (c.eligible q).Nodup) (hr : WithinTtl c q)
    (hs : x.submit j = .spawning k) (hk : (c.eligible q)[k]? = some o) (ho : o ≠ c.gateway) :
    Followed c q { x.put j { (x.focus j).setThread k .starting with
      submit := .spawning (k + 1) } with renewed := false } := by
  have hb := h.tracks.behind j
  rw [hs, behind_spawning] at hb
  have hcourse := onCourse_of_reach hown hr hreach
  have hl : IsLane c q o k := ⟨hown, hk, ho⟩
  let s' : Sys N Row := { (x.focus j).setThread k .starting with submit := .spawning (k + 1) }
  have hmove : Behind (x.submit j) s'.submit := by
    rw [hs, behind_spawning]
    exact .inr ⟨rfl, Nat.le_succ k⟩
  -- the call has no prefetcher of this owner yet
  have habs : x.thread j k = .absent := by
    by_contra hne
    have hp := h.pooled.spawned j k hne
    rw [hs] at hp
    simp only [Passed, phase, spot] at hp
    omega
  have hpooled : ∀ {w : Single N}, (∀ k' ≠ k, w.thread k' = v.thread k') →
      Merged (Spent c q x.sys k) (Function.update (fun j' => x.thread j' k) j .starting)
        (w.thread k) → Pooled c q { x.put j s' with renewed := false } w := by
    intro w hw hm
    refine pooled_put (k := k) h.pooled hmove (fun k' hkk => setThread_ne (x.focus j) hkk _)
      (fun _ => .inl ⟨rfl, Nat.lt_succ_self k⟩) (fun _ => id) hw ?_
    rwa [show s'.thread k = .starting from setThread_self (x.focus j) k .starting]
  by_cases hle : Behind s'.submit v.submit
  · have hthere : v.thread k ≠ .absent := by
      refine hcourse.spawned k o hk ho ?_
      exact hle.passed (.inl ⟨rfl, Nat.lt_succ_self k⟩)
    refine ⟨v, hreach, rfl, h.done, h.spare, ?_, hpooled (fun _ _ => rfl) ?_⟩
    · exact tracks_behind h.tracks hj hmove hle rfl (fun _ => rfl) (by simp)
    · exact (h.pooled.merged k).join habs hthere
  · rw [behind_spawning] at hle
    have hv : v.submit = .spawning k := by
      rw [exists_spawning v.submit (by omega)]
      congr
      omega
    have hnone : v.thread k = .absent :=
      (shape_of_reach hreach).threads.absent_of_spawning hv
    have hflag : (v.on x.sys).gate.clientProducersDone o = false :=
      not_done_of_absent hcourse hl (sound_on hr hreach hl) hnone
    let w : Single N := { v with
      submit := .spawning (k + 1)
      thread := Function.update v.thread k .starting }
    have hsub : (v.on x.sys).submit = .spawning k := hv
    have hst : step c q (v.on x.sys) (.submit .spawn) = some (w.on s') := by
      simp only [step, submitStep, hsub, hk, ho, hflag, false_or, Bool.false_eq_true, if_false]
      rfl
    have hw : Behind v.submit w.submit := by
      rw [hv, behind_spawning]
      exact .inr ⟨rfl, Nat.le_succ k⟩
    have hbegun := h.tracks.begun.resolve_left fun hidle => by
      rw [hidle] at hv
      cases hv
    refine ⟨w, .step (a := .submit .spawn) hreach trivial hst, rfl, h.done, h.spare, ?_,
      hpooled (fun k' hkk => Function.update_of_ne hkk _ _) ?_⟩
    · exact tracks_ahead h.tracks hj hmove hw rfl rfl ⟨by simp [phase], hbegun.2⟩
        (fun _ => le_rfl) (by simp)
    · have hm := h.pooled.merged k
      rw [hnone] at hm
      show Merged _ _ (Function.update v.thread k .starting k)
      rw [Function.update_self]
      exact hm.spawn j

/-- **A step of a `SubmitQuery` is a step of the one that stands for all**, or none. -/
theorem followed_submit {a : SubmitAct} (hown : (c.eligible q).Nodup) (hr : WithinTtl c q)
    (hok : Answered (.submit j a : ReAct N))
    (hharm : a = .register → ¬ Dropped (x.sys.node c.gateway))
    (hst : submitStep c q (x.focus j) a = some s') :
    Followed c q { x.put j s' with renewed := false } := by
  -- an answer to the call is the owner's
  have hansw : ∀ {k a f : ℕ} {o : N} {r : Bool} {code : StatusCode},
      x.submit j = .awaiting k a f → x.sys.fwd[f]? = some ⟨o, r, .answered code⟩ →
      code = .ok := by
    intro k a f o r code hs hf
    obtain ⟨p, hp, -, harr⟩ := h.tracks.awaiting j k a f hs
    obtain rfl := Option.some.inj (hf.symm.trans hp)
    exact harr.1
  cases submits_of_step hst with
  | register hs hrole => exact followed_register hreach h hj hs hrole (hharm rfl)
  | refuse hs =>
    have hs : x.submit j = .idle := hs
    have hb := h.tracks.behind j
    refine moved_behind hreach h hj ?_ ?_ (by simp)
    · rw [hs]
      exact .inr ⟨rfl, le_rfl⟩
    · rw [hs] at hb
      exact hb
  | mark hs => exact followed_mark hreach h hj hown hr hs
  | loopEnd hs hk => exact followed_loopEnd hreach h hj hr hs hk
  | itself hs hk => exact followed_itself hreach h hj hr hs hk
  | throws hs hk ho hn =>
    obtain ⟨hop, hnext, hnode⟩ := hop_of_withinTtl hr (List.mem_of_getElem? hk) ho
    rw [hn hop hnext] at hnode
    cases hnode
  | call hs hk ho hn hh => exact followed_send hreach h hj hown hr hs hk ho hn hh
  | delivered hs hf => exact followed_delivered hreach h hj hr hs hf
  | retry hs hf hc ha =>
    rcases ha with ⟨-, rfl⟩ | rfl
    · exact absurd (hansw hs hf) hc
    · exact hok.elim
  | dead hs hf hc ha =>
    rcases ha with ⟨-, rfl⟩ | rfl
    · exact absurd (hansw hs hf) hc
    · exact hok.elim
  | relayFailed => exact hok.elim
  | spawnEnd hs hk => exact followed_spawnEnd hreach h hj hs hk
  | skip hs hk ho => exact followed_skip hreach h hj hs hk ho
  | spawn hs hk ho => exact followed_spawn hreach h hj hown hr hs hk ho

end Steps

end Mini2.FollowSubmit
