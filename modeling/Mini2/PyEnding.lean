import Mini2.Progress
import Mini2.PyLane

/-!
When a Python gateway ends a query. Its last chunk waits for the other owners only, and its own
partition, once it has been pulled to its end, takes the request out of the table it shares with
the gateway. A gateway that owns no data ends every query after all rows; one that does has to ask
itself in time for the rows of its own, and for their end not before the others have ended.
-/

namespace Mini2.PyEnding

open Mini2.Proto Mini2.Net Mini2.Request Mini2.Producer Mini2.Gather Mini2.GatherSteps
open Mini2.GatherShape Mini2.RoundRobin Mini2.Pipe Mini2.Runs Mini2.Lane Mini2.Progress
open Mini2.PyGateway Mini2.PySteps Mini2.PyLane

variable {N Query Row : Type} [DecidableEq N]

/-- No `FetchChunk` ends without a chunk before the last one has been sent, and with the last one
every matching row of every data owner has been delivered. -/
def EndsWhenDone (c : Config N Query Row) (q : Query) (G : PySys N Row → PyAct N → Prop) : Prop :=
  c.overlay.impl c.gateway = .python →
  ∀ x, Reach (pyStep c q) (fun x a => Reliable x a ∧ G x a) (pyInit N Row) x →
    x.failed = none ∧ (x.ended = true → ∀ o ∈ c.overlay.dataOwners,
      ((c.shard o).matchRows q).Subperm (itemsOf x.sys.log o))

/-- The gateway owns no data, or none of its rows is left to be made or taken. -/
def OwnExhausted (c : Config N Query Row) (q : Query) (s : Sys N Row) : Prop :=
  c.gateway ∈ c.overlay.dataOwners → Exhausted (c.shard c.gateway) q (s.node c.gateway)

/-- The gateway holds rows for the client, or another owner has rows that have not come. -/
def MoreToCome (c : Config N Query Row) (q : Query) (x : PySys N Row) : Prop :=
  x.buffer ≠ [] ∨ ∃ o ∈ c.overlay.dataOwners, o ≠ c.gateway ∧
    itemsOf (x.sys.log ++ x.buffer) o ≠ (c.shard o).matchRows q

/-- A `FetchChunk` can do without rows of its own partition. -/
def Spared (c : Config N Query Row) (q : Query) (x : PySys N Row) : Prop :=
  OwnExhausted c q x.sys ∨ MoreToCome c q x

/-- Only the gateway's own partition can have more for the client. -/
def OthersOver (c : Config N Query Row) (x : PySys N Row) : Prop :=
  othersDone c x.sys = true ∧ x.buffer = []

/-- A `FetchChunk` that cannot do without rows of its own partition asks for at least one row, has
itself on its list, gets to itself within its time and finds rows buffered; and its own `PullChunk`
finds the end of the partition only when the others are over. -/
def Careful (c : Config N Query Row) (q : Query) (x : PySys N Row) : PyAct N → Prop
  | .fetch (.start t₁ t₂ maxRows) =>
    c.gateway ∈ rotated c.overlay.dataOwners t₁ t₂ ∧ 0 < maxRows ∨ Spared c q x
  | .fetch (.next true) => c.gateway ∈ left x.fetch → Spared c q x
  | .pull i (.pop maxRows) => ∀ p ∈ x.sys.pull[i]?, p.owner = c.gateway →
    0 < maxRows ∧ (x.sys.self c).matched ≠ [] ∨ Spared c q x
  | .pull i .load => ∀ p ∈ x.sys.pull[i]?, p.owner = c.gateway → stageRows p.stage = [] →
    (x.sys.self c).doneProducing = true → (x.sys.self c).matched = [] → OthersOver c x
  | _ => True

section Decidable

variable [DecidableEq Row] (c : Config N Query Row) (q : Query) (x : PySys N Row)

instance : Decidable (Spared c q x) := by
  unfold Spared OwnExhausted Exhausted MoreToCome
  infer_instance

instance : Decidable (OthersOver c x) := by
  unfold OthersOver
  infer_instance

instance (a : PyAct N) : Decidable (Careful c q x a) :=
  match a with
  | .fetch (.start t₁ t₂ maxRows) => inferInstanceAs (Decidable
      (c.gateway ∈ rotated c.overlay.dataOwners t₁ t₂ ∧ 0 < maxRows ∨ Spared c q x))
  | .fetch (.next true) => inferInstanceAs (Decidable (c.gateway ∈ left x.fetch → Spared c q x))
  | .pull i (.pop maxRows) => inferInstanceAs (Decidable
      (∀ p ∈ x.sys.pull[i]?, p.owner = c.gateway →
        0 < maxRows ∧ (x.sys.self c).matched ≠ [] ∨ Spared c q x))
  | .pull i .load => inferInstanceAs (Decidable
      (∀ p ∈ x.sys.pull[i]?, p.owner = c.gateway → stageRows p.stage = [] →
        (x.sys.self c).doneProducing = true → (x.sys.self c).matched = [] → OthersOver c x))
  | .submit _ | .forward _ | .produce _ _ | .pull _ .handle | .pull _ .decide | .pull _ .reply
  | .pull _ .unschedule | .fetch (.next false) | .fetch .receive | .fetch .failed | .fetch .emit
  | .fetch .unschedule => .isTrue trivial

end Decidable

/-! ### A FetchChunk and its own partition -/

/-- The rest of a round has the gateway in it, or can do without. -/
def Due (c : Config N Query Row) (q : Query) (x : PySys N Row) (m : ℕ) (rest : List N) : Prop :=
  c.gateway ∈ rest ∧ 0 < m ∨ x.sys.gate.clientProducersDone c.gateway = true ∨ Spared c q x

/-- What the gateway's answer to itself brings. -/
def Answer (c : Config N Query Row) (q : Query) (x : PySys N Row) (out : List Row) :
    Bool → Prop
  | true => out = [] ∧ OthersOver c x
  | false => out ≠ [] ∨ Spared c q x

/-- What a call of the gateway to itself has brought so far. -/
def OwnCall (c : Config N Query Row) (q : Query) (x : PySys N Row) : PullStage N Row → Prop
  | .at _ => True
  | .found g => g = 0
  | .popped g out => g = 0 ∧ (out ≠ [] ∨ Spared c q x)
  | .loaded g out d => g = 0 ∧ (out ≠ [] ∨ Spared c q x) ∧
      (d = true → out = [] → (x.sys.self c).matched = [] → OthersOver c x)
  | .decided _ out isLast => Answer c q x out isLast
  | .dropping out => Answer c q x out true
  | .replied code out isLast => code = .ok → Answer c q x out isLast

/-- The call has taken the request out of the table. -/
def dropped : PullStage N Row → Bool
  | .dropping _ => true
  | .replied code _ isLast => code = .ok && isLast
  | _ => false

/-- `FetchChunk` has got the end of its own partition after that of the others. -/
structure Heard (c : Config N Query Row) (x : PySys N Row) : Prop where
  round : ∃ g m rest, x.fetch = .round g m rest
  others : OthersOver c x
  own : x.sys.gate.clientProducersDone c.gateway = true

/-- A `FetchChunk` under way asks for the rows of its own partition where it needs them, and the
request is gone from the table only when it is about to end. -/
structure Orderly (c : Config N Query Row) (q : Query) (x : PySys N Row) : Prop where
  round : ∀ g m rest, x.fetch = .round g m rest → Due c q x m rest
  other : ∀ g m o rest i, x.fetch = .pulling g m o rest i → o ≠ c.gateway → Due c q x m rest
  own : ∀ i stage, Waits x.fetch c.gateway i → x.sys.pull[i]? = some ⟨c.gateway, stage⟩ →
    OwnCall c q x stage
  gone : (x.sys.node c.gateway).table = none → 0 < (x.sys.node c.gateway).gens →
    Heard c x ∨ ∃ i stage, Waits x.fetch c.gateway i ∧
      x.sys.pull[i]? = some ⟨c.gateway, stage⟩ ∧ dropped stage = true

variable {c : Config N Query Row} {q : Query} {x x' : PySys N Row} {s' : Sys N Row}

lemma Spared.mono (h : Spared c q x)
    (hgrows : Grows (x.sys.node c.gateway) (x'.sys.node c.gateway))
    (hmore : MoreToCome c q x → MoreToCome c q x') : Spared c q x' :=
  h.imp (fun hown hmem => (hown hmem).mono hgrows) hmore

lemma Due.mono {m : ℕ} {rest : List N} (h : Due c q x m rest)
    (hdone : x.sys.gate.clientProducersDone c.gateway = true →
      x'.sys.gate.clientProducersDone c.gateway = true)
    (hspared : Spared c q x → Spared c q x') : Due c q x' m rest :=
  h.imp_right fun h => h.imp hdone hspared

lemma Answer.mono {out : List Row} {isLast : Bool} (h : Answer c q x out isLast)
    (hover : OthersOver c x → OthersOver c x') (hspared : Spared c q x → Spared c q x') :
    Answer c q x' out isLast := by
  cases isLast with
  | true => exact h.imp_right hover
  | false => exact h.imp_right hspared

lemma OwnCall.mono {stage : PullStage N Row} (h : OwnCall c q x stage)
    (hover : OthersOver c x → OthersOver c x') (hspared : Spared c q x → Spared c q x')
    (hmatched : (x'.sys.self c).matched = [] → (x.sys.self c).matched = []) :
    OwnCall c q x' stage := by
  cases stage with
  | «at» n => trivial
  | found g => exact h
  | popped g out => exact ⟨h.1, h.2.imp_right hspared⟩
  | loaded g out d =>
    obtain ⟨h0, hout, hd⟩ := h
    exact ⟨h0, hout.imp_right hspared, fun hdone hnil hm => hover (hd hdone hnil (hmatched hm))⟩
  | decided g out isLast => exact Answer.mono h hover hspared
  | dropping out =>
    have hans : Answer c q x out true := h
    exact hans.mono hover hspared
  | replied code out isLast => exact fun hc => Answer.mono (h hc) hover hspared

/-- A step of a node that leaves what the gateway has, and its own calls, as they are. -/
lemma Orderly.frame (h : Orderly c q x) (hlog : s'.log = x.sys.log) (hgate : s'.gate = x.sys.gate)
    (hgrows : Grows (x.sys.node c.gateway) (s'.node c.gateway))
    (htable : (s'.node c.gateway).table = (x.sys.node c.gateway).table)
    (hgens : (s'.node c.gateway).gens = (x.sys.node c.gateway).gens)
    (hmatched : x.fetch ≠ .idle → (s'.self c).matched = [] → (x.sys.self c).matched = [])
    (hpull : ∀ i, Waits x.fetch c.gateway i → s'.pull[i]? = x.sys.pull[i]?) :
    Orderly c q { x with sys := s' } := by
  have hspared : Spared c q x → Spared c q { x with sys := s' } := fun hs =>
    hs.mono hgrows fun hm => by
      unfold MoreToCome at hm ⊢
      rwa [hlog]
  have hover : OthersOver c x → OthersOver c { x with sys := s' } := by
    unfold OthersOver othersDone
    rw [hgate]
    exact id
  have hdue : ∀ {m : ℕ} {rest : List N}, Due c q x m rest → Due c q { x with sys := s' } m rest :=
    fun hd => hd.mono (fun hdone => by rwa [hgate]) hspared
  refine ⟨fun g m rest hf => hdue (h.round g m rest hf),
    fun g m o rest i hf ho => hdue (h.other g m o rest i hf ho), fun i stage hw hp => ?_,
    fun ht hg => ?_⟩
  · refine (h.own i stage hw ((hpull i hw).symm.trans hp)).mono hover hspared (hmatched ?_)
    obtain ⟨g, m, rest, hf⟩ : Waits x.fetch c.gateway i := hw
    simp [hf]
  · refine (h.gone (htable.symm.trans ht) (hgens ▸ hg)).imp (fun hh => ?_) ?_
    · exact ⟨hh.round, hover hh.others, by rw [hgate]; exact hh.own⟩
    · rintro ⟨i, stage, hw, hp, hd⟩
      exact ⟨i, stage, hw, (hpull i hw).trans hp, hd⟩

structure Open (c : Config N Query Row) (q : Query) (x : PySys N Row) : Prop where
  fetch : x.fetch ≠ .dropping
  ended : x.ended = false
  failed : x.failed = none
  live : Uncancelled x.sys
  noCancel : x.sys.cancel = []
  orderly : Orderly c q x
  lanes : ∀ o ∈ c.overlay.dataOwners, Laned c q x o

/-- The last chunk has been decided on. -/
structure Over (c : Config N Query Row) (q : Query) (x : PySys N Row) : Prop where
  returned : x.sys.submit = .returned
  fetch : x.fetch = .dropping ∨ x.fetch = .idle ∧ x.ended = true
  failed : x.failed = none
  table : (x.sys.node c.gateway).table = none
  rows : ∀ o ∈ c.overlay.dataOwners, itemsOf x.sys.log o = (c.shard o).matchRows q

/-! ### The last chunk -/

lemma rows_of_done {o : N} {v : View N Row}
    (hrows : (c.shard o).matchRows q ≠ [] → Served c o)
    (hsound : Sound c q o (Served c o) v) (honce : Once (c.shard o) q v) (hd : v.done = true) :
    v.log = (c.shard o).matchRows q := by
  have hsub := honce.log_sublist
  by_cases hm : (c.shard o).matchRows q = []
  · rw [hm] at hsub ⊢
    exact List.sublist_nil.mp hsub
  · exact hsub.antisymm (hsound.complete hd (.inl (hrows hm)))

lemma rows_of_exhausted {o : N} {v : View N Row} (hsound : Sound c q o (Served c o) v)
    (honce : Once (c.shard o) q v) (hseen : Seen x o v) (hret : x.sys.submit = .returned)
    (hf : ∀ g m rest i, x.fetch ≠ .pulling g m o rest i)
    (hex : Exhausted (c.shard o) q (x.sys.node o)) : v.log = (c.shard o).matchRows q := by
  have hout : v.out = v.log := by
    unfold View.out
    rw [hseen.slot, reply_eq_nil, List.append_nil, List.append_nil]
    intro i hi
    cases hd : v.done with
    | true =>
      rcases (hsound.done hd).2.1 with ht | ht <;> rw [hi] at ht <;> cases ht
    | false =>
      rw [hseen.thread hret hd, pcOf_eq_waiting hf] at hi
      cases hi
  rw [← hseen.entry] at hex
  exact honce.log_sublist.antisymm (complete_of_exhausted hsound.entry hsound.lost hex hout)

lemma rows_of_last (h : PyShape c q x) (ho : Open c q x) {g m : ℕ} (hf : x.fetch = .round g m [])
    (hd : othersDone c x.sys = true) (hb : x.buffer = [])
    (hrows : ∀ o ∈ c.overlay.dataOwners, (c.shard o).matchRows q ≠ [] → Served c o) :
    ∀ o ∈ c.overlay.dataOwners, itemsOf x.sys.log o = (c.shard o).matchRows q := by
  have hlog : ∀ {o : N} {v : View N Row}, Seen x o v → itemsOf x.sys.log o = v.log := by
    intro o v hseen
    rw [hseen.log, hb, List.append_nil]
  have hother : ∀ o ∈ c.overlay.dataOwners, o ≠ c.gateway →
      itemsOf x.sys.log o = (c.shard o).matchRows q := by
    intro o hmem hg
    obtain ⟨v, hseen, hsound, honce⟩ := ho.lanes o hmem
    have hdone : x.sys.gate.clientProducersDone o = true := by
      have := List.all_eq_true.mp hd o hmem
      simpa [hg] using this
    rw [hlog hseen]
    exact rows_of_done (hrows o hmem) hsound honce (hseen.done.trans hdone)
  intro o hmem
  by_cases hg : o = c.gateway
  case neg => exact hother o hmem hg
  subst hg
  obtain ⟨v, hseen, hsound, honce⟩ := ho.lanes c.gateway hmem
  rw [hlog hseen]
  rcases ho.orderly.round g m [] hf with ⟨hin, -⟩ | hdone | hex | hne | ⟨o, ho', hg, hne⟩
  · cases hin
  · exact rows_of_done (hrows c.gateway hmem) hsound honce (hseen.done.trans hdone)
  · exact rows_of_exhausted hsound honce hseen (h.returned (by simp [hf])) (by simp [hf])
      (hex hmem)
  · exact absurd hb hne
  · rw [hb, List.append_nil] at hne
    exact absurd (hother o ho' hg) hne

/-! ### One step of a node -/

lemma open_submit {a : PySubmitAct} (h : PyShape c q x) (ho : Open c q x)
    (hst : PySubmits c q x.sys a s') (hnf : a ≠ .failed) (hnr : a ≠ .relayFailed) :
    Open c q { x with sys := s' } where
  fetch := ho.fetch
  ended := ho.ended
  failed := ho.failed
  live := by
    cases hst with
    | register => exact ho.live.setNode (registerRequest_cancelled (ho.live c.gateway))
    | _ => exact ho.live
  noCancel := by cases hst <;> exact ho.noCancel
  orderly := by
    have hf := (h.early_of_submits hst).1
    refine ⟨fun g m rest hf' => ?_, fun g m o rest i hf' => ?_, fun i stage hw => ?_,
      fun ht hg => ?_⟩
    · cases hf.symm.trans hf'
    · cases hf.symm.trans hf'
    · obtain ⟨g, m, rest, hf'⟩ := hw
      cases hf.symm.trans hf'
    · have hnode : s'.node = x.sys.node := by
        refine (submits_node hst).resolve_right ?_
        rintro ⟨-, -, hn⟩
        have ht' : (s'.node c.gateway).table = none := ht
        rw [hn, Function.update_self] at ht'
        exact registerRequest_table _ _ _ _ ht'
      have hgone := ho.orderly.gone (by rw [← hnode]; exact ht) (by rw [← hnode]; exact hg)
      rcases hgone with ⟨⟨g, m, rest, hf'⟩, -, -⟩ | ⟨i, stage, ⟨g, m, rest, hf'⟩, -⟩ <;>
        cases hf.symm.trans hf'
  lanes o hmem := laned_submit h hst hnf hnr hmem (ho.lanes o hmem)

lemma Open.advance (ho : Open c q x) {a : Act N} (hst : Steps c q x.sys a s')
    (hcancel : s'.cancel = x.sys.cancel) (horderly : Orderly c q { x with sys := s' })
    (hl : ∀ o ∈ c.overlay.dataOwners, Laned c q { x with sys := s' } o) :
    Open c q { x with sys := s' } where
  fetch := ho.fetch
  ended := ho.ended
  failed := ho.failed
  live := uncancelled_step ho.noCancel hst ho.live
  noCancel := hcancel.trans ho.noCancel
  orderly := horderly
  lanes := hl

lemma Orderly.same (h : Orderly c q x) (hlog : s'.log = x.sys.log) (hgate : s'.gate = x.sys.gate)
    (hnode : s'.node c.gateway = x.sys.node c.gateway)
    (hpull : ∀ i, Waits x.fetch c.gateway i → s'.pull[i]? = x.sys.pull[i]?) :
    Orderly c q { x with sys := s' } := by
  refine h.frame hlog hgate ?_ (by rw [hnode]) (by rw [hnode]) (fun _ hm => ?_) hpull
  · rw [hnode]
    exact .refl _
  · unfold Sys.self at hm ⊢
    rwa [hnode] at hm

lemma open_forward {f : ℕ} (h : PyShape c q x) (ho : Open c q x)
    (hst : forwardStep c q x.sys f = some s') : Open c q { x with sys := s' } := by
  have hfwd : GatherSteps.Forwards c q x.sys f s' := forwards_of_step hst
  have hnode : s'.node c.gateway = x.sys.node c.gateway := by
    cases hfwd with
    | @register o r ttl hf =>
      exact setNode_ne x.sys (h.fwd _ (List.mem_of_getElem? hf)).2.1.symm _
    | _ => rfl
  refine ho.advance (.forward hfwd) (by cases hfwd <;> rfl) ?_ fun o hmem =>
    laned_forward h hst hmem (ho.lanes o hmem)
  refine ho.orderly.same ?_ ?_ hnode fun i _ => ?_ <;> cases hfwd <;> rfl

lemma open_produce {n : N} {a : ProdAct} {e : Entry Row} (h : PyShape c q x) (ho : Open c q x)
    (hst : prodStep (c.shard n) (c.overlay.impl n) c.overlay.maxRows (x.sys.node n) a = some e) :
    Open c q { x with sys := x.sys.setNode n e } := by
  refine ho.advance (.produce hst) rfl ?_ fun o hmem => laned_produce h hst hmem (ho.lanes o hmem)
  by_cases hn : c.gateway = n
  · subst hn
    have hmakes := (prodStep_spec (h.entries c.gateway) hst).2
    refine ho.orderly.frame rfl rfl ?_ ?_ ?_ (fun hf hm => ?_) fun _ _ => rfl
    · rw [setNode_self]
      exact grows_makes hmakes
    · rw [setNode_self]
      exact hmakes.table
    · rw [setNode_self]
      exact hmakes.gens
    · -- the producer takes nothing off the buffer
      have hpos : 0 < (x.sys.node c.gateway).gens := h.registered (by rw [h.returned hf]; rfl)
      unfold Sys.self at hm ⊢
      rw [setNode_self] at hm
      rcases hmakes.made 0 hpos with ⟨-, hsame⟩ | ⟨r, -, -, hpush, -⟩
      · rwa [hsame] at hm
      · simp [hpush] at hm
  · exact ho.orderly.same rfl rfl (setNode_ne _ hn _) fun _ _ => rfl

lemma waits_of_pulls (h : PyShape c q x) {i : ℕ} {a : PullAct} (hst : Pulls c x.sys i a s') :
    ∃ g m o rest, x.fetch = .pulling g m o rest i := by
  obtain ⟨o, stage, stage', hp, hopen, -⟩ := pulls_set hst
  rcases h.calls i o stage hp with ⟨code, out, isLast, hs⟩ | ⟨g, m, rest, hw⟩
  · exact absurd hs (hopen code out isLast)
  · exact ⟨g, m, o, rest, hw⟩

lemma orderly_of_own {g m i : ℕ} {rest : List N} {stage : PullStage N Row}
    (hf : x'.fetch = .pulling g m c.gateway rest i)
    (hp : x'.sys.pull[i]? = some ⟨c.gateway, stage⟩) (hcall : OwnCall c q x' stage)
    (hgone : (x'.sys.node c.gateway).table = none → 0 < (x'.sys.node c.gateway).gens →
      dropped stage = true) : Orderly c q x' where
  round g' m' rest' hf' := by cases hf.symm.trans hf'
  other g' m' o rest' i' hf' ho := by
    obtain ⟨-, -, rfl, -, -⟩ := PyFetch.pulling.inj (hf.symm.trans hf')
    exact absurd rfl ho
  own i' stage' hw hp' := by
    obtain ⟨g', m', rest', hf'⟩ := hw
    obtain ⟨-, -, -, -, rfl⟩ := PyFetch.pulling.inj (hf.symm.trans hf')
    obtain ⟨-, rfl⟩ := PullCall.mk.inj (Option.some.inj (hp.symm.trans hp'))
    exact hcall
  gone ht hg := .inr ⟨i, stage, ⟨g, m, rest, hf⟩, hp, hgone ht hg⟩

/-- While the gateway waits for its own call, that call has dropped the request, if any has. -/
lemma Orderly.dropped (h : Orderly c q x) {g m i : ℕ} {rest : List N} {stage : PullStage N Row}
    (hf : x.fetch = .pulling g m c.gateway rest i)
    (hp : x.sys.pull[i]? = some ⟨c.gateway, stage⟩)
    (ht : (x.sys.node c.gateway).table = none) (hg : 0 < (x.sys.node c.gateway).gens) :
    PyEnding.dropped stage = true := by
  rcases h.gone ht hg with ⟨⟨g', m', rest', hf'⟩, -, -⟩ |
    ⟨i', stage', ⟨g', m', rest', hf'⟩, hp', hd⟩
  · cases hf.symm.trans hf'
  · obtain ⟨-, -, -, -, rfl⟩ := PyFetch.pulling.inj (hf.symm.trans hf')
    obtain ⟨-, rfl⟩ := PullCall.mk.inj (Option.some.inj (hp.symm.trans hp'))
    exact hd

lemma orderly_ownPull {g m i : ℕ} {rest : List N} {a : PullAct} (h : PyShape c q x)
    (ho : Orderly c q x) (hf : x.fetch = .pulling g m c.gateway rest i)
    (hc : Careful c q x (.pull i a)) (hst : Pulls c x.sys i a s') :
    Orderly c q { x with sys := s' } := by
  have hself : ∀ {o : N} {stage : PullStage N Row}, x.sys.pull[i]? = some ⟨o, stage⟩ →
      o = c.gateway := fun hp => h.call_owner hf hp
  have hown : ∀ {stage : PullStage N Row}, x.sys.pull[i]? = some ⟨c.gateway, stage⟩ →
      OwnCall c q x stage := fun hp => ho.own i _ ⟨g, m, rest, hf⟩ hp
  have hset : ∀ {s : Sys N Row} {o : N} {stage stage' : PullStage N Row}, s.pull = x.sys.pull →
      x.sys.pull[i]? = some ⟨o, stage⟩ →
      (s.setPull i ⟨c.gateway, stage'⟩).pull[i]? = some ⟨c.gateway, stage'⟩ := by
    intro s o stage stage' hs hp
    have hlt := (List.getElem?_eq_some_iff.mp hp).1
    exact List.getElem?_set_self (hs ▸ hlt)
  -- only a call that drops the request finds it gone
  have hkeep : ∀ {stage : PullStage N Row} {P : Prop},
      x.sys.pull[i]? = some ⟨c.gateway, stage⟩ → PyEnding.dropped stage = false →
      (x.sys.node c.gateway).table = none → 0 < (x.sys.node c.gateway).gens → P := by
    intro stage P hp hd ht hg
    have := ho.dropped hf hp ht hg
    rw [hd] at this
    cases this
  cases hst with
  | relay hp =>
    obtain rfl := hself hp
    exact orderly_of_own hf (hset rfl hp) trivial (hkeep hp rfl)
  | noRoute hp hh hn hcode =>
    obtain rfl := hself hp
    exact orderly_of_own hf (hset rfl hp) (fun hok => absurd hok hcode) (hkeep hp rfl)
  | missing hp =>
    obtain rfl := hself hp
    exact orderly_of_own hf (hset rfl hp) (fun hok => by cases hok) (hkeep hp rfl)
  | @found o g' hp ht =>
    obtain rfl := hself hp
    have hgens := (h.entries c.gateway).table g' ht
    have honce := h.once
    refine orderly_of_own hf (hset rfl hp) ?_ (hkeep hp rfl)
    show g' = 0
    omega
  | @pop o g' hp maxRows =>
    obtain rfl := hself hp
    obtain rfl : g' = 0 := hown hp
    have hnode : ((x.sys.setNode c.gateway ((x.sys.node c.gateway).pop 0 maxRows.toNat)).node
        c.gateway) = (x.sys.node c.gateway).pop 0 maxRows.toNat := setNode_self _ _ _
    refine orderly_of_own hf (hset rfl hp) ⟨rfl, ?_⟩ fun ht hg => ?_
    · rcases hc _ hp rfl with ⟨hmax, hne⟩ | hspared
      · left
        have hpos : maxRows.toNat ≠ 0 := by omega
        show ((x.sys.node c.gateway).obj 0).matched.take maxRows.toNat ≠ []
        rw [Ne, List.take_eq_nil_iff, not_or]
        exact ⟨hpos, hne⟩
      · right
        refine hspared.mono ?_ id
        show Grows _ ((x.sys.setNode _ _).node c.gateway)
        rw [hnode]
        exact grows_pop 0 _
    · have ht' : ((x.sys.setNode _ _).node c.gateway).table = none := ht
      have hg' : 0 < ((x.sys.setNode _ _).node c.gateway).gens := hg
      rw [hnode] at ht' hg'
      exact hkeep hp rfl ht' hg'
  | @load o g' out hp =>
    obtain rfl := hself hp
    obtain ⟨rfl, hout⟩ := hown hp
    refine orderly_of_own hf (hset rfl hp) ⟨rfl, hout, fun hd hnil hm => ?_⟩ (hkeep hp rfl)
    exact hc _ hp rfl hnil hd hm
  | @decide o g' out d hp =>
    obtain rfl := hself hp
    obtain ⟨rfl, hout, hover⟩ := hown hp
    refine orderly_of_own hf (hset rfl hp) ?_ (hkeep hp rfl)
    show Answer c q _ out _
    cases hl : d && ((x.sys.node c.gateway).obj 0).matched.isEmpty && out.isEmpty with
    | true =>
      simp only [Bool.and_eq_true, List.isEmpty_iff] at hl
      exact ⟨hl.2, hover hl.1.1 hl.2 hl.1.2⟩
    | false => exact hout
  | more hp =>
    obtain rfl := hself hp
    exact orderly_of_own hf (hset rfl hp) (fun _ => hown hp) (hkeep hp rfl)
  | last hp hi =>
    obtain rfl := hself hp
    exact orderly_of_own hf (hset rfl hp) (fun _ => hown hp) fun _ _ => rfl
  | erase hp hi =>
    obtain rfl := hself hp
    exact orderly_of_own hf (hset rfl hp) (hown hp) fun _ _ => rfl
  | unschedule hp =>
    obtain rfl := hself hp
    exact orderly_of_own hf (hset rfl hp) (fun _ => hown hp) fun _ _ => rfl

lemma open_pull {i : ℕ} {a : PullAct} (h : PyShape c q x) (ho : Open c q x)
    (hc : Careful c q x (.pull i a)) (hst : Pulls c x.sys i a s') :
    Open c q { x with sys := s' } := by
  have hframe := pulls_frame hst
  obtain ⟨g, m, o, rest, hf⟩ := waits_of_pulls h hst
  refine ho.advance (.pull hst) (by rw [hframe]) ?_ fun o hmem =>
    laned_pull h hst hmem (ho.lanes o hmem)
  by_cases hg : o = c.gateway
  · subst hg
    exact orderly_ownPull h ho.orderly hf hc hst
  · obtain ⟨-, -, stage, hp⟩ := h.waits o i ⟨g, m, rest, hf⟩
    refine ho.orderly.same (by rw [hframe]) (by rw [hframe]) (pulls_node hst hp (Ne.symm hg)) ?_
    rintro i' ⟨g', m', rest', hf'⟩
    obtain ⟨-, -, rfl, -, -⟩ := PyFetch.pulling.inj (hf.symm.trans hf')
    exact absurd rfl hg

/-! ### One step of FetchChunk -/

lemma orderly_of_round {g m : ℕ} {rest : List N} (hf : x'.fetch = .round g m rest)
    (hdue : Due c q x' m rest) (hgone : (x'.sys.node c.gateway).table = none →
      0 < (x'.sys.node c.gateway).gens → Heard c x') : Orderly c q x' where
  round g' m' rest' hf' := by
    obtain ⟨-, rfl, rfl⟩ := PyFetch.round.inj (hf.symm.trans hf')
    exact hdue
  other g' m' o rest' i hf' := by cases hf.symm.trans hf'
  own i stage hw := absurd hw (not_waits (by simp [hf]) c.gateway i)
  gone ht hg := .inl (hgone ht hg)

lemma Orderly.heard (h : Orderly c q x) {g m : ℕ} {rest : List N} (hf : x.fetch = .round g m rest)
    (ht : (x.sys.node c.gateway).table = none) (hg : 0 < (x.sys.node c.gateway).gens) :
    Heard c x := by
  refine (h.gone ht hg).resolve_right ?_
  rintro ⟨i, stage, hw, -⟩
  exact not_waits (by simp [hf]) c.gateway i hw

lemma Orderly.live (h : Orderly c q x) (hf : x.fetch = .idle)
    (hg : 0 < (x.sys.node c.gateway).gens) : (x.sys.node c.gateway).table ≠ none := by
  intro ht
  rcases h.gone ht hg with ⟨⟨g, m, rest, hf'⟩, -, -⟩ | ⟨i, stage, ⟨g, m, rest, hf'⟩, -⟩ <;>
    cases hf.symm.trans hf'

lemma orderly_stop {late : Bool} {g m : ℕ} {o : N} {rest : List N} (ho : Open c q x)
    (hc : Careful c q x (.fetch (.next late))) (hf : x.fetch = .round g m (o :: rest))
    (hw : ((x.sys.node c.gateway).obj g).cancelled = true ∨ m ≤ x.buffer.length ∨ late = true) :
    Orderly c q { x with fetch := .round g m [] } := by
  refine orderly_of_round rfl (.inr ?_) fun ht hg => ?_
  · rcases ho.orderly.round g m _ hf with ⟨hmem, hpos⟩ | hdue
    · rcases hw with hcancel | hfull | rfl
      · rw [ho.live] at hcancel
        cases hcancel
      · -- the buffer has a whole chunk
        have hne : x.buffer ≠ [] := by
          rintro hnil
          rw [hnil, List.length_nil] at hfull
          omega
        exact .inr (.inr (.inl hne))
      · have hleft : left x.fetch = o :: rest := by simp [hf, left]
        exact .inr (hc (hleft ▸ hmem))
    · exact hdue
  · have hh := ho.orderly.heard hf ht hg
    exact ⟨⟨g, m, [], rfl⟩, hh.others, hh.own⟩

lemma orderly_skip {g m : ℕ} {o : N} {rest : List N} (ho : Orderly c q x)
    (hf : x.fetch = .round g m (o :: rest)) (hd : x.sys.gate.clientProducersDone o = true) :
    Orderly c q { x with fetch := .round g m rest } := by
  refine orderly_of_round rfl ?_ fun ht hg => ?_
  · rcases ho.round g m _ hf with ⟨hmem, hpos⟩ | hdue
    · rcases List.mem_cons.mp hmem with rfl | hrest
      · exact .inr (.inl hd)
      · exact .inl ⟨hrest, hpos⟩
    · exact .inr hdue
  · have hh := ho.heard hf ht hg
    exact ⟨⟨g, m, rest, rfl⟩, hh.others, hh.own⟩

lemma orderly_issue {g m : ℕ} {o hop : N} {rest : List N} (h : PyShape c q x)
    (ho : Orderly c q x) (hf : x.fetch = .round g m (o :: rest))
    (hd : x.sys.gate.clientProducersDone o = false) : Orderly c q { x with
      sys := { x.sys with pull := x.sys.pull ++ [⟨o, .at hop⟩] }
      fetch := .pulling g m o rest x.sys.pull.length } := by
  have hlast : (x.sys.pull ++ [(⟨o, .at hop⟩ : PullCall N Row)])[x.sys.pull.length]? =
      some ⟨o, .at hop⟩ := by simp
  -- a round in which the request is gone asks nobody
  have hgone : (x.sys.node c.gateway).table = none → 0 < (x.sys.node c.gateway).gens → False := by
    intro ht hg
    have hh := ho.heard hf ht hg
    have hmem : o ∈ c.overlay.dataOwners := h.left o (by simp [hf, PySteps.left])
    have hall := List.all_eq_true.mp hh.others.1 o hmem
    rw [hd, Bool.or_false, decide_eq_true_iff] at hall
    rw [hall, hh.own] at hd
    cases hd
  by_cases hg : o = c.gateway
  · subst hg
    exact orderly_of_own rfl hlast trivial fun ht hg => (hgone ht hg).elim
  · refine ⟨fun g' m' rest' hf' => ?_, fun g' m' o' rest' i hf' _ => ?_, fun i stage hw _ => ?_,
      fun ht hg => (hgone ht hg).elim⟩
    · cases hf'
    · obtain ⟨-, rfl, -, rfl, -⟩ := PyFetch.pulling.inj hf'
      refine (ho.round g m _ hf).imp_left fun hround => ⟨?_, hround.2⟩
      exact (List.mem_cons.mp hround.1).resolve_left (Ne.symm hg)
    · obtain ⟨g', m', rest', hf'⟩ := hw
      obtain ⟨-, -, rfl, -, -⟩ := PyFetch.pulling.inj hf'
      exact absurd rfl hg

lemma MoreToCome.receive (hmore : MoreToCome c q x) {o : N} {out : List Row}
    (hlog : x'.sys.log = x.sys.log) (hbuf : x'.buffer = x.buffer ++ out.map (o, ·)) :
    MoreToCome c q x' := by
  by_cases hout : out = []
  · subst hout
    rw [List.map_nil, List.append_nil] at hbuf
    unfold MoreToCome at hmore ⊢
    rwa [hlog, hbuf]
  · left
    rw [hbuf]
    simp [hout]

lemma done_markDone {s : Sys N Row} {o o' : N} (h : s.gate.clientProducersDone o' = true) :
    (s.markDone o).gate.clientProducersDone o' = true := by
  by_cases ho : o' = o
  · subst ho
    exact Function.update_self ..
  · exact (Function.update_of_ne ho _ _).trans h

lemma done_mark {s : Sys N Row} {o o' : N} {isLast : Bool}
    (h : s.gate.clientProducersDone o' = true) :
    (if isLast then s.markDone o else s).gate.clientProducersDone o' = true := by
  cases isLast with
  | false => exact h
  | true => exact done_markDone h

lemma othersDone_mark {s : Sys N Row} {o : N} {isLast : Bool} (h : othersDone c s = true) :
    othersDone c (if isLast then s.markDone o else s) = true := by
  refine List.all_eq_true.mpr fun o' ho' => ?_
  have hold := List.all_eq_true.mp h o' ho'
  rw [Bool.or_eq_true] at hold ⊢
  exact hold.imp_right done_mark

lemma orderly_receive {g m i : ℕ} {o : N} {rest : List N} {out : List Row} {isLast : Bool}
    (ho : Orderly c q x) (hf : x.fetch = .pulling g m o rest i)
    (hp : x.sys.pull[i]? = some ⟨o, .replied .ok out isLast⟩) : Orderly c q { x with
      sys := if isLast then x.sys.markDone o else x.sys
      buffer := x.buffer ++ out.map (o, ·)
      fetch := .round g m rest } := by
  have hnode : (if isLast then x.sys.markDone o else x.sys).node = x.sys.node := by
    cases isLast <;> rfl
  have hlog : (if isLast then x.sys.markDone o else x.sys).log = x.sys.log := by
    cases isLast <;> rfl
  have hspared : Spared c q x → Spared c q { x with
      sys := if isLast then x.sys.markDone o else x.sys
      buffer := x.buffer ++ out.map (o, ·)
      fetch := .round g m rest } := fun hs =>
    hs.mono (by rw [hnode]; exact .refl _) fun hm => hm.receive hlog rfl
  refine orderly_of_round rfl ?_ fun ht hg => ?_
  · by_cases hog : o = c.gateway
    · subst hog
      have hans : Answer c q x out isLast := ho.own i _ ⟨g, m, rest, hf⟩ hp rfl
      cases isLast with
      | true => exact .inr (.inl (Function.update_self ..))
      | false =>
        refine .inr (.inr ?_)
        rcases hans with hne | hs
        · exact .inr (.inl (by simp [hne]))
        · exact hspared hs
    · exact (ho.other g m o rest i hf hog).mono done_mark hspared
  · rw [hnode] at ht hg
    rcases ho.gone ht hg with ⟨⟨g', m', rest', hf'⟩, -, -⟩ |
      ⟨i', stage, ⟨g', m', rest', hf'⟩, hp', hd⟩
    · cases hf.symm.trans hf'
    · -- the call that has dropped the request says so
      obtain ⟨-, -, rfl, -, rfl⟩ := PyFetch.pulling.inj (hf.symm.trans hf')
      obtain ⟨-, rfl⟩ := PullCall.mk.inj (Option.some.inj (hp.symm.trans hp'))
      obtain rfl : isLast = true := by simpa [dropped] using hd
      obtain ⟨rfl, hover⟩ : Answer c q x out true := ho.own i _ ⟨g, m, rest, hf⟩ hp rfl
      exact ⟨⟨g, m, rest, rfl⟩, ⟨othersDone_mark hover.1, by simp [hover.2]⟩,
        Function.update_self ..⟩

lemma orderly_refused {g m i : ℕ} {o : N} {rest : List N} {code : StatusCode} {out : List Row}
    {isLast : Bool} (ho : Orderly c q x) (hf : x.fetch = .pulling g m o rest i)
    (hp : x.sys.pull[i]? = some ⟨o, .replied code out isLast⟩) (hcode : code ≠ .ok) :
    Orderly c q { x with sys := x.sys.markDone o, fetch := .round g m rest } := by
  refine orderly_of_round rfl ?_ fun ht hg => ?_
  · by_cases hog : o = c.gateway
    · subst hog
      exact .inr (.inl (Function.update_self ..))
    · refine (ho.other g m o rest i hf hog).mono (fun hd => ?_) id
      exact done_markDone hd
  · rcases ho.gone ht hg with ⟨⟨g', m', rest', hf'⟩, -, -⟩ |
      ⟨i', stage, ⟨g', m', rest', hf'⟩, hp', hd⟩
    · cases hf.symm.trans hf'
    · obtain ⟨-, -, rfl, -, rfl⟩ := PyFetch.pulling.inj (hf.symm.trans hf')
      obtain ⟨-, rfl⟩ := PullCall.mk.inj (Option.some.inj (hp.symm.trans hp'))
      simp [dropped, hcode] at hd

lemma calm_fetch {a : PyFetchAct} (hst : PyFetches c x a x') (hlive : Uncancelled x.sys) :
    Uncancelled x'.sys ∧ x'.sys.cancel = x.sys.cancel := by
  cases hst with
  | @receive g m i o o' rest out isLast => cases isLast <;> exact ⟨hlive, rfl⟩
  | last => exact ⟨hlive.setNode (hlive c.gateway), rfl⟩
  | unschedule => exact ⟨hlive.setNode (hlive c.gateway), rfl⟩
  | _ => exact ⟨hlive, rfl⟩

lemma open_fetch {a : PyFetchAct} (h : PyShape c q x) (ho : Open c q x)
    (hr : Reliable x (.fetch a)) (hc : Careful c q x (.fetch a)) (hst : PyFetches c x a x')
    (hown : c.overlay.dataOwners ≠ [])
    (hself : c.gateway ∈ c.overlay.dataOwners → Callable c c.gateway)
    (hrows : ∀ o ∈ c.overlay.dataOwners, (c.shard o).matchRows q ≠ [] → Served c o) :
    Open c q x' ∨ Over c q x' := by
  have hlanes : x'.fetch ≠ .dropping → x'.ended = false →
      ∀ o ∈ c.overlay.dataOwners, Laned c q x' o := fun hf he o hmem =>
    laned_fetch h hr hst ⟨hf, he⟩ hmem (ho.lanes o hmem)
  obtain ⟨hlive, hcancel⟩ := calm_fetch hst ho.live
  -- the stream goes on
  have hopen : x'.fetch ≠ .dropping → x'.ended = x.ended → x'.failed = x.failed →
      Orderly c q x' → Open c q x' := fun hf he hfail horderly =>
    ⟨hf, he.trans ho.ended, hfail.trans ho.failed, hlive, hcancel.trans ho.noCancel, horderly,
      hlanes hf (he.trans ho.ended)⟩
  cases hst with
  | unknown hf ht =>
    have hret : x.sys.submit = .returned := hr
    exact absurd ht (ho.orderly.live hf (h.registered (by rw [hret]; rfl)))
  | noOwners hf hd => exact absurd hd hown
  | start hf ht =>
    refine .inl (hopen (by simp) rfl rfl (orderly_of_round rfl ?_ fun ht' => ?_))
    · exact hc.imp (fun ⟨hmem, hpos⟩ => ⟨hmem, by omega⟩) .inr
    · cases ht.symm.trans ht'
  | stop hf hw => exact .inl (hopen (by simp) rfl rfl (orderly_stop ho hc hf hw))
  | skip hf hd => exact .inl (hopen (by simp) rfl rfl (orderly_skip ho.orderly hf hd))
  | issue hf hd => exact .inl (hopen (by simp) rfl rfl (orderly_issue h ho.orderly hf hd))
  | receive hf hp =>
    obtain rfl := h.call_owner hf hp
    exact .inl (hopen (by simp) rfl rfl (orderly_receive ho.orderly hf hp))
  | refused hf hp hcode =>
    obtain rfl := h.call_owner hf hp
    exact .inl (hopen (by simp) rfl rfl (orderly_refused ho.orderly hf hp hcode))
  | failed => exact hr.elim
  | @raises late g m o rest hf hn =>
    have hmem : o ∈ c.overlay.dataOwners := h.left o (by simp [hf, PySteps.left])
    have hcall : Callable c o := by
      by_cases hg : o = c.gateway
      · exact hg ▸ hself (hg ▸ hmem)
      · obtain ⟨k, hk⟩ := List.getElem?_of_mem hmem
        refine h.callable k o hk hg ?_
        rw [h.returned (by simp [hf])]
        trivial
    obtain ⟨hop, hnext, hnode⟩ := hcall
    rw [hn hop hnext] at hnode
    cases hnode
  | @last g m hf hd hb =>
    have hall := rows_of_last h ho hf hd hb hrows
    have hret := h.returned (by simp [hf])
    exact .inr ⟨hret, .inl rfl, ho.failed, by simp [Entry.erase], hall⟩
  | emit hf hl =>
    refine .inl (hopen (by simp) rfl rfl ⟨by simp, by simp, fun i stage hw => ?_, fun ht hg => ?_⟩)
    · exact absurd hw (not_waits (by simp) c.gateway i)
    · exact absurd (ho.orderly.heard hf ht hg).others hl
  | unschedule hf => exact absurd hf ho.fetch

lemma over_step {a : PyAct N} (h : PyShape c q x) (hov : Over c q x) (hr : Reliable x a)
    (hst : pyStep c q x a = some x') (hown : c.overlay.dataOwners ≠ []) : Over c q x' := by
  have hret := hov.returned
  have hnone : ∀ g m o rest i, x.fetch ≠ .pulling g m o rest i := by
    intro g m o rest i hf
    rcases hov.fetch with hf' | ⟨hf', -⟩ <;> rw [hf] at hf' <;> cases hf'
  have hround : ∀ g m rest, x.fetch ≠ .round g m rest := by
    intro g m rest hf
    rcases hov.fetch with hf' | ⟨hf', -⟩ <;> rw [hf] at hf' <;> cases hf'
  cases a with
  | submit a =>
    obtain ⟨s', hs, rfl⟩ := Option.map_eq_some_iff.mp hst
    have hearly := (h.early_of_submits (pySubmits_of_step hs)).2.1
    rw [hret] at hearly
    cases hearly
  | forward f =>
    obtain ⟨s', hs, rfl⟩ := Option.map_eq_some_iff.mp hst
    have hpend : ∀ {o n : N} {r : Bool} {ttl : ℕ}, x.sys.fwd[f]? ≠ some ⟨o, r, .at n ttl⟩ := by
      intro o n r ttl hf
      obtain ⟨k, attempt, hs⟩ := h.pending f _ n ttl hf rfl
      rw [hret] at hs
      cases hs
    cases forwards_of_step hs with
    | expired hf => exact absurd hf hpend
    | register hf => exact absurd hf hpend
    | noRoute hf => exact absurd hf hpend
    | relay hf => exact absurd hf hpend
  | produce n a =>
    obtain ⟨e, he, rfl⟩ := Option.map_eq_some_iff.mp hst
    refine ⟨hret, hov.fetch, hov.failed, ?_, hov.rows⟩
    by_cases hn : c.gateway = n
    · have htable := (prodStep_spec (h.entries n) he).2.table
      rw [hn, setNode_self, htable, ← hn]
      exact hov.table
    · rw [setNode_ne _ hn]
      exact hov.table
  | pull i a =>
    obtain ⟨s', hs, rfl⟩ := Option.map_eq_some_iff.mp hst
    obtain ⟨g, m, o, rest, hf⟩ := waits_of_pulls h (pulls_of_step hs)
    exact absurd hf (hnone g m o rest i)
  | fetch a =>
    have hended : x.fetch = .idle → x.ended = true := by
      intro hf
      rcases hov.fetch with hf' | ⟨-, he⟩
      · rw [hf] at hf'
        cases hf'
      · exact he
    cases pyFetches_of_step hst with
    | unknown hf =>
      have he := hended hf
      exact ⟨hret, .inr ⟨rfl, he⟩, by simp [PySys.fail, he, hov.failed], hov.table, hov.rows⟩
    | noOwners hf hd => exact absurd hd hown
    | start hf ht =>
      rw [hov.table] at ht
      cases ht
    | unschedule =>
      refine ⟨hret, .inr ⟨rfl, rfl⟩, hov.failed, ?_, hov.rows⟩
      simp [Entry.unschedule, hov.table]
    | stop hf => exact absurd hf (hround _ _ _)
    | skip hf => exact absurd hf (hround _ _ _)
    | raises hf => exact absurd hf (hround _ _ _)
    | issue hf => exact absurd hf (hround _ _ _)
    | last hf => exact absurd hf (hround _ _ _)
    | emit hf => exact absurd hf (hround _ _ _)
    | receive hf => exact absurd hf (hnone _ _ _ _ _)
    | refused hf => exact absurd hf (hnone _ _ _ _ _)
    | failed hf => exact absurd hf (hnone _ _ _ _ _)

/-! ### Runs -/

lemma open_step {a : PyAct N} (h : PyShape c q x) (ho : Open c q x) (hr : Reliable x a)
    (hc : Careful c q x a) (hst : pyStep c q x a = some x') (hown : c.overlay.dataOwners ≠ [])
    (hself : c.gateway ∈ c.overlay.dataOwners → Callable c c.gateway)
    (hrows : ∀ o ∈ c.overlay.dataOwners, (c.shard o).matchRows q ≠ [] → Served c o) :
    Open c q x' ∨ Over c q x' := by
  cases a with
  | submit a =>
    obtain ⟨s', hs, rfl⟩ := Option.map_eq_some_iff.mp hst
    refine .inl (open_submit h ho (pySubmits_of_step hs) ?_ ?_) <;> rintro rfl <;> exact hr
  | forward f =>
    obtain ⟨s', hs, rfl⟩ := Option.map_eq_some_iff.mp hst
    exact .inl (open_forward h ho hs)
  | produce n a =>
    obtain ⟨e, he, rfl⟩ := Option.map_eq_some_iff.mp hst
    exact .inl (open_produce h ho he)
  | pull i a =>
    obtain ⟨s', hs, rfl⟩ := Option.map_eq_some_iff.mp hst
    exact .inl (open_pull h ho hc (pulls_of_step hs))
  | fetch a => exact open_fetch h ho hr hc (pyFetches_of_step hst) hown hself hrows

lemma open_init : Open c q (pyInit N Row) where
  fetch := by simp [pyInit]
  ended := rfl
  failed := rfl
  live _ _ := rfl
  noCancel := rfl
  orderly := ⟨by simp [pyInit], by simp [pyInit],
    fun i stage hw => absurd hw (not_waits (by simp [pyInit]) c.gateway i),
    fun _ hg => absurd hg (Nat.lt_irrefl 0)⟩
  lanes o _ := by
    refine ⟨_, ⟨rfl, ?_, rfl, rfl, rfl, fun _ => rfl, fun hret => by cases hret⟩,
      sound_init c q o (Served c o), once_init (c.shard o) q⟩
    simp [pyInit, lane, init]

/-- A gateway that owns no data has no call to itself to be careful with. -/
lemma careful_of_apart {a : PyAct N} (hg : c.gateway ∉ c.overlay.dataOwners) (h : PyShape c q x)
    (hst : pyStep c q x a = some x') : Careful c q x a := by
  have hspared : Spared c q x := .inl fun hmem => absurd hmem hg
  have hother : ∀ {i : ℕ} {a : PullAct}, pyStep c q x (.pull i a) = some x' →
      ∀ p ∈ x.sys.pull[i]?, p.owner ≠ c.gateway := by
    intro i a hst p hp heq
    obtain ⟨s', hs, rfl⟩ := Option.map_eq_some_iff.mp hst
    obtain ⟨g, m, o, rest, hf⟩ := waits_of_pulls h (pulls_of_step hs)
    obtain ⟨hmem, -, stage, hp'⟩ := h.waits o i ⟨g, m, rest, hf⟩
    have howner : p.owner = o := congrArg PullCall.owner (Option.some.inj (hp.symm.trans hp'))
    exact hg (heq ▸ howner ▸ hmem)
  cases a with
  | pull i a =>
    cases a with
    | pop maxRows => exact fun p hp heq => absurd heq (hother hst p hp)
    | load => exact fun p hp heq => absurd heq (hother hst p hp)
    | _ => trivial
  | fetch a =>
    cases a with
    | start t₁ t₂ maxRows => exact .inr hspared
    | next late =>
      cases late with
      | true => exact fun _ => hspared
      | false => trivial
    | _ => trivial
  | _ => trivial

/-- **The last chunk comes after every row**, and no error before it, if the gateway can ask
itself and reaches every owner with matching rows: in every run if it owns no data, and otherwise
in every run in which it is careful with its own partition. -/
theorem endsWhenDone (c : Config N Query Row) (q : Query) (hown : c.overlay.dataOwners ≠ [])
    (hself : c.gateway ∈ c.overlay.dataOwners → Callable c c.gateway)
    (hrows : ∀ o ∈ c.overlay.dataOwners, (c.shard o).matchRows q ≠ [] → Served c o) :
    EndsWhenDone c q fun x a => c.gateway ∈ c.overlay.dataOwners → Careful c q x a := by
  intro _ x hx
  have hinv : PyShape c q x ∧ (Open c q x ∨ Over c q x) := by
    refine hx.invariant (I := fun x => PyShape c q x ∧ (Open c q x ∨ Over c q x))
      ⟨shape_init, .inl open_init⟩ ?_
    rintro x a x' - ⟨h, ho | hov⟩ ⟨hr, hcareful⟩ hst
    · have hc : Careful c q x a := by
        by_cases hg : c.gateway ∈ c.overlay.dataOwners
        · exact hcareful hg
        · exact careful_of_apart hg h hst
      exact ⟨shape_step h hr hst, open_step h ho hr hc hst hown hself hrows⟩
    · exact ⟨shape_step h hr hst, .inr (over_step h hov hr hst hown)⟩
  rcases hinv.2 with ho | hov
  · refine ⟨ho.failed, fun he => ?_⟩
    rw [ho.ended] at he
    cases he
  · exact ⟨hov.failed, fun _ o hmem => (hov.rows o hmem).symm ▸ List.Subperm.refl _⟩

/-! ### Along a chain -/

/-- `SubmitQuery` of a gateway that owns data, and of one with an owner next to it as well. -/
def pySubmitted : List (PyAct ℕ) := [.submit .register, .submit .mark, .submit .next, .submit .next]

def pySubmittedBoth : List (PyAct ℕ) :=
  [.submit .register, .submit .mark, .submit .next, .submit .next, .forward 0, .submit .answered,
    .submit .next]

/-- The producer of node `o` makes its only row and is done. -/
def pyProduced (o : ℕ) : List (PyAct ℕ) :=
  [.pick, .get, .check, .room, .test, .push, .test, .finish].map (.produce o)

/-- `FetchChunk` pulls from its next owner, and gets the answer or the last answer. -/
def pyPulled (i : ℕ) : List (PyAct ℕ) :=
  [.fetch (.next false), .pull i .handle, .pull i (.pop 10), .pull i .load, .pull i .decide,
    .pull i .reply, .fetch .receive]

def pyPulledLast (i : ℕ) : List (PyAct ℕ) :=
  [.fetch (.next false), .pull i .handle, .pull i (.pop 10), .pull i .load, .pull i .decide,
    .pull i .reply, .pull i .unschedule, .fetch .receive]

/-- The owner next to the gateway is asked first in each round. -/
def pyFetched : List (PyAct ℕ) :=
  pySubmittedBoth ++ pyProduced 0 ++ pyProduced 1 ++
    [.fetch (.start 1 1 10)] ++ pyPulled 0 ++ pyPulled 1 ++ [.fetch .emit] ++
    [.fetch (.start 1 1 10)] ++ pyPulledLast 2 ++ pyPulledLast 3 ++
    [.fetch .emit, .fetch .unschedule]

theorem endsWhenDone_fetched : ∃ x, Reach (pyStep (pyChain 2 [0, 1] fun _ => 1) ())
    (fun x a => Reliable x a ∧ Careful (pyChain 2 [0, 1] fun _ => 1) () x a) (pyInit ℕ ℕ) x ∧
    x.ended = true ∧ x.failed = none ∧ [0].Subperm (itemsOf x.sys.log 0) ∧
    [0].Subperm (itemsOf x.sys.log 1) := by
  have hrun : (run (pyStep (pyChain 2 [0, 1] fun _ => 1) ())
      (fun x a => Reliable x a ∧ Careful (pyChain 2 [0, 1] fun _ => 1) () x a) (pyInit ℕ ℕ)
      pyFetched).map (fun x => x.ended) = some true := by decide +kernel
  obtain ⟨x, hx, hended⟩ := Option.map_eq_some_iff.mp hrun
  have hreach := reach_of_run .init hx
  have hboth : ∀ o ∈ [0, 1], Served (pyChain 2 [0, 1] fun _ => 1) o := by
    intro o ho
    rcases List.mem_pair.mp ho with rfl | rfl
    · exact ⟨⟨0, by decide, rfl⟩, 0, by decide, 0, rfl⟩
    · exact ⟨⟨1, by decide, 1, by decide, rfl⟩, 1, by decide, 0, rfl⟩
  obtain ⟨hfailed, hall⟩ := endsWhenDone (pyChain 2 [0, 1] fun _ => 1) () (by decide)
    (fun _ => ⟨0, by decide, by decide⟩) (fun o ho _ => hboth o ho) (by decide) x
    (hreach.mono fun _ _ h => ⟨h.1, fun _ => h.2⟩)
  exact ⟨x, hreach, hended, hfailed, hall hended 0 (by decide), hall hended 1 (by decide)⟩

/-- The gateway asks for its own row before it has produced it. -/
def pyHasty : List (PyAct ℕ) :=
  pySubmitted ++ [.fetch (.start 0 0 10)] ++ pyPulled 0 ++ [.fetch .emit, .fetch .unschedule]

/-- The gateway's own row is pulled, and the end of its partition, before the other owner has
produced its row. -/
def pyDropped : List (PyAct ℕ) :=
  pySubmittedBoth ++ pyProduced 0 ++
    [.fetch (.start 0 0 10)] ++ pyPulled 0 ++ pyPulled 1 ++ [.fetch .emit] ++
    [.fetch (.start 0 0 10)] ++ pyPulledLast 2 ++ pyPulled 3 ++
    [.fetch .emit, .fetch (.start 0 0 10)]

/-- **A gateway with data of its own ends too early**: it sends its last chunk before it has
produced its own row, or drops the request with its own last row and no longer knows it. -/
theorem not_endsWhenDone_ownPartition :
    ¬ EndsWhenDone (pyChain 1 [0] fun _ => 1) () (fun _ _ => True) ∧
      ¬ EndsWhenDone (pyChain 2 [0, 1] fun _ => 1) () (fun _ _ => True) := by
  refine ⟨fun h => ?_, fun h => ?_⟩
  · have hrun : (run (pyStep (pyChain 1 [0] fun _ => 1) ()) (fun x a => Reliable x a ∧ True)
        (pyInit ℕ ℕ) pyHasty).map (fun x => (x.ended, x.sys.log)) = some (true, []) := by
      decide +kernel
    obtain ⟨x, hx, hfin⟩ := Option.map_eq_some_iff.mp hrun
    obtain ⟨hended, hlog⟩ := Prod.mk.inj hfin
    have hsub := (h (by decide) x (reach_of_run .init hx)).2 hended 0 (by decide)
    rw [hlog] at hsub
    exact absurd hsub.length_le (by decide)
  · have hrun : (run (pyStep (pyChain 2 [0, 1] fun _ => 1) ()) (fun x a => Reliable x a ∧ True)
        (pyInit ℕ ℕ) pyDropped).map (fun x => x.failed) = some (some .notFound) := by
      decide +kernel
    obtain ⟨x, hx, hfin⟩ := Option.map_eq_some_iff.mp hrun
    have hfailed := (h (by decide) x (reach_of_run .init hx)).1
    rw [hfin] at hfailed
    cases hfailed

end Mini2.PyEnding
