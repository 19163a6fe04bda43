import Mini2.Lib.Runs
import Mini2.Lib.Waiting
import Mini2.Producer
import Mini2.Turns

/-!
The producer thread of a C++ node and all requests of the node: the scheduler says on which of them
the thread works next, while handlers make requests, drop them and take their rows.
-/

namespace Mini2.Production

open Mini2.Runs Mini2.Waiting Mini2.Net Mini2.Request Mini2.Producer Mini2.Scheduler Mini2.Turns

variable {Query Row : Type}

/-! ### The node -/

structure Node (Row : Type) where
  sched : FairScheduler
  entries : String → Request.Entry Row
  /-- the request that the thread works on -/
  working : Option String

inductive Act (Query : Type)
  | slot
  | work (a : ProdAct)
  | register (rid : String) (q : Query)
  | drop (rid : String)
  | pop (rid : String) (g n : ℕ)
  | flag (rid : String) (g : ℕ)
  | clear (rid : String) (g : ℕ)

def Node.put (s : Node Row) (rid : String) (e : Request.Entry Row) : Node Row :=
  { s with entries := Function.update s.entries rid e }

/-- The thread asks for the next request; without one it sleeps for a while. -/
def slot (s : Node Row) : Option (Node Row) :=
  if s.working = none then
    if (next s.sched).1 = "" then some { s with sched := (next s.sched).2 }
    else (pick (s.entries (next s.sched).1)).map fun e =>
      { s.put (next s.sched).1 e with
        sched := (next s.sched).2
        working := some (next s.sched).1 }
  else none

/-- The thread goes on with the request it works on. -/
def work (sh : Shard Query Row) (s : Node Row) (a : ProdAct) : Option (Node Row) :=
  s.working.bind fun rid => (prodStep sh .cpp 0 (s.entries rid) a).map fun e =>
    { s.put rid e with working := if e.producer = .idle then none else some rid }

/-- `SubmitQuery` and `ForwardQuery` register with weight one. -/
def register (sh : Shard Query Row) (s : Node Row) (rid : String) (q : Query) : Node Row :=
  { s.put rid (registerRequest sh q 1 (s.entries rid)) with
    sched := if (s.entries rid).table = none then add s.sched rid 1 else s.sched }

def step (sh : Shard Query Row) (s : Node Row) : Act Query → Option (Node Row)
  | .slot => slot s
  | .work a => work sh s a
  | .register rid q => some (register sh s rid q)
  | .drop rid => some { s.put rid (dropRequest (s.entries rid)) with sched := remove s.sched rid }
  | .pop rid g n => some (s.put rid ((s.entries rid).pop g n))
  | .flag rid g => some (s.put rid ((s.entries rid).flag g))
  | .clear rid g => some (s.put rid ((s.entries rid).clear g))

def Node.start (mode : Mode) : Node Row := ⟨empty mode, fun _ => .empty, none⟩

/-! ### What a step does to a request -/

/-- The steps of the handlers with one request. -/
inductive Handles (sh : Shard Query Row) (e : Request.Entry Row) : Request.Entry Row → Prop
  | register (q : Query) : Handles sh e (registerRequest sh q 1 e)
  | drop : Handles sh e (dropRequest e)
  | pop (g n : ℕ) : Handles sh e (e.pop g n)
  | flag (g : ℕ) : Handles sh e (e.flag g)
  | clear (g : ℕ) : Handles sh e (e.clear g)

/-- **Each request for itself**: a step of the node is a step of its thread or of a handler with
one request, and none with the others. -/
inductive Touches (sh : Shard Query Row) (e e' : Request.Entry Row) : Prop
  | none (h : e' = e)
  | work (a : ProdAct) (h : prodStep sh .cpp 0 e a = some e')
  | handle (h : Handles sh e e')

variable {sh : Shard Query Row} {s s' : Node Row} {a : Act Query} {rid : String}

lemma put_entries (s : Node Row) (x : String) (e : Request.Entry Row) (rid : String) :
    (s.put x e).entries rid = if rid = x then e else s.entries rid :=
  Function.update_apply ..

lemma touches_put {x : String} {e : Request.Entry Row} (h : Touches sh (s.entries x) e)
    (rid : String) : Touches sh (s.entries rid) ((s.put x e).entries rid) := by
  rw [put_entries]
  split
  next heq => exact heq ▸ h
  next => exact .none rfl

lemma touches (h : step sh s a = some s') (rid : String) :
    Touches sh (s.entries rid) (s'.entries rid) := by
  cases a with
  | slot =>
    simp only [step, slot] at h
    split at h
    next =>
      split at h
      next =>
        obtain rfl := Option.some.inj h
        exact .none rfl
      next =>
        obtain ⟨e, he, rfl⟩ := Option.map_eq_some_iff.mp h
        exact touches_put (.work .pick he) rid
    next => cases h
  | work a =>
    obtain ⟨x, -, h⟩ := Option.bind_eq_some_iff.mp h
    obtain ⟨e, he, rfl⟩ := Option.map_eq_some_iff.mp h
    exact touches_put (.work a he) rid
  | register x q =>
    obtain rfl := Option.some.inj h
    exact touches_put (.handle (.register q)) rid
  | drop x =>
    obtain rfl := Option.some.inj h
    exact touches_put (.handle .drop) rid
  | pop x g n =>
    obtain rfl := Option.some.inj h
    exact touches_put (.handle (.pop g n)) rid
  | flag x g =>
    obtain rfl := Option.some.inj h
    exact touches_put (.handle (.flag g)) rid
  | clear x g =>
    obtain rfl := Option.some.inj h
    exact touches_put (.handle (.clear g)) rid

/-! ### What holds of a node -/

/-- The states of a request are made with weight one, for some query each. -/
structure RequestOk (sh : Shard Query Row) (e : Request.Entry Row) : Prop where
  states : ∃ qs, StatesOk sh qs e
  weight : ∀ g < e.gens, (e.obj g).weight = 1

lemma requestOk_empty [Nonempty Query] {sh : Shard Query Row} :
    RequestOk sh (Request.Entry.empty : Request.Entry Row) :=
  ⟨⟨fun _ => Classical.ofNonempty, nofun, fun g hg => absurd hg (Nat.not_lt_zero g), trivial⟩,
    fun g hg => absurd hg (Nat.not_lt_zero g)⟩

variable {e e' : Request.Entry Row}

lemma weight_produces {impl : Impl} {act : ProdAct} (h : Produces sh impl e act e') (g : ℕ) :
    (e'.obj g).weight = (e.obj g).weight := by
  cases h
  case nothing g' _ _ _ =>
    by_cases hg : g = g'
    · subst hg
      simp [Entry.setObj]
    · simp [Entry.setObj, hg]
  case push g' _ _ _ _ _ =>
    by_cases hg : g = g'
    · subst hg
      simp [Entry.setObj]
    · simp [Entry.setObj, hg]
  case finish g' _ _ =>
    by_cases hg : g = g'
    · subst hg
      simp [Entry.setObj]
    · simp [Entry.setObj, hg]
  all_goals rfl

lemma weight_newState (q : Query) (w : ℤ) : (newState sh q w).weight = w := by
  unfold newState
  dsimp only
  split
  · rfl
  · split <;> rfl

lemma RequestOk.setObj (h : RequestOk sh e) {g : ℕ} {st : RequestState Row}
    (hst : SameCourse (e.obj g) st) (hw : st.weight = (e.obj g).weight) :
    RequestOk sh (e.setObj g st) := by
  obtain ⟨qs, hqs⟩ := h.states
  refine ⟨⟨qs, hqs.setObj hst⟩, fun g' hg' => ?_⟩
  by_cases hg : g' = g
  · subst hg
    have heq : ((e.setObj g' st).obj g').weight = st.weight := by simp [Entry.setObj]
    rw [heq, hw]
    exact h.weight g' hg'
  · have heq : (e.setObj g st).obj g' = e.obj g' := Function.update_of_ne hg _ _
    rw [heq]
    exact h.weight g' hg'

lemma RequestOk.handles (h : RequestOk sh e) (hh : Handles sh e e') : RequestOk sh e' := by
  cases hh with
  | register q =>
    unfold registerRequest
    cases ht : e.table with
    | some g => exact h
    | none =>
      obtain ⟨qs, hqs⟩ := h.states
      refine ⟨⟨_, hqs.add (objOk_new sh q 1) fun g hg => (Option.some.inj hg).ge⟩, fun g hg => ?_⟩
      dsimp only at hg ⊢
      by_cases hg' : g = e.gens
      · rw [hg', Function.update_self]
        exact weight_newState q 1
      · rw [Function.update_of_ne hg']
        exact h.weight g (by omega)
  | drop =>
    obtain ⟨qs, hqs⟩ := h.states
    exact ⟨⟨qs, nofun, hqs.obj, hqs.producer⟩, h.weight⟩
  | pop g n => exact h.setObj ⟨rfl, rfl, rfl⟩ rfl
  | flag g => exact h.setObj ⟨rfl, rfl, rfl⟩ rfl
  | clear g => exact h.setObj ⟨rfl, rfl, rfl⟩ rfl

lemma RequestOk.touches (h : RequestOk sh e) (ht : Touches sh e e') : RequestOk sh e' := by
  cases ht with
  | none heq => exact heq ▸ h
  | work a hs =>
    obtain ⟨qs, hqs⟩ := h.states
    obtain ⟨hok, hmakes⟩ := prodStep_each hqs hs
    refine ⟨⟨qs, hok⟩, fun g hg => ?_⟩
    rw [weight_produces (produces_of_step hs) g]
    exact h.weight g (hmakes.gens ▸ hg)
  | handle hh => exact h.handles hh

/-- The scheduler lists what is in the table, and the thread works on one request. -/
structure NodeOk (sh : Shard Query Row) (s : Node Row) : Prop where
  sound : Sound s.sched
  unweighted : Unweighted s.sched
  listed : ∀ rid, rid ∈ ids s.sched ↔ (s.entries rid).table ≠ none
  scheduled : ∀ rid, (s.entries rid).scheduled = if rid ∈ ids s.sched then 1 else 0
  working : ∀ rid, s.working = some rid ↔ (s.entries rid).producer ≠ .idle
  requests : ∀ rid, RequestOk sh (s.entries rid)

lemma nodeOk_start [Nonempty Query] {mode : Mode} (hm : mode ≠ .fifo) :
    NodeOk sh (Node.start mode : Node Row) where
  sound := ⟨List.nodup_nil, .inr ⟨rfl, rfl⟩⟩
  unweighted := ⟨hm, fun _ he => absurd he List.not_mem_nil⟩
  listed _ := ⟨fun h => absurd h List.not_mem_nil, fun h => absurd rfl h⟩
  scheduled _ := rfl
  working _ := ⟨nofun, fun h => absurd rfl h⟩
  requests _ := requestOk_empty

lemma NodeOk.put (h : NodeOk sh s) {x : String} {e : Request.Entry Row} {sched : FairScheduler}
    {w : Option String} (hsound : Sound sched) (hun : Unweighted sched)
    (hids : ∀ rid ≠ x, rid ∈ ids sched ↔ rid ∈ ids s.sched)
    (hlisted : x ∈ ids sched ↔ e.table ≠ none)
    (hscheduled : e.scheduled = if x ∈ ids sched then 1 else 0)
    (hw : ∀ rid ≠ x, w = some rid ↔ s.working = some rid)
    (hx : w = some x ↔ e.producer ≠ .idle) (he : RequestOk sh e) :
    NodeOk sh { s.put x e with sched := sched, working := w } := by
  have hentry : ∀ rid, ({ s.put x e with sched := sched, working := w } : Node Row).entries rid =
      if rid = x then e else s.entries rid := put_entries s x e
  refine ⟨hsound, hun, fun rid => ?_, fun rid => ?_, fun rid => ?_, fun rid => ?_⟩ <;> rw [hentry]
  · split
    next heq => exact heq ▸ hlisted
    next hne => exact (hids rid hne).trans (h.listed rid)
  · split
    next heq => exact heq ▸ hscheduled
    next hne =>
      rw [h.scheduled rid]
      exact if_congr (hids rid hne).symm rfl rfl
  · split
    next heq => exact heq ▸ hx
    next hne => exact (hw rid hne).trans (h.working rid)
  · split
    next => exact he
    next => exact h.requests rid

lemma NodeOk.slot (h : NodeOk sh s) (hs : slot s = some s') : NodeOk sh s' := by
  unfold Production.slot at hs
  split at hs
  next hidle =>
    split at hs
    next =>
      obtain rfl := Option.some.inj hs
      refine ⟨h.sound.next, h.unweighted.next h.sound, ?_, ?_, h.working, h.requests⟩
      · rw [ids_next]
        exact h.listed
      · rw [ids_next]
        exact h.scheduled
    next =>
      obtain ⟨e, he, rfl⟩ := Option.map_eq_some_iff.mp hs
      have hreq := (h.requests _).touches (.work .pick he)
      unfold pick at he
      split at he
      next =>
        obtain rfl := Option.some.inj he
        refine h.put h.sound.next (h.unweighted.next h.sound) (fun rid _ => by rw [ids_next]) ?_ ?_
          (fun rid hne => ?_) ⟨nofun, fun _ => rfl⟩ hreq
        · rw [ids_next]
          exact h.listed _
        · rw [ids_next]
          exact h.scheduled _
        · rw [hidle]
          exact ⟨fun heq => absurd (Option.some.inj heq).symm hne, nofun⟩
      next => cases he
  next => cases hs

lemma NodeOk.work (h : NodeOk sh s) {act : ProdAct} (hs : work sh s act = some s') :
    NodeOk sh s' := by
  obtain ⟨x, hx, hs⟩ := Option.bind_eq_some_iff.mp hs
  obtain ⟨e, he, rfl⟩ := Option.map_eq_some_iff.mp hs
  obtain ⟨qs, hqs⟩ := (h.requests x).states
  have hmakes := (prodStep_each hqs he).2
  refine h.put h.sound h.unweighted (fun _ _ => Iff.rfl) ?_ ?_ (fun rid hne => ?_) ?_
    ((h.requests x).touches (.work act he))
  · rw [hmakes.table]
    exact h.listed x
  · rw [hmakes.scheduled]
    exact h.scheduled x
  · rw [hx]
    have hne' : some x ≠ some rid := fun heq => hne (Option.some.inj heq).symm
    split
    · exact ⟨nofun, fun heq => absurd heq hne'⟩
    · exact Iff.rfl
  · split
    next hidle => exact ⟨nofun, fun hne => absurd hidle hne⟩
    next hidle => exact ⟨fun _ => hidle, fun _ => rfl⟩

lemma NodeOk.register (h : NodeOk sh s) (x : String) (q : Query) :
    NodeOk sh (register sh s x q) := by
  have hreq := (h.requests x).handles (.register q)
  have hprod : (registerRequest sh q 1 (s.entries x)).producer = (s.entries x).producer := by
    unfold registerRequest
    split <;> rfl
  cases ht : (s.entries x).table with
  | some g =>
    have heq : Production.register sh s x q = { s.put x (s.entries x) with sched := s.sched } := by
      unfold Production.register registerRequest
      rw [if_neg (by rw [ht]; nofun), ht]
    rw [heq]
    exact h.put h.sound h.unweighted (fun _ _ => Iff.rfl) (h.listed x) (h.scheduled x)
      (fun _ _ => Iff.rfl) (h.working x) (h.requests x)
  | none =>
    have hnot : x ∉ ids s.sched := fun hmem => (h.listed x).mp hmem ht
    have hids : ids (add s.sched x 1) = ids s.sched ++ [x] := rids_add_of_not_mem hnot 1
    have hsched := h.scheduled x
    rw [if_neg hnot] at hsched
    unfold Production.register
    rw [if_pos ht]
    refine h.put (h.sound.add x 1) (h.unweighted.add x) (fun rid hne => ?_) ?_ ?_
      (fun _ _ => Iff.rfl) ?_ hreq
    · rw [hids]
      simp [hne]
    · rw [hids]
      exact ⟨fun _ => registerRequest_table sh q 1 _, fun _ => by simp⟩
    · rw [hids, if_pos (by simp)]
      unfold registerRequest
      rw [ht]
      exact congrArg (· + 1) hsched
    · rw [hprod]
      exact h.working x

lemma NodeOk.drop (h : NodeOk sh s) (x : String) :
    NodeOk sh { s.put x (dropRequest (s.entries x)) with sched := remove s.sched x } := by
  have hids : ids (remove s.sched x) = (ids s.sched).erase x := rids_remove s.sched x
  have hnot : x ∉ (ids s.sched).erase x := fun hmem => (h.sound.nodup.mem_erase_iff.mp hmem).1 rfl
  refine h.put (h.sound.remove x) (h.unweighted.remove x) (fun rid hne => ?_) ?_ ?_
    (fun _ _ => Iff.rfl) (h.working x) ((h.requests x).handles .drop)
  · rw [hids]
    exact List.mem_erase_of_ne hne
  · rw [hids]
    exact ⟨fun hmem => absurd hmem hnot, fun hne => absurd rfl hne⟩
  · have hsched := h.scheduled x
    rw [hids, if_neg hnot]
    show (s.entries x).scheduled - 1 = 0
    split at hsched <;> omega

lemma NodeOk.setObj (h : NodeOk sh s) {x : String} {g : ℕ} {st : RequestState Row}
    (hh : Handles sh (s.entries x) ((s.entries x).setObj g st)) :
    NodeOk sh (s.put x ((s.entries x).setObj g st)) :=
  h.put h.sound h.unweighted (fun _ _ => Iff.rfl) (h.listed x) (h.scheduled x)
    (fun _ _ => Iff.rfl) (h.working x) ((h.requests x).handles hh)

/-- **Every step keeps the tables together.** -/
lemma NodeOk.step (h : NodeOk sh s) (hs : step sh s a = some s') : NodeOk sh s' := by
  cases a with
  | slot => exact h.slot hs
  | work a => exact h.work hs
  | register x q =>
    obtain rfl := Option.some.inj hs
    exact h.register x q
  | drop x =>
    obtain rfl := Option.some.inj hs
    exact h.drop x
  | pop x g n =>
    obtain rfl := Option.some.inj hs
    exact h.setObj (.pop g n)
  | flag x g =>
    obtain rfl := Option.some.inj hs
    exact h.setObj (.flag g)
  | clear x g =>
    obtain rfl := Option.some.inj hs
    exact h.setObj (.clear g)

lemma nodeOk [Nonempty Query] {mode : Mode} (hm : mode ≠ .fifo)
    {G : Node Row → Act Query → Prop} (hr : Reach (step sh) G (Node.start mode) s) : NodeOk sh s :=
  hr.invariant (nodeOk_start hm) fun _ _ _ _ h _ hs => h.step hs

/-! ### Turns -/

/-- The node has at most `M` requests at a time, and does not drop this one. -/
structure Undisturbed (M : ℕ) (rid : String) (s : Node Row) (a : Act Query) : Prop where
  admitted : ∀ x q, a = .register x q → (s.entries x).table = none → s.sched.q.length < M
  kept : a ≠ .drop rid

def IsSlot (_ : Node Row) (a : Act Query) : Prop := a = .slot

/-- The scheduler's answer is the request. -/
def IsTurn (rid : String) (s : Node Row) (_ : Act Query) : Prop := (next s.sched).1 = rid

structure Listed (sh : Shard Query Row) (M : ℕ) (rid : String) (s : Node Row) : Prop where
  ok : NodeOk sh s
  few : s.sched.q.length ≤ M
  mem : rid ∈ ids s.sched

variable {M : ℕ}

lemma sched_step (hs : step sh s a = some s') :
    s'.sched = match a with
      | .slot => (next s.sched).2
      | .register x _ => if (s.entries x).table = none then add s.sched x 1 else s.sched
      | .drop x => remove s.sched x
      | _ => s.sched := by
  cases a with
  | slot =>
    simp only [step, slot] at hs
    split at hs
    next =>
      split at hs
      next =>
        obtain rfl := Option.some.inj hs
        rfl
      next =>
        obtain ⟨e, -, rfl⟩ := Option.map_eq_some_iff.mp hs
        rfl
    next => cases hs
  | work a =>
    obtain ⟨x, -, hs⟩ := Option.bind_eq_some_iff.mp hs
    obtain ⟨e, -, rfl⟩ := Option.map_eq_some_iff.mp hs
    rfl
  | register x q => exact Option.some.inj hs ▸ rfl
  | drop x => exact Option.some.inj hs ▸ rfl
  | pop x g n => exact Option.some.inj hs ▸ rfl
  | flag x g => exact Option.some.inj hs ▸ rfl
  | clear x g => exact Option.some.inj hs ▸ rfl

lemma length_next (sched : FairScheduler) : (next sched).2.q.length = sched.q.length := by
  rw [← length_ids, ids_next, length_ids]

lemma Listed.slot (h : Listed sh M rid s) (hs : step sh s (.slot : Act Query) = some s') :
    Listed sh M rid s' ∧
      ((next s.sched).1 ≠ rid → wait M rid s'.sched < wait M rid s.sched) := by
  have hsched := sched_step hs
  refine ⟨⟨h.ok.step hs, ?_, ?_⟩, fun hne => ?_⟩
  · rw [hsched, length_next]
    exact h.few
  · rw [hsched, ids_next]
    exact h.mem
  · rw [hsched]
    exact wait_next h.ok.sound h.ok.unweighted h.few h.mem hne

lemma Listed.other (h : Listed sh M rid s) (hg : Undisturbed M rid s a) (ha : a ≠ .slot)
    (hs : step sh s a = some s') :
    Listed sh M rid s' ∧ wait M rid s'.sched ≤ wait M rid s.sched := by
  have hok := h.ok.step hs
  have hsched := sched_step hs
  cases a with
  | slot => exact absurd rfl ha
  | register x q =>
    dsimp only at hsched
    split at hsched
    next ht =>
      have hnot : x ∉ ids s.sched := fun hmem => (h.ok.listed x).mp hmem ht
      have hids : ids s'.sched = ids s.sched ++ [x] := by
        rw [hsched]
        exact rids_add_of_not_mem hnot 1
      have hfew := hg.admitted x q rfl ht
      refine ⟨⟨hok, ?_, ?_⟩, ?_⟩
      · rw [← length_ids, hids, List.length_append, length_ids, List.length_singleton]
        exact hfew
      · rw [hids]
        exact List.mem_append_left _ h.mem
      · rw [hsched, wait_add h.mem hnot]
    next =>
      rw [hsched]
      exact ⟨⟨hok, hsched ▸ h.few, hsched ▸ h.mem⟩, le_rfl⟩
  | drop x =>
    have hne : x ≠ rid := fun heq => hg.kept (heq ▸ rfl)
    dsimp only at hsched
    have hids : ids s'.sched = (ids s.sched).erase x := by
      rw [hsched]
      exact rids_remove s.sched x
    refine ⟨⟨hok, ?_, ?_⟩, ?_⟩
    · rw [← length_ids, hids]
      exact List.length_erase_le.trans ((length_ids _).trans_le h.few)
    · rw [hids]
      exact (List.mem_erase_of_ne hne.symm).mpr h.mem
    · rw [hsched]
      exact wait_remove h.ok.sound h.few h.mem hne
  | work | pop | flag | clear =>
    dsimp only at hsched
    rw [hsched]
    exact ⟨⟨hok, hsched ▸ h.few, hsched ▸ h.mem⟩, le_rfl⟩

lemma Listed.step (h : Listed sh M rid s) (hg : Undisturbed M rid s a)
    (hs : step sh s a = some s') : Listed sh M rid s' := by
  by_cases ha : a = .slot
  · subst ha
    exact (h.slot hs).1
  · exact (h.other hg ha hs).1

variable {k j : ℕ}

lemma Listed.le_turns (h0 : Listed sh M rid s)
    (h : Run (Production.step sh) (Undisturbed M rid) IsSlot (IsTurn rid) s k j s') {n : ℕ}
    (hk : n * (M * M) ≤ k) : n ≤ j := by
  refine h.le_turns h0 (fun s a s' hi hg hs => hi.step hg hs)
    (fun s hi => wait_lt hi.ok.sound hi.few hi.mem)
    (fun s a s' hi hg hs hn => (hi.other hg hn hs).2) (fun s a s' hi hg hs hslot hn => ?_) hk
  obtain rfl : a = .slot := hslot
  exact (hi.slot hs).2 hn

/-! ### All rows -/

structure Served (st : RequestState Row) (n : ℕ) : Prop where
  made : min st.matchedIndices.length (256 * n) ≤ st.matchedCursor
  done : 1 ≤ n → st.matchedIndices.length ≤ 256 * n → st.doneProducing = true

lemma Served.zero (st : RequestState Row) : Served st 0 :=
  ⟨by simp, fun h => absurd h (by simp)⟩

lemma Served.of_done {st : RequestState Row} (n : ℕ) (hd : st.doneProducing = true)
    (hc : st.matchedCursor = st.matchedIndices.length) : Served st n :=
  ⟨hc ▸ min_le_left _ _, fun _ _ => hd⟩

lemma Served.congr {st st' : RequestState Row} {n : ℕ} (h : Served st n) (hst : SameCourse st st') :
    Served st' n := by
  obtain ⟨hidx, hcur, hdone⟩ := hst
  exact ⟨by rw [hidx, hcur]; exact h.made, by rw [hidx, hdone]; exact h.done⟩

def stateOf : Producer → Option ℕ
  | .idle | .picked => none
  | .got g | .checked g | .batch g _ _ | .filling g _ _ | .ending g _ => some g

/-- Where the thread is with the current state of a request that has had `j` turns. -/
structure Serving (e : Request.Entry Row) (g j : ℕ) : Prop where
  table : e.table = some g
  live : (e.obj g).cancelled = false
  idle : e.producer = .idle → Served (e.obj g) j
  busy : Served (e.obj g) (j - 1)
  own : ∀ g', stateOf e.producer = some g' → g' = g ∨ j = 0
  batch : ∀ g' i limit, e.producer = .batch g' i limit ∨ e.producer = .filling g' i limit →
    0 < j → min (e.obj g).matchedIndices.length (256 * j) ≤ limit ∧
      (e.obj g).matched.length + (limit - i) ≤ maxBuffered
  ending : ∀ g' i, e.producer = .ending g' i → 0 < j →
    min (e.obj g).matchedIndices.length (256 * j) ≤ i

variable {g : ℕ}

lemma Serving.begin (ht : e.table = some g) (hlive : (e.obj g).cancelled = false) :
    Serving e g 0 :=
  ⟨ht, hlive, fun _ => .zero _, .zero _, fun _ _ => .inr rfl,
    fun _ _ _ _ hj => absurd hj (by simp), fun _ _ _ hj => absurd hj (by simp)⟩

lemma Serving.move (h : Serving e g j) {p : Producer} (hidle : p = .idle → Served (e.obj g) j)
    (hown : ∀ g', stateOf p = some g' → g' = g ∨ j = 0)
    (hbatch : ∀ g' i limit, p = .batch g' i limit ∨ p = .filling g' i limit →
      0 < j → min (e.obj g).matchedIndices.length (256 * j) ≤ limit ∧
        (e.obj g).matched.length + (limit - i) ≤ maxBuffered)
    (hending : ∀ g' i, p = .ending g' i → 0 < j →
      min (e.obj g).matchedIndices.length (256 * j) ≤ i) :
    Serving { e with producer := p } g j :=
  ⟨h.table, h.live, hidle, h.busy, hown, hbatch, hending⟩

lemma Serving.setObj (h : Serving e g j) {g' : ℕ} {st : RequestState Row}
    (hst : SameCourse (e.obj g') st) (hlive : g' = g → st.cancelled = false)
    (hlen : st.matched.length ≤ (e.obj g').matched.length) : Serving (e.setObj g' st) g j := by
  by_cases hgg : g' = g
  · subst hgg
    have hobj : (e.setObj g' st).obj g' = st := Function.update_self ..
    refine ⟨h.table, by rw [hobj]; exact hlive rfl, fun hp => ?_, ?_, h.own, ?_, ?_⟩ <;> rw [hobj]
    · exact (h.idle hp).congr hst
    · exact h.busy.congr hst
    · rw [hst.indices]
      intro g i limit hp hj
      obtain ⟨hlimit, hroom⟩ := h.batch g i limit hp hj
      exact ⟨hlimit, by omega⟩
    · rw [hst.indices]
      exact h.ending
  · have hobj : (e.setObj g' st).obj g = e.obj g := Function.update_of_ne (Ne.symm hgg) _ _
    refine ⟨h.table, by rw [hobj]; exact h.live, ?_, ?_, h.own, ?_, ?_⟩ <;> rw [hobj]
    · exact h.idle
    · exact h.busy
    · exact h.batch
    · exact h.ending

lemma Serving.register (h : Serving e g j) (q : Query) :
    Serving (registerRequest sh q 1 e) g j := by
  unfold registerRequest
  rw [h.table]
  exact h

lemma Serving.pop (h : Serving e g j) (g' n : ℕ) : Serving (e.pop g' n) g j :=
  h.setObj ⟨rfl, rfl, rfl⟩ (fun hg => hg ▸ h.live) (List.length_drop.trans_le (Nat.sub_le _ _))

lemma Serving.clear (h : Serving e g j) (g' : ℕ) : Serving (e.clear g') g j :=
  h.setObj ⟨rfl, rfl, rfl⟩ (fun hg => hg ▸ h.live) (Nat.zero_le _)

lemma Serving.flag (h : Serving e g j) {g' : ℕ} (hne : g' ≠ g) : Serving (e.flag g') g j :=
  h.setObj ⟨rfl, rfl, rfl⟩ (fun hg => absurd hg hne) le_rfl

lemma Serving.store (h : Serving e g j) {g' : ℕ} {st : RequestState Row} {p : Producer}
    (hown : g' = g ∨ j = 0) (hstate : ∀ g'', stateOf p = some g'' → g'' = g')
    (hlive : st.cancelled = (e.obj g').cancelled)
    (hbusy : g' = g → Served st (j - 1)) (hidle : g' = g → p = .idle → Served st j)
    (hbatch : g' = g → ∀ g'' i limit, p = .batch g'' i limit ∨ p = .filling g'' i limit → 0 < j →
      min st.matchedIndices.length (256 * j) ≤ limit ∧
        st.matched.length + (limit - i) ≤ maxBuffered)
    (hending : g' = g → ∀ g'' i, p = .ending g'' i → 0 < j →
      min st.matchedIndices.length (256 * j) ≤ i) :
    Serving { e.setObj g' st with producer := p } g j := by
  by_cases hgg : g' = g
  · subst hgg
    have hset : (e.setObj g' st).obj g' = st := Function.update_self ..
    refine ⟨h.table, ?_, fun hp => ?_, ?_, fun g'' hg => .inl (hstate g'' hg), ?_, ?_⟩ <;>
      dsimp only <;> rw [hset]
    · exact hlive.trans h.live
    · exact hidle rfl hp
    · exact hbusy rfl
    · exact hbatch rfl
    · exact hending rfl
  · obtain rfl := hown.resolve_left hgg
    have hset : (e.setObj g' st).obj g = e.obj g := Function.update_of_ne (Ne.symm hgg) _ _
    refine ⟨h.table, by dsimp only; rw [hset]; exact h.live, fun _ => .zero _, .zero _,
      fun _ _ => .inr rfl, fun _ _ _ _ hj => absurd hj (by simp),
      fun _ _ _ hj => absurd hj (by simp)⟩

/-! ### A turn -/

lemma Serving.pick (h : Serving e g j) (hs : pick e = some e') : Serving e' g (j + 1) := by
  unfold Producer.pick at hs
  split at hs
  next hp =>
    obtain rfl := Option.some.inj hs
    exact ⟨h.table, h.live, nofun, h.idle hp.1, nofun, by simp, by simp⟩
  next => cases hs

lemma Serving.get (h : Serving e g j) (hs : get e = some e') : Serving e' g j := by
  unfold Producer.get at hs
  split at hs
  next hp =>
    split at hs
    next ht => exact absurd ht (by simp [h.table])
    next g' ht =>
      obtain rfl := Option.some.inj hs
      obtain rfl : g' = g := Option.some.inj (ht.symm.trans h.table)
      exact h.move nofun (fun g'' hg => .inl (Option.some.inj hg).symm) (by simp) (by simp)
  next => cases hs

lemma Serving.check {qs : ℕ → Query} (h : Serving e g j) (hok : StatesOk sh qs e)
    (hs : check sh .cpp e = some e') : Serving e' g j := by
  have hobj := hok.obj g (hok.table g h.table)
  unfold Producer.check at hs
  split at hs
  next g' hp =>
    have hown := h.own g' (by rw [hp]; rfl)
    dsimp only at hs
    split at hs
    next hflag =>
      obtain rfl := Option.some.inj hs
      refine h.move (fun _ => ?_) (by simp [stateOf]) (by simp) (by simp)
      rcases hown with rfl | rfl
      · have hdone : (e.obj g').doneProducing = true := by simpa [h.live] using hflag
        exact .of_done j hdone (hobj.done hdone)
      · exact .zero _
    next hflag =>
      split at hs
      next h0 =>
        obtain rfl := Option.some.inj hs
        have hnil : (e.obj g).matchedIndices = [] := by
          simpa [Shard.matchRows, h0] using hobj.rows
        have hall : g' = g → ∀ n, Served { e.obj g' with doneProducing := true } n := by
          intro hg n
          subst hg
          exact .of_done n rfl (by simpa [hnil] using hobj.cursor)
        exact h.store hown (by simp [stateOf]) rfl (fun hg => hall hg _) (fun hg _ => hall hg _)
          (by simp) (by simp)
      next =>
        obtain rfl := Option.some.inj hs
        exact h.move (by simp) (fun g'' hg => Option.some.inj hg ▸ hown) (by simp) (by simp)
  next => cases hs

lemma Serving.room (h : Serving e g j) (hw : (e.obj g).weight = 1)
    (hroom : (e.obj g).matched.length + 256 ≤ maxBuffered) (hs : room .cpp 0 e = some e') :
    Serving e' g j := by
  unfold Producer.room at hs
  split at hs
  next g' hp =>
    have hown := h.own g' (by rw [hp]; rfl)
    dsimp only at hs
    split at hs
    next hfull =>
      obtain rfl := Option.some.inj hs
      refine h.move (fun _ => ?_) nofun (by simp) (by simp)
      rcases hown with rfl | rfl
      · omega
      · exact .zero _
    next =>
      obtain rfl := Option.some.inj hs
      refine h.move nofun (fun g'' hg => Option.some.inj hg ▸ hown) ?_ (by simp)
      rintro g'' i limit (hb | hb) hj
      · obtain ⟨rfl, rfl, rfl⟩ := Producer.batch.inj hb
        obtain rfl := hown.resolve_right (by omega)
        have hsize : batchSize .cpp 0 (e.obj g').weight = 256 := by
          rw [hw]
          decide
        have hmade := h.busy.made
        rw [hsize]
        omega
      · cases hb
  next => cases hs

lemma Serving.test (h : Serving e g j) (hs : test e = some e') : Serving e' g j := by
  unfold Producer.test at hs
  split at hs
  next g' i limit hp =>
    have hown := h.own g' (by rw [hp]; rfl)
    split at hs
    next =>
      obtain rfl := Option.some.inj hs
      refine h.move nofun (fun g'' hg => Option.some.inj hg ▸ hown) ?_ (by simp)
      rintro g'' i' limit' (hb | hb) hj
      · cases hb
      · obtain ⟨rfl, rfl, rfl⟩ := Producer.filling.inj hb
        exact h.batch _ _ _ (.inl hp) hj
    next hleave =>
      obtain rfl := Option.some.inj hs
      refine h.move nofun (fun g'' hg => Option.some.inj hg ▸ hown) (by simp) ?_
      intro g'' i' he hj
      obtain ⟨rfl, rfl⟩ := Producer.ending.inj he
      obtain rfl := hown.resolve_right (by omega)
      have hlimit : limit ≤ i := by
        by_contra hlt
        exact hleave ⟨by omega, h.live⟩
      exact (h.batch _ _ _ (.inl hp) hj).1.trans hlimit
  next => cases hs

lemma Serving.push (h : Serving e g j) (hs : push sh e = some e') : Serving e' g j := by
  unfold Producer.push at hs
  split at hs
  next g' i limit hp =>
    obtain ⟨idx, -, rfl⟩ := Option.map_eq_some_iff.mp hs
    have hown := h.own g' (by rw [hp]; rfl)
    have hlen : ((e.obj g').matched ++ [sh.fill idx]).length = (e.obj g').matched.length + 1 := by
      simp
    dsimp only
    split
    next hfull =>
      refine h.store hown (by simp [stateOf]) rfl (fun hg => ?_) (by simp) (by simp) ?_
      · exact hg ▸ h.busy.congr ⟨rfl, rfl, rfl⟩
      · intro hg g'' i' he hj
        subst hg
        obtain ⟨-, rfl⟩ := Producer.ending.inj he
        obtain ⟨hlimit, hroom⟩ := h.batch _ _ _ (.inr hp) hj
        dsimp only
        omega
    next hfull =>
      refine h.store hown (by simp [stateOf]) rfl (fun hg => ?_) (by simp) ?_ (by simp)
      · exact hg ▸ h.busy.congr ⟨rfl, rfl, rfl⟩
      · rintro hg g'' i' limit' (hb | hb) hj
        · subst hg
          obtain ⟨-, rfl, rfl⟩ := Producer.batch.inj hb
          obtain ⟨hlimit, hroom⟩ := h.batch _ _ _ (.inr hp) hj
          exact ⟨hlimit, by dsimp only; omega⟩
        · cases hb
  next => cases hs

lemma Serving.finish (h : Serving e g j) (hs : finish e = some e') : Serving e' g j := by
  unfold Producer.finish at hs
  split at hs
  next g' i hp =>
    have hown := h.own g' (by rw [hp]; rfl)
    obtain rfl := Option.some.inj hs
    -- without a turn nothing has to be there
    have hall : g' = g → ∀ n ≤ j, Served
        { e.obj g' with
          matchedCursor := i
          doneProducing := (e.obj g').doneProducing ||
            decide ((e.obj g').matchedIndices.length ≤ i) } n := by
      intro hg n hn
      subst hg
      rcases Nat.eq_zero_or_pos n with rfl | hn0
      · exact .zero _
      · have hend := h.ending _ _ hp (by omega)
        refine ⟨?_, fun _ hle => ?_⟩
        · dsimp only
          omega
        · dsimp only at hle ⊢
          rw [decide_eq_true (by omega), Bool.or_true]
    exact h.store hown nofun rfl (fun hg => hall hg _ (Nat.sub_le _ _))
      (fun hg _ => hall hg _ le_rfl) (by simp) (by simp)
  next => cases hs

lemma Serving.work {qs : ℕ → Query} (h : Serving e g j) (hok : StatesOk sh qs e)
    (hw : (e.obj g).weight = 1) {act : ProdAct} (hbusy : e.producer ≠ .idle)
    (hroom : act = .room → (e.obj g).matched.length + 256 ≤ maxBuffered)
    (hs : prodStep sh .cpp 0 e act = some e') : Serving e' g j := by
  cases act with
  | pick =>
    simp only [prodStep, Producer.pick, if_neg fun h : e.producer = .idle ∧ 0 < e.scheduled =>
      hbusy h.1] at hs
    cases hs
  | get => exact h.get hs
  | check => exact h.check hok hs
  | room => exact h.room hw (hroom rfl) hs
  | test => exact h.test hs
  | push => exact h.push hs
  | finish => exact h.finish hs

/-! ### Runs -/

/-- The request is not cancelled, and whenever the thread looks there is room for a batch. -/
structure Draining (M : ℕ) (rid : String) (g : ℕ) (s : Node Row) (a : Act Query) : Prop
    extends Undisturbed M rid s a where
  live : a ≠ .flag rid g
  room : a = .work .room → s.working = some rid →
    ((s.entries rid).obj g).matched.length + 256 ≤ maxBuffered

lemma Serving.step (hok : NodeOk sh s) (h : Serving (s.entries rid) g j)
    (hg : Draining M rid g s a) (hs : step sh s a = some s')
    (hn : ¬ (IsSlot s a ∧ IsTurn rid s a)) : Serving (s'.entries rid) g j := by
  -- a step with another request leaves this one as it is
  have hput : ∀ {x : String} {e : Request.Entry Row}, (x = rid → Serving e g j) →
      Serving ((s.put x e).entries rid) g j := by
    intro x e hx
    rw [put_entries]
    split
    next heq => exact hx heq.symm
    next => exact h
  cases a with
  | slot =>
    simp only [Production.step, Production.slot] at hs
    split at hs
    next =>
      split at hs
      next =>
        obtain rfl := Option.some.inj hs
        exact h
      next =>
        obtain ⟨e, -, rfl⟩ := Option.map_eq_some_iff.mp hs
        exact hput fun hx => absurd ⟨rfl, hx⟩ hn
    next => cases hs
  | work act =>
    obtain ⟨x, hx, hs⟩ := Option.bind_eq_some_iff.mp hs
    obtain ⟨e, he, rfl⟩ := Option.map_eq_some_iff.mp hs
    refine hput fun heq => ?_
    subst heq
    obtain ⟨qs, hqs⟩ := (hok.requests x).states
    have hlt := hqs.table g h.table
    exact h.work hqs ((hok.requests x).weight g hlt) ((hok.working x).mp hx)
      (fun hact => hg.room (hact ▸ rfl) hx) he
  | register x q =>
    obtain rfl := Option.some.inj hs
    exact hput fun heq => heq ▸ h.register q
  | drop x =>
    obtain rfl := Option.some.inj hs
    exact hput fun heq => absurd (heq ▸ rfl) hg.kept
  | pop x g' n =>
    obtain rfl := Option.some.inj hs
    exact hput fun heq => heq ▸ h.pop g' n
  | flag x g' =>
    obtain rfl := Option.some.inj hs
    refine hput fun heq => ?_
    subst heq
    exact h.flag fun hg' => hg.live (hg' ▸ rfl)
  | clear x g' =>
    obtain rfl := Option.some.inj hs
    exact hput fun heq => heq ▸ h.clear g'

lemma Serving.turn (h : Serving (s.entries rid) g j) (hrid : rid ≠ "")
    (hs : Production.step sh s (.slot : Act Query) = some s') (hn : (next s.sched).1 = rid) :
    Serving (s'.entries rid) g (j + 1) := by
  simp only [Production.step, Production.slot] at hs
  split at hs
  next =>
    rw [if_neg (hn ▸ hrid)] at hs
    obtain ⟨e, he, rfl⟩ := Option.map_eq_some_iff.mp hs
    rw [hn] at he
    show Serving ((s.put (next s.sched).1 e).entries rid) g (j + 1)
    rw [put_entries, if_pos hn.symm]
    exact h.pick he
  next => cases hs

lemma indices_touches (h : Touches sh e e') (hg : g < e.gens) :
    (e'.obj g).matchedIndices = (e.obj g).matchedIndices := by
  have hset : ∀ g' st, st.matchedIndices = (e.obj g').matchedIndices →
      ((e.setObj g' st).obj g).matchedIndices = (e.obj g).matchedIndices := by
    intro g' st hst
    by_cases hgg : g = g'
    · subst hgg
      simpa [Entry.setObj] using hst
    · simp [Entry.setObj, hgg]
  cases h with
  | none heq => rw [heq]
  | work a hs =>
    cases produces_of_step hs
    case nothing => exact hset _ _ rfl
    case push => exact hset _ _ rfl
    case finish => exact hset _ _ rfl
    all_goals rfl
  | handle hh =>
    cases hh with
    | register q =>
      unfold registerRequest
      split
      · rfl
      · dsimp only
        rw [Function.update_of_ne (by omega)]
    | drop => rfl
    | pop g' n => exact hset _ _ rfl
    | flag g' => exact hset _ _ rfl
    | clear g' => exact hset _ _ rfl

lemma indices_step (hok : NodeOk sh s) (ht : (s.entries rid).table = some g)
    (hs : Production.step sh s a = some s') :
    ((s'.entries rid).obj g).matchedIndices = ((s.entries rid).obj g).matchedIndices := by
  obtain ⟨qs, hqs⟩ := (hok.requests rid).states
  exact indices_touches (touches hs rid) (hqs.table g ht)

variable {G : Node Row → Act Query → Prop} {mode : Mode}

/-! ### First in, first out -/

/-- The first request of a queue that only serves it. -/
structure Blocked (first rid : String) (e₀ : Request.Entry Row) (s : Node Row) : Prop where
  mode : s.sched.mode = .fifo
  sound : Sound s.sched
  first : (ids s.sched).head? = some first
  away : s.working ≠ some rid
  gens : e₀.gens ≤ (s.entries rid).gens
  still : ∀ g < e₀.gens, ((s.entries rid).obj g).matchedCursor = (e₀.obj g).matchedCursor

lemma mode_add (sched : FairScheduler) (x : String) (weight : ℤ) :
    (add sched x weight).mode = sched.mode := by
  unfold Scheduler.add
  split <;> rfl

lemma mode_remove (sched : FairScheduler) (x : String) : (remove sched x).mode = sched.mode := by
  unfold Scheduler.remove
  split <;> rfl

lemma front_eq {sched : FairScheduler} {first : String} (h : (ids sched).head? = some first) :
    front sched = first := by
  unfold front
  unfold ids at h
  split
  next hq => simp [hq] at h
  next e q hq => simpa [hq] using h

lemma handles_still (hh : Handles sh e e') :
    e.gens ≤ e'.gens ∧ ∀ g < e.gens, (e'.obj g).matchedCursor = (e.obj g).matchedCursor := by
  have hset : ∀ g' st, st.matchedCursor = (e.obj g').matchedCursor → ∀ g,
      ((e.setObj g' st).obj g).matchedCursor = (e.obj g).matchedCursor := by
    intro g' st hst g
    by_cases hgg : g = g'
    · subst hgg
      simpa [Entry.setObj] using hst
    · simp [Entry.setObj, hgg]
  cases hh with
  | register q =>
    refine ⟨register_gens_le, fun g hg => ?_⟩
    rw [(register_obj hg).1]
  | drop => exact ⟨le_rfl, fun _ _ => rfl⟩
  | pop g' n =>
    exact ⟨le_rfl, fun g _ =>
      hset g' { e.obj g' with matched := (e.obj g').matched.drop n } rfl g⟩
  | flag g' => exact ⟨le_rfl, fun g _ => hset g' { e.obj g' with cancelled := true } rfl g⟩
  | clear g' => exact ⟨le_rfl, fun g _ => hset g' { e.obj g' with matched := [] } rfl g⟩

variable {first : String} {e₀ : Request.Entry Row}

lemma Blocked.next_eq (h : Blocked first rid e₀ s) : next s.sched = (first, s.sched) := by
  have hne : s.sched.q ≠ [] := by
    intro hnil
    have hfirst := h.first
    simp [ids, hnil] at hfirst
  rw [next_of_fifo h.mode (h.sound.cursor_lt hne), front_eq h.first]

lemma Blocked.handle (h : Blocked first rid e₀ s) {x : String} {e : Request.Entry Row}
    (hh : Handles sh (s.entries x) e) {sched : FairScheduler} (hmode : sched.mode = s.sched.mode)
    (hsound : Sound sched) (hfirst : (ids sched).head? = (ids s.sched).head?) :
    Blocked first rid e₀ { s.put x e with sched := sched } := by
  have hentry : ({ s.put x e with sched := sched } : Node Row).entries rid =
      if rid = x then e else s.entries rid := put_entries s x e rid
  refine ⟨hmode.trans h.mode, hsound, hfirst.trans h.first, h.away, ?_, fun g hg => ?_⟩ <;>
    rw [hentry]
  · split
    next heq =>
      subst heq
      exact h.gens.trans (handles_still hh).1
    next => exact h.gens
  · split
    next heq =>
      subst heq
      exact ((handles_still hh).2 g (hg.trans_le h.gens)).trans (h.still g hg)
    next => exact h.still g hg

lemma Blocked.slot (h : Blocked first rid e₀ s) (hne : rid ≠ first)
    (hs : Production.slot s = some s') : Blocked first rid e₀ s' := by
  simp only [Production.slot, h.next_eq] at hs
  split at hs
  next =>
    split at hs
    next =>
      obtain rfl := Option.some.inj hs
      exact ⟨h.mode, h.sound, h.first, h.away, h.gens, h.still⟩
    next =>
      obtain ⟨e, -, rfl⟩ := Option.map_eq_some_iff.mp hs
      have hentry : (s.put first e).entries rid = s.entries rid := by
        rw [put_entries, if_neg hne]
      exact ⟨h.mode, h.sound, h.first, fun heq => hne (Option.some.inj heq).symm,
        hentry.symm ▸ h.gens, hentry.symm ▸ h.still⟩
  next => cases hs

lemma Blocked.work {act : ProdAct} (h : Blocked first rid e₀ s)
    (hs : Production.work sh s act = some s') : Blocked first rid e₀ s' := by
  obtain ⟨x, hx, hs⟩ := Option.bind_eq_some_iff.mp hs
  obtain ⟨e, -, rfl⟩ := Option.map_eq_some_iff.mp hs
  have hxr : rid ≠ x := fun heq => h.away (heq ▸ hx)
  have hentry : (s.put x e).entries rid = s.entries rid := by
    rw [put_entries, if_neg hxr]
  refine ⟨h.mode, h.sound, h.first, ?_, hentry.symm ▸ h.gens, hentry.symm ▸ h.still⟩
  dsimp only
  split
  · nofun
  · exact fun heq => hxr (Option.some.inj heq).symm

lemma Blocked.step (h : Blocked first rid e₀ s) (hne : rid ≠ first) (ha : a ≠ .drop first)
    (hs : Production.step sh s a = some s') : Blocked first rid e₀ s' := by
  cases a with
  | slot => exact h.slot hne hs
  | work act => exact h.work hs
  | register x q =>
    obtain rfl := Option.some.inj hs
    refine h.handle (.register q) ?_ ?_ ?_
    · split
      · exact mode_add _ _ _
      · rfl
    · split
      · exact h.sound.add x 1
      · exact h.sound
    · split
      · by_cases hmem : x ∈ ids s.sched
        · exact congrArg List.head? (rids_add_of_mem hmem 1)
        · have hids : ids (add s.sched x 1) = ids s.sched ++ [x] := rids_add_of_not_mem hmem 1
          rw [hids, List.head?_append, h.first]
          rfl
      · rfl
  | drop x =>
    obtain rfl := Option.some.inj hs
    have hx : x ≠ first := fun heq => ha (heq ▸ rfl)
    refine h.handle (Handles.drop : Handles sh _ _) (mode_remove _ _) (h.sound.remove x) ?_
    · have hids : ids (remove s.sched x) = (ids s.sched).erase x := rids_remove s.sched x
      obtain ⟨rest, hrest⟩ := List.head?_eq_some_iff.mp h.first
      rw [hids, hrest, List.erase_cons_tail (by simpa using hx.symm)]
      rfl
  | pop x g n =>
    obtain rfl := Option.some.inj hs
    exact h.handle (.pop g n : Handles sh _ _) rfl h.sound rfl
  | flag x g =>
    obtain rfl := Option.some.inj hs
    exact h.handle (.flag g : Handles sh _ _) rfl h.sound rfl
  | clear x g =>
    obtain rfl := Option.some.inj hs
    exact h.handle (.clear g : Handles sh _ _) rfl h.sound rfl

lemma fifo_step (h : s.sched.mode = .fifo ∧ Sound s.sched) (hs : Production.step sh s a = some s') :
    s'.sched.mode = .fifo ∧ Sound s'.sched := by
  have hsched := sched_step hs
  cases a with
  | slot =>
    rw [hsched]
    refine ⟨?_, h.2.next⟩
    by_cases hne : s.sched.q = []
    · rw [next, if_pos hne]
      exact h.1
    · rw [next_of_fifo h.1 (h.2.cursor_lt hne)]
      exact h.1
  | register x q =>
    dsimp only at hsched
    rw [hsched]
    split
    · exact ⟨(mode_add _ _ _).trans h.1, h.2.add x 1⟩
    · exact h
  | drop x =>
    dsimp only at hsched
    rw [hsched]
    exact ⟨(mode_remove _ _).trans h.1, h.2.remove x⟩
  | work | pop | flag | clear => exact hsched ▸ h

/-- **First in, first out**: as long as the first request is not dropped, done or not, no other has
a turn, and none of their rows is made. -/
theorem fifo_blocks (hr : Reach (step sh) G (Node.start .fifo) s)
    (hfirst : (ids s.sched).head? = some first) (hne : rid ≠ first) (haway : s.working ≠ some rid)
    (h : Run (step sh) (fun _ a => a ≠ .drop first) IsSlot (IsTurn rid) s k j s') :
    j = 0 ∧ ∀ g < (s.entries rid).gens,
      ((s'.entries rid).obj g).matchedCursor = ((s.entries rid).obj g).matchedCursor := by
  have hstart : (Node.start .fifo : Node Row).sched.mode = .fifo ∧
      Sound (Node.start .fifo : Node Row).sched := ⟨rfl, List.nodup_nil, .inr ⟨rfl, rfl⟩⟩
  have hfifo : s.sched.mode = .fifo ∧ Sound s.sched :=
    hr.invariant (I := fun s => s.sched.mode = .fifo ∧ Sound s.sched) hstart
      fun _ _ _ _ hi _ hs => fifo_step hi hs
  have h0 : Blocked first rid (s.entries rid) s :=
    ⟨hfifo.1, hfifo.2, hfirst, haway, le_rfl, fun _ _ => rfl⟩
  obtain ⟨hblocked, hj⟩ := h.invariant
    (I := fun j s' => Blocked first rid (s.entries rid) s' ∧ j = 0) ⟨h0, rfl⟩
    (fun _ _ _ _ hi hg hs _ => ⟨hi.1.step hne hg hs, hi.2⟩)
    (fun _ t _ _ hi _ _ _ hturn => by
      have hnext : (next t.sched).1 = rid := hturn
      rw [hi.1.next_eq] at hnext
      exact absurd hnext.symm hne)
  exact ⟨hj, hblocked.still⟩

/-- A node with so many rows. -/
def rowsUpTo (n : ℕ) : Shard Unit ℕ where
  loaded := true
  size := n
  predicateCanMatch _ := true
  rangeSearch _ := List.range n
  fill i := i
  size_of_not_loaded h := absurd h (by decide)

def oneRow : Shard Unit ℕ := rowsUpTo 1

/-- One request before another. -/
def inLine : Node ℕ := register oneRow (register oneRow (Node.start .fifo) "a" ()) "b" ()

theorem fifo_blocks_inLine : ∃ s', Run (step oneRow) (fun _ a => a ≠ .drop "a") IsSlot (IsTurn "b")
    inLine 1 0 s' ∧ 0 = 0 ∧ ∀ g < 1, ((s'.entries "b").obj g).matchedCursor =
      ((inLine.entries "b").obj g).matchedCursor := by
  have hr : Reach (step oneRow) (fun _ _ => True) (Node.start .fifo) inLine :=
    .step (.step .init trivial (rfl : step oneRow _ (.register "a" ()) = _)) trivial
      (rfl : step oneRow _ (.register "b" ()) = _)
  have hrun : Run (step oneRow) (fun _ a => a ≠ .drop "a") IsSlot (IsTurn "b") inLine 0 0 inLine :=
    .start
  have hrun := hrun.pass (a := .slot) nofun rfl rfl (by unfold IsTurn; decide)
  exact ⟨_, hrun, fifo_blocks hr rfl (by decide) nofun hrun⟩

/-! ### Every request is served -/

variable [Nonempty Query]

/-- **Every request has its turn**: whatever requests come and go, with at most `M` of them at a
time a request has one of every `M * M` slots. -/
theorem turns_ge (hm : mode ≠ .fifo) (hr : Reach (step sh) G (Node.start mode) s)
    (hfew : s.sched.q.length ≤ M) (ht : (s.entries rid).table ≠ none)
    (h : Run (step sh) (Undisturbed M rid) IsSlot (IsTurn rid) s k j s') {n : ℕ}
    (hk : n * (M * M) ≤ k) : n ≤ j := by
  have hok := nodeOk hm hr
  exact Listed.le_turns ⟨hok, hfew, (hok.listed rid).mpr ht⟩ h hk

/-- **A request that is drained is done in time**: with at most `M` requests at a time, after
`M * M` slots for each batch of its rows, and twice as many for the last, the rows that are
listed for it have all been put into its buffer. -/
theorem all_produced (hm : mode ≠ .fifo) (hr : Reach (step sh) G (Node.start mode) s)
    (hfew : s.sched.q.length ≤ M) (hrid : rid ≠ "") (ht : (s.entries rid).table = some g)
    (hlive : ((s.entries rid).obj g).cancelled = false)
    (h : Run (step sh) (Draining M rid g) IsSlot (IsTurn rid) s k j s')
    (hk : (((s.entries rid).obj g).matchedIndices.length / 256 + 2) * (M * M) ≤ k) :
    ((s'.entries rid).obj g).doneProducing = true ∧
      ((s'.entries rid).obj g).matchedCursor =
        ((s.entries rid).obj g).matchedIndices.length := by
  have hok := nodeOk hm hr
  have h0 : Listed sh M rid s := ⟨hok, hfew, (hok.listed rid).mpr (by rw [ht]; nofun)⟩
  have hturns := h0.le_turns (h.mono fun _ _ hg => hg.toUndisturbed) hk
  set idxs := ((s.entries rid).obj g).matchedIndices
  obtain ⟨hlisted, hserving, hidx⟩ := h.invariant
    (I := fun j s => Listed sh M rid s ∧ Serving (s.entries rid) g j ∧
      ((s.entries rid).obj g).matchedIndices = idxs)
    ⟨h0, .begin ht hlive, rfl⟩
    (fun j s a s' hi hg hs hn => ⟨hi.1.step hg.toUndisturbed hs, hi.2.1.step hi.1.ok hg hs hn,
      (indices_step hi.1.ok hi.2.1.table hs).trans hi.2.2⟩)
    (fun j s a s' hi hg hs hslot hn => by
      obtain rfl : a = .slot := hslot
      exact ⟨hi.1.step hg.toUndisturbed hs, hi.2.1.turn hrid hs hn,
        (indices_step hi.1.ok hi.2.1.table hs).trans hi.2.2⟩)
  have hdone := hserving.busy.done (by omega) (by rw [hidx]; omega)
  obtain ⟨qs, hqs⟩ := (hlisted.ok.requests rid).states
  exact ⟨hdone, hidx ▸ (hqs.obj g (hqs.table g hserving.table)).done hdone⟩

def oneRequest : Node ℕ := register oneRow (Node.start .roundRobin) "q" ()

/-- The row is made in the first turn; in the second one there is nothing left to do. -/
lemma oneRequest_run : ∃ s', Run (step oneRow) (Draining 1 "q" 0) IsSlot (IsTurn "q") oneRequest
    2 2 s' := by
  have hwork : ∀ (s : Node ℕ) (act : ProdAct), ((s.entries "q").obj 0).matched.length = 0 →
      Draining 1 "q" 0 s (.work act : Act Unit) :=
    fun s act h => ⟨⟨nofun, nofun⟩, nofun, fun _ _ => by rw [h]; decide⟩
  have hother : ∀ (s : Node ℕ) (act : ProdAct), act ≠ .room →
      Draining 1 "q" 0 s (.work act : Act Unit) :=
    fun s act h => ⟨⟨nofun, nofun⟩, nofun, fun ha => absurd (Act.work.inj ha) h⟩
  have hslot : ∀ s : Node ℕ, Draining 1 "q" 0 s (.slot : Act Unit) :=
    fun s => ⟨⟨nofun, nofun⟩, nofun, nofun⟩
  have h0 : Run (step oneRow) (Draining 1 "q" 0) IsSlot (IsTurn "q") oneRequest 0 0 oneRequest :=
    .start
  have h1 := h0.turn (hslot _) rfl rfl rfl
  have h2 := h1.other (hother _ .get nofun) rfl nofun
  have h3 := h2.other (hother _ .check nofun) rfl nofun
  have h4 := h3.other (hwork _ .room rfl) rfl nofun
  have h5 := h4.other (hother _ .test nofun) rfl nofun
  have h6 := h5.other (hother _ .push nofun) rfl nofun
  have h7 := h6.other (hother _ .test nofun) rfl nofun
  have h8 := h7.other (hother _ .finish nofun) rfl nofun
  exact ⟨_, h8.turn (hslot _) rfl rfl rfl⟩

lemma oneRequest_reach :
    Reach (step oneRow) (fun _ _ => True) (Node.start .roundRobin) oneRequest :=
  .step .init trivial (rfl : step oneRow _ (.register "q" ()) = _)

theorem turns_ge_one : ∃ s', Run (step oneRow) (Undisturbed 1 "q") IsSlot (IsTurn "q") oneRequest
    2 2 s' ∧ 2 ≤ 2 := by
  obtain ⟨s', hrun⟩ := oneRequest_run
  have hrun := hrun.mono fun _ _ hg => hg.toUndisturbed
  have ht : (oneRequest.entries "q").table ≠ none := Option.some_ne_none 0
  exact ⟨s', hrun, turns_ge (by decide) oneRequest_reach le_rfl ht hrun (by decide)⟩

theorem all_produced_one : ∃ s', Run (step oneRow) (Draining 1 "q" 0) IsSlot (IsTurn "q") oneRequest
    2 2 s' ∧ ((s'.entries "q").obj 0).doneProducing = true ∧
      ((s'.entries "q").obj 0).matchedCursor = 1 := by
  obtain ⟨s', hrun⟩ := oneRequest_run
  exact ⟨s', hrun, all_produced (by decide) oneRequest_reach le_rfl (by decide) rfl rfl hrun
    (by decide)⟩

end Mini2.Production
