import Mini2.ActiveIds
import Mini2.Cluster
import Mini2.GatherShape
import Mini2.Turns

/-!
Whom the producers of a running overlay take up. The thread of a C++ node asks its scheduler; that
of a Python node goes over a copy of its list of requests, and makes a new one when it is through.
-/

namespace Mini2.Dispatch

open Mini2.Proto Mini2.Net Mini2.Request Mini2.Producer Mini2.Gather Mini2.GatherSteps
open Mini2.GatherShape Mini2.Runs Mini2.Cluster Mini2.Scheduler Mini2.Turns

/-! ### The turns at a node -/

/-- The scheduler of a C++ node, or `_rr_order` and what is left of the copy. -/
inductive Turns
  | cpp (sched : FairScheduler)
  | python (order left : List String)

def Turns.start (mode : Mode) : Impl → Turns
  | .cpp => .cpp (empty mode)
  | .python => .python [] []

/-- Whose turn it is, and the turns after that one. -/
def Turns.next : Turns → Option (String × Turns)
  | .cpp sched =>
    if (Scheduler.next sched).1 = "" then none
    else some ((Scheduler.next sched).1, .cpp (Scheduler.next sched).2)
  | .python _ [] => none
  | .python order (rid :: left) => some (rid, .python order left)

/-- The request, listed `k` times before, is listed `k'` times now. -/
def Turns.relist (rid : String) (k k' : ℕ) : Turns → Turns
  | .cpp sched =>
    .cpp (if k' = 0 then Scheduler.remove sched rid
      else if k = 0 then Scheduler.add sched rid 1
      else sched)
  | .python order left =>
    .python (if k < k' then order ++ [rid] else if k' < k then order.erase rid else order) left

/-! ### The steps -/

variable {N Rid : Type} [DecidableEq N] [DecidableEq Rid]

structure State (N Rid : Type) where
  requests : Requests N Rid
  turns : N → Turns

inductive Act (N Rid : Type)
  | request (a : Rid × Gather.Act N)
  | copy (n : N)
  | skip (rid : Rid) (n : N)

def State.init (impl : N → Impl) (mode : Mode) : State N Rid :=
  ⟨Requests.init N Rid, fun n => .start mode (impl n)⟩

/-- The nodes list a request as often as it says of itself. -/
def State.relisted (S : State N Rid) (name : Rid → String) (rid : Rid) (R : Requests N Rid) :
    State N Rid where
  requests := R
  turns n := if ((R.request rid).node n).scheduled = ((S.requests.request rid).node n).scheduled
    then S.turns n
    else (S.turns n).relist (name rid) ((S.requests.request rid).node n).scheduled
      ((R.request rid).node n).scheduled

/-- A step of the requests, of which a producer takes up the one whose turn it is. The thread of a
Python node passes over a request that its node has lost. -/
def step (c : Rid → Config N Query TaxiRow) (query : Rid → Query) (name : Rid → String)
    (S : State N Rid) : Act N Rid → Option (State N Rid)
  | .request (rid, .produce n .pick) =>
    (S.turns n).next.bind fun p =>
      if p.1 = name rid then
        (stepOf c query S.requests (rid, .produce n .pick)).map fun R =>
          ⟨R, Function.update S.turns n p.2⟩
      else none
  | .request (rid, a) => (stepOf c query S.requests (rid, a)).map (S.relisted name rid)
  | .copy n =>
    match S.turns n with
    | .python order [] =>
      if S.requests.busy n = none then
        some { S with turns := Function.update S.turns n (.python order order) }
      else none
    | _ => none
  | .skip rid n =>
    match S.turns n with
    | .python order (x :: left) =>
      if S.requests.busy n = none ∧ x = name rid ∧
          ((S.requests.request rid).node n).table = none then
        some { S with turns := Function.update S.turns n (.python order left) }
      else none
    | _ => none

variable {c : Rid → Config N Query TaxiRow} {query : Rid → Query} {name : Rid → String}
  {S S' : State N Rid}

/-- Only the first step of a turn depends on the turns. -/
lemma step_request {a : Rid × Gather.Act N} (ha : ∀ n, a.2 ≠ .produce n .pick) :
    step c query name S (.request a) =
      (stepOf c query S.requests a).map (S.relisted name a.1) := by
  obtain ⟨rid, a⟩ := a
  cases a with
  | produce n act =>
    cases act with
    | pick => exact absurd rfl (ha n)
    | _ => rfl
  | _ => rfl

lemma step_pick {rid : Rid} {n : N} {t : Turns} {R : Requests N Rid}
    (hn : (S.turns n).next = some (name rid, t))
    (hst : stepOf c query S.requests (rid, .produce n .pick) = some R) :
    step c query name S (.request (rid, .produce n .pick)) =
      some ⟨R, Function.update S.turns n t⟩ := by
  simp only [step, hn, Option.bind_some, if_true, hst, Option.map_some]

lemma requests_step {a : Act N Rid} (hst : step c query name S a = some S') :
    S'.requests = S.requests ∨
      ∃ b, a = .request b ∧ stepOf c query S.requests b = some S'.requests := by
  cases a with
  | request b =>
    refine .inr ⟨b, rfl, ?_⟩
    by_cases hb : ∃ n, b.2 = .produce n .pick
    · obtain ⟨rid, _⟩ := b
      obtain ⟨n, rfl⟩ := hb
      obtain ⟨p, -, hp⟩ := Option.bind_eq_some_iff.mp hst
      split at hp
      next =>
        obtain ⟨R, hR, rfl⟩ := Option.map_eq_some_iff.mp hp
        exact hR
      next => cases hp
    · rw [step_request fun n h => hb ⟨n, h⟩] at hst
      obtain ⟨R, hR, rfl⟩ := Option.map_eq_some_iff.mp hst
      exact hR
  | copy n =>
    simp only [step] at hst
    split at hst
    next =>
      split at hst
      next =>
        obtain rfl := Option.some.inj hst
        exact .inl rfl
      next => cases hst
    next => cases hst
  | skip rid n =>
    simp only [step] at hst
    split at hst
    next =>
      split at hst
      next =>
        obtain rfl := Option.some.inj hst
        exact .inl rfl
      next => cases hst
    next => cases hst

/-- **A run of the system is a run of the requests.** -/
theorem requests_reach {G : State N Rid → Act N Rid → Prop} {H : Rid × Gather.Act N → Prop}
    (hG : ∀ S b, G S (.request b) → H b) {S₀ : State N Rid}
    (h : Reach (step c query name) G S₀ S) :
    Reach (stepOf c query) (fun _ b => H b) S₀.requests S.requests := by
  induction h with
  | init => exact .init
  | step _ hg hst ih =>
    rcases requests_step hst with heq | ⟨b, rfl, hb⟩
    · rwa [heq]
    · exact ih.step (hG _ b hg) hb

/-! ### Who is in line -/

/-- The turns are over the requests that the node lists. -/
def Lined (name : Rid → String) (listed : Rid → ℕ) : Turns → Prop
  | .cpp sched => Sound sched ∧ Unweighted sched ∧ (∀ x ∈ ids sched, ∃ rid, name rid = x) ∧
      ∀ rid, name rid ∈ ids sched ↔ 0 < listed rid
  | .python order left => (∀ x ∈ order ++ left, ∃ rid, name rid = x) ∧
      ∀ rid, order.count (name rid) = listed rid

variable {listed : Rid → ℕ} {t t' : Turns} {rid : Rid} {x : String}

omit [DecidableEq Rid] in
lemma lined_start {mode : Mode} (hm : mode ≠ .fifo) (impl : Impl) :
    Lined name (fun _ => 0) (.start mode impl) := by
  cases impl with
  | cpp =>
    refine ⟨⟨List.nodup_nil, .inr ⟨rfl, rfl⟩⟩, ⟨hm, ?_⟩, ?_, ?_⟩ <;> simp [empty, ids]
  | python => exact ⟨by simp, fun _ => rfl⟩

lemma lined_cpp {sched : FairScheduler} (hname : Function.Injective name)
    (h : Lined name listed (.cpp sched)) (k : ℕ) :
    Lined name (Function.update listed rid k)
      ((Turns.cpp sched).relist (name rid) (listed rid) k) := by
  obtain ⟨hs, hu, hnames, hmem⟩ := h
  have hother : ∀ {r}, r ≠ rid → (name r ∈ ids sched ↔ 0 < Function.update listed rid k r) := by
    intro r hr
    rw [Function.update_of_ne hr, hmem]
  simp only [Turns.relist]
  by_cases hk : k = 0
  · rw [if_pos hk]
    refine ⟨hs.remove _, hu.remove _, fun x hx => ?_, fun r => ?_⟩
    · rw [ids_remove] at hx
      exact hnames x (List.mem_of_mem_erase hx)
    · have herase : name r ∈ (ids sched).erase (name rid) ↔
          name r ≠ name rid ∧ name r ∈ ids sched := List.Nodup.mem_erase_iff hs.nodup
      rw [ids_remove, herase]
      by_cases hr : r = rid
      · simp [hr, hk]
      · rw [← hother hr]
        exact and_iff_right fun heq => hr (hname heq)
  rw [if_neg hk]
  by_cases hnew : listed rid = 0
  · rw [if_pos hnew]
    have hnot : name rid ∉ ids sched := fun hin => ((hmem rid).mp hin).ne' hnew
    refine ⟨hs.add _ _, hu.add _, fun x hx => ?_, fun r => ?_⟩
    · rw [ids_add_of_not_mem hnot] at hx
      rcases List.mem_append.mp hx with hx | hx
      · exact hnames x hx
      · exact ⟨rid, (List.mem_singleton.mp hx).symm⟩
    · rw [ids_add_of_not_mem hnot, List.mem_append, List.mem_singleton]
      by_cases hr : r = rid
      · simp [hr, Nat.pos_of_ne_zero hk]
      · rw [← hother hr]
        exact or_iff_left fun heq => hr (hname heq)
  · rw [if_neg hnew]
    refine ⟨hs, hu, hnames, fun r => ?_⟩
    by_cases hr : r = rid
    · subst hr
      rw [Function.update_self, hmem]
      omega
    · exact hother hr

lemma lined_python {order left : List String} (hname : Function.Injective name)
    (h : Lined name listed (.python order left)) {k : ℕ} (hk : k ≤ listed rid + 1)
    (hk' : listed rid ≤ k + 1) : Lined name (Function.update listed rid k)
      ((Turns.python order left).relist (name rid) (listed rid) k) := by
  obtain ⟨hnames, hcount⟩ := h
  have hother : ∀ {r}, r ≠ rid → order.count (name r) = Function.update listed rid k r := by
    intro r hr
    rw [Function.update_of_ne hr, hcount]
  simp only [Turns.relist]
  by_cases hlt : listed rid < k
  · rw [if_pos hlt]
    refine ⟨fun x hx => ?_, fun r => ?_⟩
    · simp only [List.mem_append, List.mem_singleton] at hx
      rcases hx with (hx | rfl) | hx
      · exact hnames x (List.mem_append_left _ hx)
      · exact ⟨rid, rfl⟩
      · exact hnames x (List.mem_append_right _ hx)
    · rw [List.count_append]
      by_cases hr : r = rid
      · subst hr
        rw [Function.update_self, List.count_singleton_self, hcount]
        omega
      · have hnot : name r ∉ [name rid] := fun heq => hr (hname (List.mem_singleton.mp heq))
        rw [← hother hr, List.count_eq_zero.mpr hnot, Nat.add_zero]
  rw [if_neg hlt]
  by_cases hgt : k < listed rid
  · rw [if_pos hgt]
    refine ⟨fun x hx => ?_, fun r => ?_⟩
    · rcases List.mem_append.mp hx with hx | hx
      · exact hnames x (List.mem_append_left _ (List.mem_of_mem_erase hx))
      · exact hnames x (List.mem_append_right _ hx)
    · by_cases hr : r = rid
      · subst hr
        rw [Function.update_self, List.count_erase_self, hcount]
        omega
      · rw [List.count_erase_of_ne fun heq => hr (hname heq), hother hr]
  · rw [if_neg hgt]
    refine ⟨hnames, fun r => ?_⟩
    by_cases hr : r = rid
    · subst hr
      rw [Function.update_self, hcount]
      omega
    · exact hother hr

lemma Lined.relist (hname : Function.Injective name) (h : Lined name listed t) {k : ℕ}
    (hk : k ≤ listed rid + 1) (hk' : listed rid ≤ k + 1) :
    Lined name (Function.update listed rid k) (t.relist (name rid) (listed rid) k) := by
  cases t with
  | cpp sched => exact lined_cpp hname h k
  | python order left => exact lined_python hname h hk hk'

omit [DecidableEq Rid] in
lemma Lined.next (h : Lined name listed t) (hn : t.next = some (x, t')) : Lined name listed t' := by
  cases t with
  | cpp sched =>
    obtain ⟨hs, hu, hnames, hmem⟩ := h
    simp only [Turns.next] at hn
    split at hn
    next => cases hn
    next =>
      obtain ⟨-, rfl⟩ := Prod.mk.inj (Option.some.inj hn)
      refine ⟨hs.next, hu.next hs, ?_, ?_⟩
      · rwa [ids_next]
      · rwa [ids_next]
  | python order left =>
    obtain ⟨hnames, hcount⟩ := h
    cases left with
    | nil => cases hn
    | cons y left =>
      obtain ⟨-, rfl⟩ := Prod.mk.inj (Option.some.inj hn)
      refine ⟨fun x hx => hnames x ?_, hcount⟩
      rcases List.mem_append.mp hx with hx | hx
      · exact List.mem_append_left _ hx
      · exact List.mem_append_right _ (List.mem_cons_of_mem _ hx)

/-! ### How long a request waits -/

/-- A bound on the turns that come before the next one of a request; making a copy counts as
one. -/
def Turns.ahead (x : String) : Turns → ℕ
  | .cpp sched => wait sched.q.length x sched
  | .python order left =>
    if x ∈ left then left.idxOf x else left.length + 1 + order.idxOf x

lemma ahead_tail {order left : List String} {y : String} (hne : y ≠ x) :
    (Turns.python order left).ahead x < (Turns.python order (y :: left)).ahead x := by
  simp only [Turns.ahead]
  by_cases hx : x ∈ left
  · rw [if_pos hx, if_pos (List.mem_cons_of_mem _ hx), List.idxOf_cons_ne _ hne]
    exact Nat.lt_succ_self _
  · rw [if_neg hx, if_neg fun h => (List.mem_cons.mp h).elim (fun h => hne h.symm) hx,
      List.length_cons]
    omega

lemma ahead_copy {order : List String} (hx : x ∈ order) :
    (Turns.python order order).ahead x < (Turns.python order []).ahead x := by
  simp only [Turns.ahead]
  rw [if_pos hx, if_neg List.not_mem_nil, List.length_nil]
  omega

omit [DecidableEq Rid] in
lemma Lined.ahead_next (h : Lined name listed t) (hrid : 0 < listed rid)
    (hn : t.next = some (x, t')) (hne : x ≠ name rid) :
    t'.ahead (name rid) < t.ahead (name rid) := by
  cases t with
  | cpp sched =>
    obtain ⟨hs, hu, -, hmem⟩ := h
    simp only [Turns.next] at hn
    split at hn
    next => cases hn
    next =>
      obtain ⟨rfl, rfl⟩ := Prod.mk.inj (Option.some.inj hn)
      have hlength : (Scheduler.next sched).2.q.length = sched.q.length := by
        rw [← length_ids, ids_next, length_ids]
      simp only [Turns.ahead, hlength]
      exact wait_next hs hu le_rfl ((hmem rid).mpr hrid) hne
  | python order left =>
    cases left with
    | nil => cases hn
    | cons y left =>
      obtain ⟨rfl, rfl⟩ := Prod.mk.inj (Option.some.inj hn)
      exact ahead_tail hne

omit [DecidableEq Rid] in
/-- Where a request waits, there is one whose turn it is, or a Python node makes a new copy. -/
lemma Lined.turn (h : Lined name listed t) (hname : ∀ rid, name rid ≠ "") (hrid : 0 < listed rid) :
    (∃ r t', t.next = some (name r, t') ∧ 0 < listed r) ∨
      (∃ order r left, t = .python order (name r :: left)) ∨
      ∃ order, t = .python order [] ∧ name rid ∈ order := by
  cases t with
  | cpp sched =>
    obtain ⟨hs, hu, hnames, hmem⟩ := h
    have hin := (hmem rid).mpr hrid
    have hcursor := hs.cursor_lt (List.ne_nil_of_length_pos (by
      rw [← length_ids]
      exact List.length_pos_of_mem hin))
    have hnext : (Scheduler.next sched).1 ∈ ids sched := by
      rw [hu.next_eq hcursor]
      exact List.mem_map_of_mem (List.getElem_mem hcursor)
    obtain ⟨r, hr⟩ := hnames _ hnext
    refine .inl ⟨r, .cpp (Scheduler.next sched).2, ?_, (hmem r).mp (hr ▸ hnext)⟩
    simp only [Turns.next]
    rw [if_neg (hr ▸ hname r), hr]
  | python order left =>
    obtain ⟨hnames, hcount⟩ := h
    cases left with
    | nil =>
      refine .inr (.inr ⟨order, rfl, List.count_pos_iff.mp ?_⟩)
      rw [hcount]
      exact hrid
    | cons x left =>
      obtain ⟨r, rfl⟩ := hnames x (by simp)
      exact .inr (.inl ⟨order, r, left, rfl⟩)

/-! ### In every run -/

def timesListed (R : Requests N Rid) (n : N) (rid : Rid) : ℕ :=
  ((R.request rid).node n).scheduled

def InLine (name : Rid → String) (S : State N Rid) : Prop :=
  ∀ n, Lined name (timesListed S.requests n) (S.turns n)

omit [DecidableEq N] [DecidableEq Rid] in
lemma scheduled_produce {Row : Type} {sh : Shard Query Row} {impl : Impl} {maxRows : ℤ}
    {e e' : Entry Row} {a : ProdAct} (h : prodStep sh impl maxRows e a = some e') :
    e'.scheduled = e.scheduled := by
  cases produces_of_step h <;> rfl

omit [DecidableEq Rid] in
/-- A node lists a request once more or once less at a time. -/
lemma scheduled_move {Row : Type} {c : Config N Query Row} {q : Query} {n : N} {e e' : Entry Row}
    (h : NodeMove c q n e e') :
    e'.scheduled ≤ e.scheduled + 1 ∧ e.scheduled ≤ e'.scheduled + 1 := by
  cases h with
  | same => exact ⟨Nat.le_succ _, Nat.le_succ _⟩
  | register =>
    unfold registerRequest
    split
    · exact ⟨Nat.le_succ _, Nat.le_succ _⟩
    · exact ⟨le_rfl, Nat.le_add_right _ 2⟩
  | produce h =>
    rw [scheduled_produce h]
    exact ⟨Nat.le_succ _, Nat.le_succ _⟩
  | touch => exact ⟨Nat.le_succ _, Nat.le_succ _⟩
  | drop h =>
    cases h <;> simp only [Entry.erase, Entry.unschedule, dropRequest] <;> omega

omit [DecidableEq N] in
lemma listed_update {R R' : Requests N Rid} {rid : Rid} {s : Sys N TaxiRow}
    (h : R'.request = Function.update R.request rid s) (n : N) :
    timesListed R' n = Function.update (timesListed R n) rid (s.node n).scheduled := by
  funext r
  unfold timesListed
  rw [h]
  by_cases hr : r = rid
  · subst hr
    rw [Function.update_self, Function.update_self]
  · rw [Function.update_of_ne hr, Function.update_of_ne hr]

lemma inLine_relisted (hname : Function.Injective name) (h : InLine name S)
    {R : Requests N Rid} {a : Gather.Act N}
    (hst : stepOf c query S.requests (rid, a) = some R) : InLine name (S.relisted name rid R) := by
  obtain ⟨s, hs, hupdate⟩ := request_stepOf hst
  intro n
  have hnode : (R.request rid).node n = s.node n := by rw [hupdate, Function.update_self]
  obtain ⟨hk, hk'⟩ := scheduled_move (node_move (steps_of_step hs) n)
  show Lined name (timesListed R n) _
  rw [listed_update hupdate n]
  simp only [State.relisted, hnode]
  split
  next heq =>
    rw [show (s.node n).scheduled = timesListed S.requests n rid from heq,
      Function.update_eq_self]
    exact h n
  next => exact (h n).relist hname hk hk'

omit [DecidableEq Rid] in
lemma InLine.update (h : InLine name S) {R : Requests N Rid} {n : N}
    (hlisted : ∀ m, timesListed R m = timesListed S.requests m)
    (ht : Lined name (timesListed S.requests n) t) :
    InLine name ⟨R, Function.update S.turns n t⟩ := by
  intro m
  show Lined name (timesListed R m) (Function.update S.turns n t m)
  rw [hlisted]
  by_cases hm : m = n
  · subst hm
    rwa [Function.update_self]
  · rw [Function.update_of_ne hm]
    exact h m

lemma listed_pick {n : N} {R : Requests N Rid}
    (hst : stepOf c query S.requests (rid, .produce n .pick) = some R) (m : N) :
    timesListed R m = timesListed S.requests m := by
  obtain ⟨s, hs, hupdate⟩ := request_stepOf hst
  obtain ⟨e, he, rfl⟩ := Option.map_eq_some_iff.mp hs
  rw [listed_update hupdate m]
  refine Function.update_eq_self_iff.mpr ?_
  by_cases hm : m = n
  · subst hm
    rw [setNode_self]
    exact scheduled_produce he
  · rw [setNode_ne _ hm]
    rfl

lemma inLine_step (hname : Function.Injective name) (h : InLine name S) {a : Act N Rid}
    (hst : step c query name S a = some S') : InLine name S' := by
  cases a with
  | request b =>
    obtain ⟨rid, a⟩ := b
    by_cases hb : ∃ n, a = .produce n .pick
    · obtain ⟨n, rfl⟩ := hb
      obtain ⟨⟨x, t⟩, hnext, hp⟩ := Option.bind_eq_some_iff.mp hst
      split at hp
      next =>
        obtain ⟨R, hR, rfl⟩ := Option.map_eq_some_iff.mp hp
        exact h.update (listed_pick hR) ((h n).next hnext)
      next => cases hp
    · rw [step_request fun n h => hb ⟨n, h⟩] at hst
      obtain ⟨R, hR, rfl⟩ := Option.map_eq_some_iff.mp hst
      exact inLine_relisted hname h hR
  | copy n =>
    simp only [step] at hst
    split at hst
    next order hturns =>
      split at hst
      next =>
        obtain rfl := Option.some.inj hst
        have hline := h n
        rw [hturns] at hline
        refine h.update (fun _ => rfl) ⟨fun x hx => hline.1 x ?_, hline.2⟩
        exact List.mem_append_left _ ((List.mem_append.mp hx).elim id id)
      next => cases hst
    next => cases hst
  | skip rid n =>
    simp only [step] at hst
    split at hst
    next order x left hturns =>
      split at hst
      next =>
        obtain rfl := Option.some.inj hst
        have hline := h n
        rw [hturns] at hline
        exact h.update (fun _ => rfl) (hline.next rfl)
      next => cases hst
    next => cases hst

/-- **The schedulers list what the nodes list**, in every run. -/
theorem inLine_of_reach (hname : Function.Injective name) {G : State N Rid → Act N Rid → Prop}
    {impl : N → Impl} {mode : Mode} (hm : mode ≠ .fifo)
    (h : Reach (step c query name) G (.init impl mode) S) : InLine name S :=
  h.invariant (I := InLine name) (fun n => lined_start hm (impl n))
    fun _ _ _ _ hi _ hst => inLine_step hname hi hst

end Mini2.Dispatch
