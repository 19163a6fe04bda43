import Mini2.Lib.Runs
import Mini2.Scheduler

/-!
What a C++ node keeps for each request: an entry in `requests_`, one in the scheduler and one in
the chunk sizer, each behind a mutex of its own. The calls run beside each other and are
interrupted whenever they take or release a mutex. A call that holds `req_mu_` takes the other
ones one after the other.
-/

namespace Mini2.Bookkeeping

open Mini2.Runs Mini2.Scheduler

/-! ### The node -/

inductive Method
  | submitQuery | forwardQuery | fetchChunk | pullChunk | cancelQuery
  deriving DecidableEq

/-- Where a call is. `holding` is inside of `req_mu_`, with another mutex to come; `found` has a
request and is going to ask for a chunk size. -/
inductive Place
  | entered | holding | found | sized | dropping | returned
  deriving DecidableEq

/-- How far the holder of `req_mu_` is: `register_request` before it calls the scheduler,
`drop_request` before it calls the scheduler and before it calls the sizer. -/
inductive Stage
  | registering | erased | removed
  deriving DecidableEq

structure Handler where
  method : Method
  rid : String
  place : Place
  deriving DecidableEq

structure Holder where
  handler : ℕ
  rid : String
  stage : Stage
  deriving DecidableEq

/-- `requests` and `sizer` are the keys of the maps. -/
structure Node where
  requests : List String
  sched : FairScheduler
  sizer : List String
  reqMu : Option Holder
  handlers : List Handler
  deriving DecidableEq

def Node.start (mode : Mode) : Node := ⟨[], empty mode, [], none, []⟩

namespace Node

/-- Call `i` goes on to another place. -/
def move (s : Node) (i : ℕ) (h : Handler) (p : Place) : Node :=
  { s with handlers := s.handlers.set i { h with place := p } }

/-- `register_request`, after it has taken `req_mu_`. -/
def register (s : Node) (i : ℕ) (h : Handler) : Node :=
  if h.rid ∈ s.requests then s.move i h .returned
  else { s.move i h .holding with
    requests := h.rid :: s.requests
    reqMu := some ⟨i, h.rid, .registering⟩ }

/-- The first step of `drop_request`. -/
def erase (s : Node) (i : ℕ) (h : Handler) : Node :=
  { s.move i h .holding with
    requests := s.requests.erase h.rid
    reqMu := some ⟨i, h.rid, .erased⟩ }

/-- What the holder of `req_mu_` does next. -/
def proceed (s : Node) (h : Handler) (m : Holder) : Node :=
  match m.stage with
  | .registering =>
    { s.move m.handler h .returned with sched := add s.sched m.rid 1, reqMu := none }
  | .erased => { s with sched := remove s.sched m.rid, reqMu := some { m with stage := .removed } }
  | .removed =>
    { s.move m.handler h .returned with
      sizer := s.sizer.filter (· ≠ m.rid)
      reqMu := none }

/-- `ChunkSizer::decide` makes an entry for an id that has none. -/
def decide (s : Node) (rid : String) : Node :=
  { s with sizer := if rid ∈ s.sizer then s.sizer else rid :: s.sizer }

end Node

/-- A call comes in, a call takes a step, or the producer asks the scheduler. A call that has
its chunk may find that it is the last one. -/
inductive Act
  | call (method : Method) (rid : String)
  | run (i : ℕ) (isLast : Bool)
  | produce
  deriving DecidableEq

variable (partEmpty : Bool)

/-- A call that is at the beginning, with `req_mu_` free: it registers its id, or looks it up. -/
def enter (s : Node) (i : ℕ) (h : Handler) : Node :=
  match h.method with
  | .submitQuery | .forwardQuery => s.register i h
  | .fetchChunk => s.move i h (if h.rid ∈ s.requests then .found else .returned)
  | .pullChunk =>
    s.move i h (if h.rid ∈ s.requests ∧ partEmpty = false then .found else .returned)
  | .cancelQuery => s.move i h (if h.rid ∈ s.requests then .dropping else .returned)

def runStep (s : Node) (i : ℕ) (isLast : Bool) (h : Handler) : Option Node :=
  match h.place with
  | .entered => if s.reqMu = none then some (enter partEmpty s i h) else none
  | .holding =>
    match s.reqMu with
    | some m => if m.handler = i then some (s.proceed h m) else none
    | none => none
  | .found => some ((s.decide h.rid).move i h .sized)
  | .sized => some (s.move i h (if isLast then .dropping else .returned))
  | .dropping => if s.reqMu = none then some (s.erase i h) else none
  | .returned => none

def step (s : Node) : Act → Option Node
  | .call method rid => some { s with handlers := s.handlers ++ [⟨method, rid, .entered⟩] }
  | .run i isLast => (s.handlers[i]?).bind (runStep partEmpty s i isLast)
  | .produce => some { s with sched := (next s.sched).2 }

def Quiet (s : Node) : Prop := ∀ h ∈ s.handlers, h.place = .returned

/-- A call is inside `drop_request` for the id and has not called the sizer. -/
def Forgetting (s : Node) (rid : String) : Prop :=
  match s.reqMu with
  | some m => m.rid = rid ∧ m.stage ≠ .registering
  | none => False

instance (s : Node) (rid : String) : Decidable (Forgetting s rid) := by
  unfold Forgetting
  split <;> infer_instance

/-- A chunk size is asked for only while the request is there, or its drop has still to forget
the sizes. -/
def Timely (s : Node) : Act → Prop
  | .run i _ =>
    match s.handlers[i]? with
    | some h => h.place = .found → h.rid ∈ s.requests ∨ Forgetting s h.rid
    | none => True
  | _ => True

instance (s : Node) (a : Act) : Decidable (Timely s a) := by
  unfold Timely
  cases a with
  | run i isLast =>
    simp only
    split <;> infer_instance
  | call => exact instDecidableTrue
  | produce => exact instDecidableTrue

/-! ### The tables -/

variable {partEmpty} {s s' : Node} {mode : Mode} {a : Act} {i : ℕ} {isLast : Bool} {h : Handler}
  {rid : String}

/-- The scheduler and `requests_`, as far as the holder of `req_mu_` has brought them. -/
def Agree (s : Node) : Prop :=
  match s.reqMu with
  | none => (ids s.sched).Perm s.requests
  | some m =>
    match m.stage with
    | .registering => (m.rid :: ids s.sched).Perm s.requests
    | .erased => m.rid ∉ s.requests ∧ ((ids s.sched).erase m.rid).Perm s.requests
    | .removed => m.rid ∉ s.requests ∧ (ids s.sched).Perm s.requests

def Held (s : Node) : Prop :=
  ∀ m, s.reqMu = some m → ∃ h, s.handlers[m.handler]? = some h ∧ h.place = .holding

structure Tables (s : Node) : Prop where
  nodup : s.requests.Nodup
  agree : Agree s
  held : Held s

def Sized (s : Node) : Prop := ∀ rid ∈ s.sizer, rid ∈ s.requests ∨ Forgetting s rid

lemma held_free (h : s.reqMu = none) : Held s := fun m hm => by
  rw [h] at hm
  cases hm

/-- Only the call that holds the mutex is `holding`, so that another one may go on. -/
lemma Tables.move (ht : Tables s) (hi : s.handlers[i]? = some h)
    (hplace : s.reqMu = none ∨ h.place ≠ .holding) (p : Place) : Tables (s.move i h p) := by
  refine ⟨ht.nodup, ht.agree, fun m hm => ?_⟩
  obtain ⟨h', hh', hp'⟩ := ht.held m hm
  have hne : m.handler ≠ i := by
    intro heq
    rw [heq, hi] at hh'
    obtain rfl := Option.some.inj hh'
    rcases hplace with hfree | hother
    · exact absurd (hfree.symm.trans hm) (by simp)
    · exact hother hp'
  exact ⟨h', (List.getElem?_set_ne (Ne.symm hne)).trans hh', hp'⟩

lemma getElem?_move (hi : s.handlers[i]? = some h) (p : Place) :
    (s.move i h p).handlers[i]? = some { h with place := p } := by
  obtain ⟨hlt, -⟩ := List.getElem?_eq_some_iff.mp hi
  exact List.getElem?_set_self hlt

lemma Tables.register (ht : Tables s) (hi : s.handlers[i]? = some h) (hfree : s.reqMu = none) :
    Tables (s.register i h) := by
  unfold Node.register
  split
  next => exact ht.move hi (.inl hfree) .returned
  next hnot =>
    have hagree : (ids s.sched).Perm s.requests := by
      have := ht.agree
      rwa [Agree, hfree] at this
    refine ⟨List.nodup_cons.mpr ⟨hnot, ht.nodup⟩, hagree.cons h.rid, fun m hm => ?_⟩
    obtain rfl := Option.some.inj hm
    exact ⟨_, getElem?_move hi .holding, rfl⟩

lemma Tables.erase (ht : Tables s) (hi : s.handlers[i]? = some h) (hfree : s.reqMu = none) :
    Tables (s.erase i h) := by
  have hagree : (ids s.sched).Perm s.requests := by
    have := ht.agree
    rwa [Agree, hfree] at this
  refine ⟨ht.nodup.erase h.rid, ⟨ht.nodup.not_mem_erase, hagree.erase h.rid⟩, fun m hm => ?_⟩
  obtain rfl := Option.some.inj hm
  exact ⟨_, getElem?_move hi .holding, rfl⟩

lemma Tables.proceed (ht : Tables s) {m : Holder} (hm : s.reqMu = some m)
    (hi : s.handlers[m.handler]? = some h) (hplace : h.place = .holding) :
    Tables (s.proceed h m) := by
  obtain ⟨hnodup, hagree, -⟩ := ht
  obtain ⟨i, rid, stage⟩ := m
  rw [Agree, hm] at hagree
  cases stage with
  | registering =>
    have hnot : rid ∉ ids s.sched := (List.nodup_cons.mp (hagree.nodup_iff.mpr hnodup)).1
    refine ⟨hnodup, ?_, held_free rfl⟩
    show (ids (add s.sched rid 1)).Perm s.requests
    rw [ids_add_of_not_mem hnot]
    exact (List.perm_append_singleton rid _).trans hagree
  | erased =>
    refine ⟨hnodup, ⟨hagree.1, ?_⟩, fun m' hm' => ?_⟩
    · show (ids (remove s.sched rid)).Perm s.requests
      rw [ids_remove]
      exact hagree.2
    · obtain rfl := Option.some.inj hm'
      exact ⟨h, hi, hplace⟩
  | removed => exact ⟨hnodup, hagree.2, held_free rfl⟩

lemma Tables.enter (ht : Tables s) (hi : s.handlers[i]? = some h) (hfree : s.reqMu = none) :
    Tables (enter partEmpty s i h) := by
  unfold Bookkeeping.enter
  cases h.method with
  | submitQuery => exact ht.register hi hfree
  | forwardQuery => exact ht.register hi hfree
  | fetchChunk => exact ht.move hi (.inl hfree) _
  | pullChunk => exact ht.move hi (.inl hfree) _
  | cancelQuery => exact ht.move hi (.inl hfree) _

lemma Tables.decide (ht : Tables s) (rid : String) : Tables (s.decide rid) :=
  ⟨ht.nodup, ht.agree, ht.held⟩

lemma runStep_cases (hs : runStep partEmpty s i isLast h = some s') :
    (h.place = .entered ∧ s.reqMu = none ∧ s' = enter partEmpty s i h) ∨
    (h.place = .holding ∧ ∃ m, s.reqMu = some m ∧ m.handler = i ∧ s' = s.proceed h m) ∨
    (h.place = .found ∧ s' = (s.decide h.rid).move i h .sized) ∨
    (h.place = .sized ∧ s' = s.move i h (if isLast then .dropping else .returned)) ∨
    (h.place = .dropping ∧ s.reqMu = none ∧ s' = s.erase i h) := by
  unfold runStep at hs
  cases hp : h.place with
  | entered =>
    simp only [hp, Option.ite_none_right_eq_some, Option.some.injEq] at hs
    exact .inl ⟨rfl, hs.1, hs.2.symm⟩
  | holding =>
    cases hm : s.reqMu with
    | none => simp [hp, hm] at hs
    | some m =>
      simp only [hp, hm, Option.ite_none_right_eq_some, Option.some.injEq] at hs
      exact .inr (.inl ⟨rfl, m, rfl, hs.1, hs.2.symm⟩)
  | found =>
    simp only [hp, Option.some.injEq] at hs
    exact .inr (.inr (.inl ⟨rfl, hs.symm⟩))
  | sized =>
    simp only [hp, Option.some.injEq] at hs
    exact .inr (.inr (.inr (.inl ⟨rfl, hs.symm⟩)))
  | dropping =>
    simp only [hp, Option.ite_none_right_eq_some, Option.some.injEq] at hs
    exact .inr (.inr (.inr (.inr ⟨rfl, hs.1, hs.2.symm⟩)))
  | returned => simp [hp] at hs

lemma Tables.step (ht : Tables s) (hs : step partEmpty s a = some s') : Tables s' := by
  cases a with
  | call method rid =>
    obtain rfl := Option.some.inj hs
    refine ⟨ht.nodup, ht.agree, fun m hm => ?_⟩
    obtain ⟨h, hh, hp⟩ := ht.held m hm
    have hlt := (List.getElem?_eq_some_iff.mp hh).1
    exact ⟨h, (List.getElem?_append_left hlt).trans hh, hp⟩
  | produce =>
    obtain rfl := Option.some.inj hs
    have hagree := ht.agree
    refine ⟨ht.nodup, ?_, ht.held⟩
    unfold Agree at hagree ⊢
    simp only [ids_next]
    exact hagree
  | run i isLast =>
    obtain ⟨h, hi, hrun⟩ := Option.bind_eq_some_iff.mp hs
    rcases runStep_cases hrun with ⟨-, hfree, rfl⟩ | ⟨hp, m, hm, rfl, rfl⟩ | ⟨hp, rfl⟩ |
      ⟨hp, rfl⟩ | ⟨-, hfree, rfl⟩
    · exact ht.enter hi hfree
    · exact ht.proceed hm hi hp
    · exact (ht.decide h.rid).move hi (.inr (by simp [hp])) .sized
    · exact ht.move hi (.inr (by simp [hp])) _
    · exact ht.erase hi hfree

lemma tables_start (mode : Mode) : Tables (.start mode) :=
  ⟨List.nodup_nil, List.Perm.refl [], held_free rfl⟩

lemma tables {G : Node → Act → Prop} (hr : Reach (step partEmpty) G (.start mode) s) : Tables s :=
  hr.invariant (tables_start mode) fun _ _ _ _ ht _ hs => ht.step hs

lemma Tables.free (ht : Tables s) (hq : Quiet s) : s.reqMu = none := by
  cases hm : s.reqMu with
  | none => rfl
  | some m =>
    obtain ⟨h, hh, hp⟩ := ht.held m hm
    have hreturned := hq h (List.mem_of_getElem? hh)
    rw [hp] at hreturned
    cases hreturned

/-- **The scheduler has the ids of the requests**, each once, whenever no call is in progress. -/
lemma Tables.perm (ht : Tables s) (hq : Quiet s) : (ids s.sched).Perm s.requests := by
  have hagree := ht.agree
  rwa [Agree, ht.free hq] at hagree

/-! ### The sizes -/

lemma forgetting_free (hfree : s.reqMu = none) (rid : String) : ¬ Forgetting s rid := by
  rw [Forgetting, hfree]
  exact id

lemma Sized.of_free (hz : Sized s) (hfree : s.reqMu = none) : ∀ rid ∈ s.sizer, rid ∈ s.requests :=
  fun rid hrid => (hz rid hrid).resolve_right (forgetting_free hfree rid)

lemma Sized.enter (hz : Sized s) (hfree : s.reqMu = none) : Sized (enter partEmpty s i h) := by
  have hof := hz.of_free hfree
  have hregister : Sized (s.register i h) := by
    unfold Node.register
    split
    · exact hz
    · exact fun rid hrid => .inl (List.mem_cons_of_mem _ (hof rid hrid))
  unfold Bookkeeping.enter
  cases h.method with
  | submitQuery => exact hregister
  | forwardQuery => exact hregister
  | fetchChunk => exact hz
  | pullChunk => exact hz
  | cancelQuery => exact hz

lemma Sized.erase (hz : Sized s) (hfree : s.reqMu = none) : Sized (s.erase i h) := by
  intro rid hrid
  have hmem := hz.of_free hfree rid hrid
  by_cases heq : h.rid = rid
  · exact .inr ⟨heq, by simp⟩
  · exact .inl ((List.mem_erase_of_ne (Ne.symm heq)).mpr hmem)

lemma Sized.proceed (hz : Sized s) {m : Holder} (hm : s.reqMu = some m) :
    Sized (s.proceed h m) := by
  obtain ⟨i, rid, stage⟩ := m
  have hforget : ∀ rid', Forgetting s rid' ↔ rid = rid' ∧ stage ≠ .registering := fun rid' => by
    rw [Forgetting, hm]
  intro rid' hrid'
  cases stage with
  | registering =>
    rcases hz rid' hrid' with hmem | hf
    · exact .inl hmem
    · exact absurd rfl ((hforget rid').mp hf).2
  | erased =>
    rcases hz rid' hrid' with hmem | hf
    · exact .inl hmem
    · exact .inr ⟨((hforget rid').mp hf).1, by simp⟩
  | removed =>
    obtain ⟨hold, hne⟩ := List.mem_filter.mp hrid'
    rcases hz rid' hold with hmem | hf
    · exact .inl hmem
    · exact absurd ((hforget rid').mp hf).1.symm (of_decide_eq_true hne)

lemma Sized.decide (hz : Sized s) {rid : String} (h : rid ∈ s.requests ∨ Forgetting s rid) :
    Sized (s.decide rid) := by
  intro rid' hrid'
  unfold Node.decide at hrid'
  simp only at hrid'
  split at hrid'
  · exact hz rid' hrid'
  · rcases List.mem_cons.mp hrid' with rfl | hold
    · exact h
    · exact hz rid' hold

lemma Sized.step (hz : Sized s) (hg : Timely s a) (hs : step partEmpty s a = some s') :
    Sized s' := by
  cases a with
  | call method rid =>
    obtain rfl := Option.some.inj hs
    exact hz
  | produce =>
    obtain rfl := Option.some.inj hs
    exact hz
  | run i isLast =>
    obtain ⟨h, hi, hrun⟩ := Option.bind_eq_some_iff.mp hs
    rcases runStep_cases hrun with ⟨-, hfree, rfl⟩ | ⟨-, m, hm, rfl, rfl⟩ | ⟨hp, rfl⟩ |
      ⟨-, rfl⟩ | ⟨-, hfree, rfl⟩
    · exact hz.enter hfree
    · exact hz.proceed hm
    · have htimely : h.place = .found → h.rid ∈ s.requests ∨ Forgetting s h.rid := by
        rwa [Timely, hi] at hg
      exact hz.decide (htimely hp)
    · exact hz
    · exact hz.erase hfree

/-- The ids of the scheduler are the requests, each once, and no other id has a chunk size. -/
structure InOrder (s : Node) : Prop where
  nodup : s.requests.Nodup
  scheduled : (ids s.sched).Perm s.requests
  sized : ∀ rid ∈ s.sizer, rid ∈ s.requests

/-- **The bookkeeping of a request dies with it** in every run in which chunk sizes are asked for
in time. -/
theorem bookkeeping (hr : Reach (step partEmpty) Timely (.start mode) s) (hq : Quiet s) :
    InOrder s := by
  have ht := tables hr
  have hz : Sized s :=
    hr.invariant (fun rid hrid => absurd hrid List.not_mem_nil) fun _ _ _ _ hz hg hs =>
      hz.step hg hs
  exact ⟨ht.nodup, ht.perm hq, hz.of_free (ht.free hq)⟩

/-! ### A late chunk size -/

/-- A request is registered and fetched from, and cancelled before the fetch asks for its chunk
size or after that. -/
def fetchAndCancel (late : Bool) : List Act :=
  [.call .forwardQuery "q", .run 0 false, .run 0 false, .call .fetchChunk "q", .run 1 false] ++
    (if late then [] else [.run 1 false]) ++
    [.call .cancelQuery "q", .run 2 false, .run 2 false, .run 2 false, .run 2 false] ++
    (if late then [.run 1 false] else []) ++ [.run 1 false]

def afterwards (late : Bool) : Node where
  requests := []
  sched := empty .weightedRoundRobin
  sizer := if late then ["q"] else []
  reqMu := none
  handlers :=
    [⟨.forwardQuery, "q", .returned⟩, ⟨.fetchChunk, "q", .returned⟩, ⟨.cancelQuery, "q", .returned⟩]

lemma quiet_afterwards (late : Bool) : Quiet (afterwards late) := by
  simp [Quiet, afterwards]

theorem bookkeeping_fetch : InOrder (afterwards false) := by
  have hs : run (step false) Timely (.start .weightedRoundRobin) (fetchAndCancel false) =
      some (afterwards false) := by decide
  exact bookkeeping (reach_of_run .init hs) (quiet_afterwards false)

/-- The fetch has looked its request up, and makes a chunk size that nobody forgets. -/
theorem not_bookkeeping : ¬ ∀ (partEmpty : Bool) (mode : Mode) (s : Node),
    Reach (step partEmpty) (fun _ _ => True) (.start mode) s → Quiet s → InOrder s := by
  intro hall
  have hs : run (step false) (fun _ _ => True) (.start .weightedRoundRobin)
      (fetchAndCancel true) = some (afterwards true) := by decide
  have horder := hall false .weightedRoundRobin _ (reach_of_run .init hs) (quiet_afterwards true)
  exact absurd (horder.sized "q" (by simp [afterwards])) (by simp [afterwards])

end Mini2.Bookkeeping
