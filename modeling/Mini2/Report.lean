import Mini2.Cancelling
import Mini2.EndToEnd
import Mini2.Session
import Mini2.Standing

/-!
From the command line of the client to what it reports. A gateway of either program keeps to what
the client relies on; so over a generated overlay each of the client's requests counts all rows
that meet the conditions it was given, and prints the first of them.
-/

namespace Mini2.Report

open Mini2.Proto Mini2.Store Mini2.Net Mini2.Request Mini2.Producer Mini2.Gather Mini2.GatherSteps
open Mini2.GatherShape Mini2.Runs Mini2.Cluster Mini2.ExactlyOnce Mini2.Finish Mini2.PyGateway
open Mini2.PySteps Mini2.PyEnding Mini2.PyClient Mini2.Client Mini2.Session Mini2.EndToEnd
open Mini2.Topology Mini2.Startup Mini2.Answers Mini2.Manifest Mini2.Loaders Mini2.EmitYaml
open Mini2.OverlayYaml Mini2.OverlayRoundTrip Mini2.Environment Mini2.Planned Mini2.Routing
open Mini2.Standing

variable {N Query Row : Type} [DecidableEq N]

/-! ### A C++ gateway -/

def cppGateway (c : Config N Query Row) (q : Query) : Gateway (Sys N Row) (Act N) Row where
  step := Gather.step c q
  init := Gather.init N Row
  submitted s := s.submit = .returned
  starts a := a = .fetch .start
  cancels a := a = .cancelQuery
  idle s := s.fetch = .idle
  unknown s := (s.node c.gateway).table.isNone
  failed _ := false
  log s := s.log.map Prod.snd
  last s := s.finished

variable {c : Config N Query Row} {q : Query} {s s' : Sys N Row} {a : Act N}

lemma keeps_of_steps (hst : Steps c q s a s') : Keeps (cppGateway c q) s a s' := by
  have hsub : (cppGateway c q).submitted s = true → (cppGateway c q).submitted s' = true := by
    intro h
    exact decide_eq_true (Cancelling.returned_step hst (of_decide_eq_true h))
  have hsame : s'.fetch = s.fetch → s'.log = s.log → s'.finished = s.finished →
      Keeps (cppGateway c q) s a s' := by
    intro hf hl hfin
    refine .same hsub ?_ (congrArg (List.map Prod.snd) hl) hfin
    show decide (s'.fetch = .idle) = decide (s.fetch = .idle)
    rw [hf]
  have hbusy : s.fetch ≠ .idle → s.log <+: s'.log →
      s'.finished = s.finished ∨ s'.fetch = .idle → Keeps (cppGateway c q) s a s' :=
    fun hf hl hfin => .busy hsub (decide_eq_false hf) (hl.map _)
      (hfin.imp_right decide_eq_true)
  cases hst with
  | submit hst => cases hst <;> exact hsame rfl rfl rfl
  | forward hst => cases hst <;> exact hsame rfl rfl rfl
  | produce => exact hsame rfl rfl rfl
  | prefetch hst => cases hst <;> exact hsame rfl rfl rfl
  | pull hst => refine hsame ?_ ?_ ?_ <;> rw [pulls_frame hst]
  | fetch hst =>
    cases hst with
    | start hf =>
      exact {
        submitted := hsub
        rest := fun h => absurd h (by simp [cppGateway])
        grows := List.prefix_rfl
        ends := fun hn hne => absurd hn hne }
    | drain maxRows hf => exact hbusy (by simp [hf]) (List.prefix_append _ _) (.inl rfl)
    | count hf => exact hbusy (by simp [hf]) List.prefix_rfl (.inl rfl)
    | erase hf => exact hbusy (by simp [hf]) List.prefix_rfl (.inl rfl)
    | erased hf => exact hbusy (by simp [hf]) List.prefix_rfl (.inr rfl)
    | finish hf => exact hbusy (by simp [hf]) List.prefix_rfl (.inr rfl)
  | cancelQuery => exact hsame rfl rfl rfl
  | cancel hst => refine hsame ?_ ?_ ?_ <;> rw [cancels_frame hst]

lemma lawful_cpp (c : Config N Query Row) (q : Query) : Lawful (cppGateway c q) where
  idle_init := rfl
  log_init := rfl
  last_init := rfl
  keeps _ _ _ hst := keeps_of_steps (steps_of_step hst)

variable {I : Type} [DecidableEq I]

/-- **A C++ gateway keeps to what the client relies on.** -/
theorem reliant_cpp (c : I → Config String Proto.Query TaxiRow) (query : I → Proto.Query) :
    Reliant (fun i => cppGateway (c i) (query i)) (stepOf c query) Requests.request
      (Requests.init String I) (fun _ a => AllAnswered a.2) where
  lawful i := lawful_cpp _ _
  componentwise _ _ _ hst := request_stepOf hst
  init _ := rfl
  starts _ _ a ha _ := by
    obtain rfl : a = .fetch .start := of_decide_eq_true ha
    trivial
  known R hR i hsub hidle hlast := by
    have hsub : (R.request i).submit = .returned := of_decide_eq_true hsub
    have hidle : (R.request i).fetch = .idle := of_decide_eq_true hidle
    have hlast : (R.request i).finished = none := hlast
    have hknows := knows_of_reach (request_reachOf hR i)
    unfold Knows at hknows
    rw [hsub, hidle, hlast] at hknows
    have htable : ((R.request i).node (c i).gateway).table ≠ none := by simpa using hknows
    exact Option.isNone_eq_false_iff.mpr (Option.isSome_iff_ne_none.mpr htable)
  sound _ _ _ := rfl

/-! ### A Python gateway -/

def pyGateway (c : Config N Query Row) (q : Query) : Gateway (PySys N Row) (PyAct N) Row where
  step := pyStep c q
  init := pyInit N Row
  submitted x := x.sys.submit = .returned
  starts a :=
    match a with
    | .fetch (.start _ _ _) => true
    | _ => false
  cancels _ := false
  idle x := x.fetch = .idle
  unknown x := (x.sys.node c.gateway).table.isNone
  failed x := x.failed.isSome
  log x := x.sys.log.map Prod.snd
  last x := if x.ended then some (0, 0) else none

variable {x x' : PySys N Row}

lemma keeps_of_fetches {a : PyFetchAct} (hst : PyFetches c x a x') :
    Keeps (pyGateway c q) x (.fetch a) x' := by
  have hbusy : x.fetch ≠ .idle → x'.sys.submit = x.sys.submit → x.sys.log <+: x'.sys.log →
      x'.ended = x.ended ∨ x'.fetch = .idle → Keeps (pyGateway c q) x (.fetch a) x' := by
    intro hf hsub hl hended
    refine .busy (fun h => decide_eq_true (hsub.trans (of_decide_eq_true h))) (decide_eq_false hf)
      (hl.map _) (hended.imp (fun h => ?_) decide_eq_true)
    show (if x'.ended then _ else _) = if x.ended then _ else _
    rw [h]
  have hstart : (pyGateway c q).starts (.fetch a) = true → x'.sys = x.sys →
      x'.ended = x.ended → Keeps (pyGateway c q) x (.fetch a) x' := by
    intro hs hsys hended
    exact {
      submitted := fun h => by
        show decide (x'.sys.submit = .returned) = true
        rw [hsys]
        exact h
      rest := fun h => absurd (h.symm.trans hs) Bool.false_ne_true
      grows := by
        show x.sys.log.map Prod.snd <+: x'.sys.log.map Prod.snd
        rw [hsys]
      ends := fun hn hne => by
        refine absurd ?_ hne
        show (if x'.ended then _ else _) = _
        rw [hended]
        exact hn }
  cases hst with
  | unknown => exact hstart rfl rfl rfl
  | noOwners => exact hstart rfl rfl rfl
  | start => exact hstart rfl rfl rfl
  | @receive g m i o o' rest out isLast hf =>
    refine hbusy (by simp [hf]) ?_ ?_ (.inl rfl) <;> cases isLast <;> rfl
  | emit hf => exact hbusy (by simp [hf]) rfl (List.prefix_append _ _) (.inl rfl)
  | unschedule hf => exact hbusy (by simp [hf]) rfl List.prefix_rfl (.inr rfl)
  | stop hf | skip hf | raises hf | issue hf | refused hf | failed hf | last hf =>
    exact hbusy (by simp [hf]) rfl List.prefix_rfl (.inl rfl)

lemma keeps_of_pyStep {a : PyAct N} (hst : pyStep c q x a = some x') :
    Keeps (pyGateway c q) x a x' := by
  have hsame : ∀ {s : Sys N Row}, (x.sys.submit = .returned → s.submit = .returned) →
      s.log = x.sys.log → Keeps (pyGateway c q) x a { x with sys := s } := by
    intro s hsub hl
    exact .same (fun h => decide_eq_true (hsub (of_decide_eq_true h))) rfl
      (congrArg (List.map Prod.snd) hl) rfl
  cases a with
  | submit a =>
    obtain ⟨s', hs, rfl⟩ := Option.map_eq_some_iff.mp hst
    have hsubmits := pySubmits_of_step hs
    refine hsame (fun h => ?_) (by cases hsubmits <;> rfl)
    cases hsubmits <;> simp_all
  | forward f =>
    obtain ⟨s', hs, rfl⟩ := Option.map_eq_some_iff.mp hst
    cases forwards_of_step hs <;> exact hsame id rfl
  | produce n a =>
    obtain ⟨e, -, rfl⟩ := Option.map_eq_some_iff.mp hst
    exact hsame id rfl
  | pull i a =>
    obtain ⟨s', hs, rfl⟩ := Option.map_eq_some_iff.mp hst
    have hframe := pulls_frame (pulls_of_step hs)
    exact hsame (fun h => by rw [hframe]; exact h) (by rw [hframe])
  | fetch a => exact keeps_of_fetches (pyFetches_of_step hst)

lemma lawful_py (c : Config N Query Row) (q : Query) : Lawful (pyGateway c q) where
  idle_init := rfl
  log_init := rfl
  last_init := rfl
  keeps _ _ _ hst := keeps_of_pyStep hst

/-- **So does a Python gateway that is no data owner and is served by all of them.** -/
theorem reliant_py (c : I → Config String Proto.Query TaxiRow) (query : I → Proto.Query)
    (hg : ∀ i, (c i).gateway ∉ (c i).overlay.dataOwners)
    (hown : ∀ i, (c i).overlay.dataOwners ≠ [])
    (hserved : ∀ i, ∀ o ∈ (c i).overlay.dataOwners,
      ((c i).shard o).matchRows (query i) ≠ [] → PyLane.Served (c i) o) :
    Reliant (fun i => pyGateway (c i) (query i)) (pyStepOf c query) PyRequests.request
      (PyRequests.init String I) (fun R a => Reliable (R.request a.1) a.2) where
  lawful i := lawful_py _ _
  componentwise _ _ _ hst := request_pyStepOf hst
  init _ := rfl
  starts R i a ha hsub := by
    cases a with
    | fetch a =>
      cases a with
      | start => exact of_decide_eq_true hsub
      | _ => cases ha
    | _ => cases ha
  known R hR i hsub hidle hlast := by
    have hclient := client_of_reach (hg i) (hown i) (hserved i) (request_pyReachOf hR i)
    have hsub : (R.request i).sys.submit = .returned := of_decide_eq_true hsub
    have hidle : (R.request i).fetch = .idle := of_decide_eq_true hidle
    have hended : (R.request i).ended = false := by
      by_contra hne
      have htrue : (R.request i).ended = true := by simpa using hne
      have hsome : (pyGateway (c i) (query i)).last (R.request i) = some (0, 0) := if_pos htrue
      rw [hsome] at hlast
      cases hlast
    refine Option.isNone_eq_false_iff.mpr (Option.isSome_iff_ne_none.mpr ?_)
    rcases hclient.goes with hopen | hover
    · exact hopen.orderly.live hidle (hclient.shape.registered (by rw [hsub]; rfl))
    · rcases hover.fetch with hf | ⟨-, he⟩
      · rw [hidle] at hf
        cases hf
      · rw [hended] at he
        cases he
  sound R hR i := by
    have hclient := client_of_reach (hg i) (hown i) (hserved i) (request_pyReachOf hR i)
    show (R.request i).failed.isSome = false
    rw [hclient.failed_eq]
    rfl

/-! ### What the client reports -/

/-- A request has ended well: it has counted all rows that meet the conditions, and printed the
first of them. -/
structure Right (cli : CliArgs) (rows : List TaxiRow) (k : Thread TaxiRow) : Prop where
  ok : k.result.ok = true
  count : k.result.rows = (rows.filter (satisfies cli.query)).length
  printed : (rows.filter (satisfies cli.query)).length < 2 ^ 31 →
    k.printed.Subperm (rows.filter (satisfies cli.query)) ∧
      k.printed.length = min cli.printRows.toNat (rows.filter (satisfies cli.query)).length

/-- What the client ends with: each request well, and so all of them. -/
def Ends {n : ℕ} (cli : CliArgs) (rows : List TaxiRow) (thread : Fin n → Thread TaxiRow) : Prop :=
  (∀ i, (thread i).pc = .returned → Right cli rows (thread i)) ∧
    ((∀ i, (thread i).pc = .returned) →
      summary (List.ofFn fun i => (thread i).result) =
        (n, 0, n * (rows.filter (satisfies cli.query)).length) ∧
      exitCode (List.ofFn fun i => (thread i).result) = 0)

/-- What the client ends with beside a gateway of the program, in every run in which every call is
answered. -/
def Reports {n : ℕ} (p : Impl) (c : Fin n → Config String Proto.Query TaxiRow) (cli : CliArgs)
    (rows : List TaxiRow) : Prop :=
  match p with
  | .cpp => ∀ size X, Reach (clientsStep (fun i => cppGateway (c i) cli.query) cli size
      (stepOf c fun _ => cli.query) Requests.request)
      (CallsAnswered fun _ a => AllAnswered a.2) ⟨Requests.init String (Fin n), fun _ => {}⟩ X →
      Ends cli rows X.thread
  | .python => ∀ size X, Reach (clientsStep (fun i => pyGateway (c i) cli.query) cli size
      (pyStepOf c fun _ => cli.query) PyRequests.request)
      (CallsAnswered fun R a => Reliable (R.request a.1) a.2)
      ⟨PyRequests.init String (Fin n), fun _ => {}⟩ X → Ends cli rows X.thread

lemma ends_of_right {n : ℕ} {cli : CliArgs} {rows : List TaxiRow}
    {thread : Fin n → Thread TaxiRow}
    (h : ∀ i, (thread i).pc = .returned → Right cli rows (thread i)) : Ends cli rows thread := by
  refine ⟨h, fun hall => ?_⟩
  have hok : ∀ r ∈ List.ofFn fun i => (thread i).result, r.ok = true := by
    intro r hr
    obtain ⟨i, rfl⟩ := List.mem_ofFn.mp hr
    exact (h i (hall i)).ok
  have hrows : (List.ofFn fun i => (thread i).result).map (fun r => r.rows) =
      List.replicate n (rows.filter (satisfies cli.query)).length := by
    rw [List.map_ofFn, List.eq_replicate_iff]
    refine ⟨List.length_ofFn, fun m hm => ?_⟩
    obtain ⟨i, rfl⟩ := List.mem_ofFn.mp hm
    exact (h i (hall i)).count
  have hwell : (List.ofFn fun i => (thread i).result).countP (fun r => r.ok) = n :=
    (List.countP_eq_length.mpr hok).trans List.length_ofFn
  have hill : (List.ofFn fun i => (thread i).result).countP (fun r => !r.ok) = 0 :=
    List.countP_eq_zero.mpr fun r hr => by simp [hok r hr]
  have hsummary : summary (List.ofFn fun i => (thread i).result) =
      (n, 0, n * (rows.filter (satisfies cli.query)).length) := by
    rw [summary, hwell, hill, hrows, List.sum_replicate, smul_eq_mul]
  exact ⟨hsummary, by rw [exitCode, hsummary, if_pos rfl]⟩

section System

variable {S A R : Type} {n : ℕ} {G : Fin n → Gateway S A TaxiRow}
  {step : R → Fin n × A → Option R} {request : R → Fin n → S} {R₀ : R}
  {K : R → Fin n × A → Prop} {cli : CliArgs} {size : Chunk TaxiRow → ℕ}
  {X : Clients R (Fin n) TaxiRow} {rows : List TaxiRow}

/-- When the gateway has sent all rows with its last chunk, every request ends well. -/
lemma ends_of_reliant (hG : Reliant G step request R₀ K) (hc : cli.cancelAfter = false)
    (hl : cli.limitChunks < 0)
    (h : Reach (clientsStep G cli size step request) (CallsAnswered K) ⟨R₀, fun _ => {}⟩ X)
    (hall : ∀ i, (G i).last (request X.requests i) ≠ none →
      ((G i).log (request X.requests i)).Perm (rows.filter (satisfies cli.query))) :
    Ends cli rows X.thread := by
  refine ends_of_right fun i hp => ?_
  have hok := hG.ok hc h i hp
  have hjoint := joint_reach hG.componentwise hG.init h i
  have hcounted := counted_of_reach (hG.lawful i) hjoint
  obtain ⟨-, hrows, hlast⟩ := hcounted.at (x := joint request X i) hp hok hc
  have hperm : ((G i).log (request X.requests i)).Perm (rows.filter (satisfies cli.query)) :=
    hall i (by
      have hsome := hlast hl
      intro hnone
      cases hsome.symm.trans hnone)
  have hlen : (X.thread i).result.rows = (rows.filter (satisfies cli.query)).length :=
    hrows.trans hperm.length_eq
  refine ⟨hok, hlen, fun hlt => ?_⟩
  have hprinted : (X.thread i).printed =
      (((G i).log (request X.requests i)).take (X.thread i).result.rows).take
        cli.printRows.toNat :=
    (prints_of_reach (hG.lawful i) hjoint).eq (hperm.length_eq.trans_lt hlt)
  rw [hprinted, hlen, ← hperm.length_eq, List.take_length]
  refine ⟨((List.take_sublist _ _).subperm).trans hperm.subperm, ?_⟩
  rw [List.length_take]

end System

variable {getenv : String → Option (List Char)} {args : Args} {edges : List (Node × Node)}
  {ov : OverlayYaml.Overlay} {po : Except String PyOverlay.Overlay} {L : Libraries}
  {ch : String → Choices} {dir : DataDir} {file : Node → CsvFile L.readers}

lemma reports {n : ℕ} {cli : CliArgs} (hc : cli.cancelAfter = false) (hl : cli.limitChunks < 0)
    (h : AllRead getenv args edges ov po) (hconn : (edgeGraph edges).Connected)
    (hs : Stored dir file) (up : Up L dir ch ov po) (done : Fin n → String → ℕ → List Column)
    {md : OwnerMetadata String} (hd : Describes md (rowsAt file)) (hq : Routable md cli.query)
    (p : Impl) :
    Reports p (fun i => cluster ov po gateway.name md up.data (done i)) cli (allRows file) := by
  simp only [cluster_read h]
  cases p with
  | cpp =>
    intro size X hX
    have hG := reliant_cpp (fun i : Fin n => Startup.config
      (plannedOverlay args edges (chunkMax po)) gateway.name md up.data (done i)) fun _ => cli.query
    exact ends_of_reliant hG hc hl hX fun i hlast =>
      (gathersAll h hconn hs up done hd (fun _ => hq) _ (hG.requests hc hX) i).2 hlast
  | python =>
    intro size X hX
    have hG := reliant_py (fun i : Fin n => Startup.config
      (plannedOverlay args edges (chunkMax po)) gateway.name md up.data (done i))
      (fun _ => cli.query) (fun _ => gateway_notMem) (fun _ => owners_ne_nil)
      fun i o ho _ => served_planned hconn md up.data (done i) ho
    refine ends_of_reliant hG hc hl hX fun i hlast => ?_
    have hall := gathersAllPy h hconn hs up done md (fun _ => cli.query) _ (hG.requests hc hX) i
    refine hall.2.2 ?_
    by_contra hended
    exact hlast (if_neg hended)

variable {D : Doubles}

def wholeNumber (text : List Char) : Option ℚ :=
  (Scanf.scanInt text).map fun p => p.1

/-- Whole numbers, each as it is. -/
def wholeNumbers : Doubles := ⟨wholeNumber, fun t => t⟩

/-- Trips of two to five miles, picked up on the first two days of 2020. -/
def shortTrips : List Condition :=
  [⟨"trip_distance", .number "2", .number "5", true⟩,
    ⟨"pickup_datetime", .time 1577836800, .time 1578009600, false⟩]

end Mini2.Report
