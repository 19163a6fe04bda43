import Mini2.ExactlyOnce
import Mini2.Planned
import Mini2.PyClient

/-!
From the files to the client. The overlay is one that the generator has written, each owner has a
partition of its own, and the manifest describes them: then the client of every query gets the
matching rows of all owners.
-/

namespace Mini2.EndToEnd

open Mini2.Runs Mini2.Proto Mini2.Store Mini2.Net Mini2.Gather Mini2.RoundRobin Mini2.Cluster
open Mini2.Forwarded Mini2.Finish Mini2.ExactlyOnce Mini2.Routing Mini2.Manifest Mini2.Loaders
open Mini2.Topology Mini2.OverlayYaml Mini2.EmitYaml Mini2.OverlayRoundTrip Mini2.Environment
open Mini2.Startup Mini2.Answers Mini2.Planned Mini2.PyGateway Mini2.PySteps Mini2.PyLane
open Mini2.PyClient

variable {getenv : String → Option (List Char)} {args : Args} {edges : List (Node × Node)}
  {ov : OverlayYaml.Overlay} {po : Except String PyOverlay.Overlay} {m : ℤ}

/-! ### The answers -/

variable {L : Libraries} {ch : String → Choices} {dir : DataDir} {file : Node → CsvFile L.readers}

def rowsAt (file : Node → CsvFile L.readers) (name : String) : List TaxiRow :=
  ((nodes.map fun n => (n.name, fileRows (file n))).lookup name).getD []

lemma rowsAt_name (file : Node → CsvFile L.readers) (n : Node) :
    rowsAt file n.name = fileRows (file n) := by
  rw [rowsAt, lookup_name]
  rfl

lemma started (h : AllRead getenv args edges ov po) (up : Up L dir ch ov po) (n : Node) :
    startNode L (ch n.name) dir ov po n.name = .ok (up.data n.name) := by
  have hmem : n.name ∈ ov.nodes.map Prod.fst := by
    have hfst := congrArg (List.map Prod.fst) h.cpp.nodes
    rw [List.map_map, List.map_map] at hfst
    exact hfst ▸ List.mem_map.mpr ⟨n, mem_nodes n, rfl⟩
  obtain ⟨p, hp, hname⟩ := List.mem_map.mp hmem
  exact hname ▸ up.started p hp

lemma rows_owner (h : AllRead getenv args edges ov po) (hs : Stored dir file)
    (up : Up L dir ch ov po) {n : Node} (hn : n ∈ Topology.dataOwners) :
    (up.data n.name).rows.Perm (fileRows (file n)) ∧ (up.data n.name).Exact :=
  startNode_rows (hs.plain n hn) ((isOwner_iff h n).mpr (List.mem_map.mpr ⟨n, hn, rfl⟩))
    (hs.csv n hn) (started h up n)

lemma answer_owner (h : AllRead getenv args edges ov po) (hs : Stored dir file)
    (up : Up L dir ch ov po) (done : ℕ → List Column) (q : Query) {n : Node}
    (hn : n ∈ Topology.dataOwners) : (((up.data n.name).shard done).matchRows q).Perm
      ((fileRows (file n)).filter (satisfies q)) := by
  obtain ⟨hrows, hex⟩ := rows_owner h hs up hn
  rw [matchRows_shard hex]
  exact hrows.filter _

lemma answer_other (h : AllRead getenv args edges ov po) (up : Up L dir ch ov po)
    (done : ℕ → List Column) (q : Query) {name : String}
    (hname : name ∉ Topology.dataOwners.map Node.name) :
    ((up.data name).shard done).matchRows q = [] := by
  have hnone : up.data name = .none := by
    by_cases hp : ∃ n : Node, n.name = name
    · obtain ⟨n, rfl⟩ := hp
      exact startNode_other (fun hown => hname ((isOwner_iff h n).mp hown)) (started h up n)
    · refine up.other name fun p hmem heq => hp ?_
      have hfst := congrArg (List.map Prod.fst) h.cpp.nodes
      rw [List.map_map, List.map_map] at hfst
      obtain ⟨n, -, hn⟩ := List.mem_map.mp (hfst ▸ List.mem_map.mpr ⟨p, hmem, rfl⟩)
      exact ⟨n, hn.trans heq⟩
  rw [hnone]
  rfl

lemma flatMap_sublist {A B : Type} {l l' : List A} {f : A → List B} (h : l.Sublist l')
    (hnodup : l'.Nodup) (hf : ∀ a ∈ l', f a ≠ [] → a ∈ l) : l.flatMap f = l'.flatMap f := by
  induction h with
  | slnil => rfl
  | @cons l l' a h ih =>
    obtain ⟨ha, hnodup⟩ := List.nodup_cons.mp hnodup
    have hnil : f a = [] := by
      by_contra hne
      exact ha (h.subset (hf a List.mem_cons_self hne))
    rw [List.flatMap_cons, hnil, List.nil_append]
    exact ih hnodup fun b hb hne => hf b (List.mem_cons_of_mem _ hb) hne
  | @cons_cons l l' a h ih =>
    obtain ⟨ha, hnodup⟩ := List.nodup_cons.mp hnodup
    rw [List.flatMap_cons, List.flatMap_cons, ih hnodup fun b hb hne => ?_]
    have hmem := hf b (List.mem_cons_of_mem _ hb) hne
    exact (List.mem_cons.mp hmem).resolve_left fun heq => ha (heq ▸ hb)

/-! ### From the files to the client -/

variable {Rid : Type} [DecidableEq Rid]

/-- In every run in which every call is answered, and at any time, the client of a query has got
rows that satisfy it, none twice; and all of them once its stream has ended. -/
def GathersAll (c : Rid → Config String Query TaxiRow) (query : Rid → Query) (rows : List TaxiRow) :
    Prop :=
  ∀ R, Reach (stepOf c query) (fun _ a => AllAnswered a.2) (Requests.init String Rid) R →
    ∀ rid, ((R.request rid).log.map Prod.snd).Subperm (rows.filter (satisfies (query rid))) ∧
      ((R.request rid).finished ≠ none →
        ((R.request rid).log.map Prod.snd).Perm (rows.filter (satisfies (query rid))))

/-- The same of a Python gateway; and before the last chunk no stream ends in an error. -/
def GathersAllPy (c : Rid → Config String Query TaxiRow) (query : Rid → Query)
    (rows : List TaxiRow) : Prop :=
  ∀ R, Reach (pyStepOf c query) (fun R a => Reliable (R.request a.1) a.2)
    (PyRequests.init String Rid) R →
    ∀ rid, (R.request rid).failed = none ∧
      ((R.request rid).sys.log.map Prod.snd).Subperm (rows.filter (satisfies (query rid))) ∧
      ((R.request rid).ended = true →
        ((R.request rid).sys.log.map Prod.snd).Perm (rows.filter (satisfies (query rid))))

/-- What holds by the program that the gateway runs. -/
def GathersAllOf (i : Impl) (c : Rid → Config String Query TaxiRow) (query : Rid → Query)
    (rows : List TaxiRow) : Prop :=
  match i with
  | .cpp => GathersAll c query rows
  | .python => GathersAllPy c query rows

def allRows (file : Node → CsvFile L.readers) : List TaxiRow :=
  Topology.dataOwners.flatMap fun n => fileRows (file n)

lemma answers_perm (h : AllRead getenv args edges ov po) (hs : Stored dir file)
    (up : Up L dir ch ov po) (done : String → ℕ → List Column) (q : Query) :
    ((Topology.dataOwners.map Node.name).flatMap fun o =>
      ((up.data o).shard (done o)).matchRows q).Perm ((allRows file).filter (satisfies q)) := by
  rw [List.flatMap_map, allRows, List.filter_flatMap]
  exact List.Perm.flatMap_left _ fun n hn => answer_owner h hs up (done n.name) q hn

lemma gathersAll (h : AllRead getenv args edges ov po) (hconn : (edgeGraph edges).Connected)
    (hs : Stored dir file) (up : Up L dir ch ov po) (done : Rid → String → ℕ → List Column)
    {md : OwnerMetadata String} (hd : Describes md (rowsAt file)) {query : Rid → Query}
    (hq : ∀ rid, Routable md (query rid)) :
    GathersAll (fun rid => Startup.config (plannedOverlay args edges m) gateway.name md up.data
      (done rid)) query (allRows file) := by
  intro R hR rid
  set c := Startup.config (plannedOverlay args edges m) gateway.name md up.data (done rid) with hc
  set q := query rid
  have hreach := request_reachOf hR rid
  have hlisted : c.overlay.dataOwners.Nodup := nodup_planned
  have hown : (c.eligible q).Nodup := hlisted.sublist (c.eligible_sublist q)
  have hr : WithinTtl c q := fun o ho _ =>
    near_planned hconn ((c.eligible_sublist q).subset ho)
  have hG : ∀ (s : Sys String TaxiRow) (a : Act String), AllAnswered a → AllAnswered a :=
    fun _ _ ha => ha
  -- smart routing asks every owner that has an answer
  have hall : ∀ o, (c.shard o).matchRows q ≠ [] → o ∈ c.eligible q := by
    intro o hne
    by_cases ho : o ∈ Topology.dataOwners.map Node.name
    · obtain ⟨n, hn, rfl⟩ := List.mem_map.mp ho
      obtain ⟨r, hr⟩ := List.exists_mem_of_ne_nil _ hne
      have hanswer := answer_owner h hs up (done rid n.name) q hn
      obtain ⟨hmem, hsat⟩ := List.mem_filter.mp (hanswer.mem_iff.mp hr)
      exact mem_eligibleOwners hd (hq rid) ho (rowsAt_name file n ▸ hmem) hsat
    · exact absurd (answer_other h up (done rid o) q ho) hne
  have hrows : (c.overlay.dataOwners.flatMap fun o => (c.shard o).matchRows q).Perm
      ((allRows file).filter (satisfies q)) := answers_perm h hs up (done rid) q
  have hsrc : ∀ p ∈ (R.request rid).log, p.1 ∈ c.overlay.dataOwners := by
    intro p hp
    by_contra ho
    have hpre := log_isPrefix hown hr hG hreach p.1
    rw [show (c.shard p.1).matchRows q = [] from answer_other h up (done rid p.1) q ho,
      List.prefix_nil] at hpre
    have hmem : p.2 ∈ itemsOf (R.request rid).log p.1 :=
      List.mem_map.mpr ⟨p, List.mem_filter.mpr ⟨hp, by simp⟩, rfl⟩
    rw [hpre] at hmem
    cases hmem
  refine ⟨?_, fun hf => ?_⟩
  · have hsub : (c.overlay.dataOwners.flatMap (itemsOf (R.request rid).log)).Sublist
        (c.overlay.dataOwners.flatMap fun o => (c.shard o).matchRows q) :=
      List.Sublist.flatMap_right _ fun o _ => (log_isPrefix hown hr hG hreach o).sublist
    exact (perm_flatMap_itemsOf hlisted hsrc).subperm.trans (hsub.subperm.trans hrows.subperm)
  · have hperm := log_perm hown hr hG hreach hall (.inl hf)
    rw [flatMap_sublist (c.eligible_sublist q) hlisted fun o _ hne => hall o hne] at hperm
    exact hperm.trans hrows

lemma served_planned (hconn : (edgeGraph edges).Connected) (md : OwnerMetadata String)
    (data : String → Data) (done : String → ℕ → List Column) {o : String}
    (ho : o ∈ (plannedOverlay args edges m).dataOwners) :
    Served (Startup.config (plannedOverlay args edges m) gateway.name md data done) o := by
  obtain ⟨k, hk, hroutes⟩ := near_planned hconn ho
  refine ⟨⟨k, hk, hroutes⟩, ?_⟩
  cases k with
  | zero =>
    obtain rfl : gateway.name = o := hroutes
    exact absurd ho gateway_notMem
  | succ k =>
    obtain ⟨hop, htoward, hroutes⟩ := hroutes
    exact ⟨hop, (toward_hop_iff.mp htoward).2.1, k, hroutes⟩

lemma gathersAllPy (h : AllRead getenv args edges ov po) (hconn : (edgeGraph edges).Connected)
    (hs : Stored dir file) (up : Up L dir ch ov po) (done : Rid → String → ℕ → List Column)
    (md : OwnerMetadata String) (query : Rid → Query) :
    GathersAllPy (fun rid => Startup.config (plannedOverlay args edges m) gateway.name md up.data
      (done rid)) query (allRows file) := by
  intro R hR rid
  set c := Startup.config (plannedOverlay args edges m) gateway.name md up.data (done rid) with hc
  set q := query rid
  have hclient := client_of_reach gateway_notMem owners_ne_nil
    (fun o ho _ => served_planned hconn md up.data (done rid) ho) (request_pyReachOf hR rid)
  have hrows : (c.overlay.dataOwners.flatMap fun o => (c.shard o).matchRows q).Perm
      ((allRows file).filter (satisfies q)) := answers_perm h hs up (done rid) q
  have hperm : ((R.request rid).sys.log.map Prod.snd).Perm
      (c.overlay.dataOwners.flatMap (itemsOf (R.request rid).sys.log)) :=
    perm_flatMap_itemsOf nodup_planned fun p hp =>
      hclient.known p (List.mem_append_left _ hp)
  refine ⟨hclient.failed_eq, ?_, fun he => ?_⟩
  · have hsub : (c.overlay.dataOwners.flatMap (itemsOf (R.request rid).sys.log)).Sublist
        (c.overlay.dataOwners.flatMap fun o => (c.shard o).matchRows q) :=
      List.Sublist.flatMap_right _ fun o _ => (hclient.isPrefix o).sublist
    exact hperm.subperm.trans (hsub.subperm.trans hrows.subperm)
  · rw [List.flatMap_congr fun o ho => hclient.eq_of_ended he ho] at hperm
    exact hperm.trans hrows

/-- The network that the nodes have read, and the rest of the cluster that has started. -/
def cluster (ov : OverlayYaml.Overlay) (po : Except String PyOverlay.Overlay) (gateway : String)
    (md : OwnerMetadata String) (data : String → Data) (done : String → ℕ → List Column) :
    Config String Query TaxiRow :=
  Startup.config (clusterOverlay ov po gateway) gateway md data done

lemma cluster_read (h : AllRead getenv args edges ov po) (md : OwnerMetadata String)
    (data : String → Data) (done : String → ℕ → List Column) :
    cluster ov po gateway.name md data done =
      Startup.config (plannedOverlay args edges (chunkMax po)) gateway.name md data done := by
  rw [cluster, clusterOverlay_read h]

lemma gathersAllOf (h : AllRead getenv args edges ov po) (hconn : (edgeGraph edges).Connected)
    (hs : Stored dir file) (up : Up L dir ch ov po) (done : Rid → String → ℕ → List Column)
    {md : OwnerMetadata String} (hd : Describes md (rowsAt file)) {query : Rid → Query}
    (hq : ∀ rid, Routable md (query rid)) (i : Impl) :
    GathersAllOf i (fun rid => cluster ov po gateway.name md up.data (done rid)) query
      (allRows file) := by
  simp only [cluster_read h]
  cases i with
  | cpp => exact gathersAll h hconn hs up done hd hq
  | python => exact gathersAllPy h hconn hs up done md query

/-- A Python node can read the file: `yaml.safe_load` takes the text for the document it is, and
the ports of the environment are integers. -/
structure PyReads (L : Libraries) (args : Args) (edges : List (Node × Node)) (text : String)
    (getenv : String → Option (List Char)) (files : String → Option (List Char))
    (path : Option String) : Prop where
  file : files (PyOverlay.resolve getenv path) = some text.toList
  documents : PyOverlay.Documents L.readers L.yaml args edges text
  ports : PyOverlay.PortsRead getenv

/-- The overlay as the Python nodes read it. -/
def readPython (L : Libraries) (getenv : String → Option (List Char))
    (files : String → Option (List Char)) (path : Option String) :
    Except String PyOverlay.Overlay :=
  PyOverlay.loadOverlay getenv L.readers L.yaml files path

lemma exists_read {name text : String} (hargs : Tokens args) (hname : OneLine name)
    (htext : emitYaml args name edges = .ok text) (getenv : String → Option (List Char))
    (atof : Line → ℚ) {files : String → Option (List Char)} {path : String} {path' : Option String}
    (hfile : files (resolve getenv path) = some text.toList)
    (hpy : ∀ n : Node, implOf (args.implMap n) = .python →
      PyReads L args edges text getenv files path') :
    ∃ ov, loadOverlay getenv atof files path = .ok ov ∧
      AllRead getenv args edges ov (readPython L getenv files path') := by
  obtain ⟨ov, hov, hmade⟩ := loadOverlay_made getenv hargs hname htext atof hfile
  refine ⟨ov, hov, hmade, fun n hn => ?_⟩
  have hreads := hpy n hn
  exact PyOverlay.loadOverlay_read hreads.documents hreads.ports hreads.file

lemma describes_none (rows : String → List TaxiRow) :
    Describes (loadOwnerMetadata exactLibraries.stod none) rows := by
  have hother : (loadOwnerMetadata exactLibraries.stod none).scheme = "" := rfl
  constructor <;> intro h <;> rw [hother] at h <;> exact absurd h (by decide)

lemma stored_oneTripEach :
    Stored (L := exactLibraries) oneTripEach fun _ => tripFile true where
  csv _ _ := rfl
  plain _ _ := plain_tripFile

lemma pyReads_star (text : String) : PyReads exactLibraries PyOverlay.onePython starEdges text
    noEnv (fun _ => some text.toList) none where
  file := rfl
  documents := ⟨PyOverlay.plainScalar, PyOverlay.scalars_onePython, rfl⟩
  ports _ _ h := nomatch h

end Mini2.EndToEnd
