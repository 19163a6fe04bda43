import Mini2.RoutingCovers
import Mini2.RoutingMonth
import Mini2.Startup

/-!
What an owner answers does not depend on the program it runs, and a manifest that describes the
shards leaves no answer out.
-/

namespace Mini2.Answers

open Mini2.Proto Mini2.Store Mini2.Net Mini2.Request Mini2.Routing Mini2.RoutingCovers
open Mini2.RoutingMonth Mini2.Trunc Mini2.CsvLoad Mini2.PyCsv Mini2.PyPartition Mini2.Loaders
open Mini2.Startup

/-! ### Partitions -/

variable {R : Readers}

/-- The header and the last data line are ended, no flag begins with `1`, and the times are
doubles. -/
structure Plain (f : CsvFile R) : Prop where
  header : LineEnd f.headerEnd
  final : f.final = true ∨ f.lines = []
  flags : ∀ l ∈ f.lines, (l.cell .storeAndFwdFlag).head? ≠ some '1'
  times : ∀ l ∈ f.lines, |l.row.typed.pickupDatetime| ≤ 2 ^ 53 ∧
    |l.row.typed.dropoffDatetime| ≤ 2 ^ 53

def fileRows (f : CsvFile R) : List TaxiRow := f.lines.map fun l => l.row.typed

variable {L : Libraries} {ch : Choices} {dir : DataDir} {f : CsvFile L.readers} {d : Data}

/-- A row is filled from doubles as from its cells, if its times are doubles. -/
lemma fill_asDoubles {s : PartitionStore} {i : ℕ}
    (hp : |(s.fill i).pickupDatetime| ≤ 2 ^ 53) (hd : |(s.fill i).dropoffDatetime| ≤ 2 ^ 53) :
    (asDoubles L.ofInt s).fill i = s.fill i := by
  have hcell : ∀ (l : List ℤ), |l.getD i 0| ≤ 2 ^ 53 → (l.map L.ofInt).getD i 0 = l.getD i 0 := by
    intro l hl
    rw [List.getD_eq_getElem?_getD] at hl
    rw [List.getD_eq_getElem?_getD, List.getD_eq_getElem?_getD, List.getElem?_map]
    cases hc : l[i]? with
    | none => rfl
    | some z =>
      rw [hc] at hl
      exact L.ofInt_exact z hl
  have hpick := hcell s.pickupDatetime hp
  have hdrop := hcell s.dropoffDatetime hd
  unfold asDoubles PartitionStore.fill
  simp only [hpick, hdrop]

lemma loadCpp_rows (hf : Plain f) {name : String} (h : loadCpp L ch dir name f.text = .ok d) :
    d.rows = fileRows f ∧ d.Exact := by
  have hload := loadPartitionCsv_text hf.header (dir.path ++ "/" ++ name ++ ".csv") ch.nt ch.sched
  have hrows : (loaded f ch.nt ch.sched).rows = fileRows f := by
    rw [rows_loaded hf.final ch.threads, fileRows, List.map_inj_left]
    exact fun l hl => (cppRow_eq_iff l).mpr (hf.flags l hl)
  unfold loadCpp at h
  split at h
  · cases h
  next s hs =>
    obtain rfl := Except.ok.inj (hload.symm.trans hs)
    obtain rfl := Except.ok.inj h
    refine ⟨hrows, fun i hi hv => ?_⟩
    have hmem : (loaded f ch.nt ch.sched).fill i ∈ fileRows f := by
      rw [← hrows]
      exact List.mem_map.mpr ⟨i, List.mem_filter.mpr ⟨List.mem_range.mpr hi, hv⟩, rfl⟩
    obtain ⟨l, hl, hrow⟩ := List.mem_map.mp hmem
    obtain ⟨hpick, hdrop⟩ := hf.times l hl
    have hfill : (asDoubles L.ofInt (loaded f ch.nt ch.sched)).fill i =
        (loaded f ch.nt ch.sched).fill i := fill_asDoubles (hrow ▸ hpick) (hrow ▸ hdrop)
    exact hfill

lemma emitted_load (rows : List CsvRow) (sortColumn : Option String) :
    (emitted (Partition.load rows sortColumn)).Perm (rows.map CsvRow.typed) := by
  obtain ⟨rs, hperm, hrs⟩ := Partition.load_spec rows sortColumn
  rw [emitted, hrs.map_rowToProto]
  exact hperm.map CsvRow.typed

lemma loadPython_rows (hf : Plain f) (h : loadPython L dir f.text = .ok d) :
    d.rows.Perm (fileRows f) ∧ d.Exact := by
  unfold loadPython at h
  cases hm : readManifestScheme L.json dir.manifest with
  | error e => simp [hm, bind, Except.bind] at h
  | ok m =>
    cases hc : columnName (schemeSortColumn m.1 m.2) with
    | error e => simp [hm, hc, bind, Except.bind] at h
    | ok sortColumn =>
      simp only [hm, hc, bind, Except.bind] at h
      split at h
      · cases h
      next p hp =>
        obtain rfl := Except.ok.inj h
        rw [partitionLoad_rows hf.header] at hp
        obtain rfl := Option.some.inj hp
        have hperm := emitted_load (f.lines.map DataLine.row) sortColumn
        rw [List.map_map] at hperm
        exact ⟨hperm, trivial⟩

/-- The manifest is a document that a Python node can take its sort column from. -/
def Sortable (L : Libraries) (dir : DataDir) : Prop :=
  ∃ m sortColumn, readManifestScheme L.json dir.manifest = .ok m ∧
    columnName (schemeSortColumn m.1 m.2) = .ok sortColumn

variable {ov : OverlayYaml.Overlay} {po : Except String PyOverlay.Overlay} {name : String}

lemma exists_startCpp
    (hcsv : name ∈ ov.dataOwners → ∃ f : CsvFile L.readers, Plain f ∧ dir.csv name = some f.text) :
    ∃ d, startCpp L ch dir ov name = .ok d := by
  unfold startCpp
  split
  next hown =>
    obtain ⟨f, hf, htext⟩ := hcsv hown
    simp only [htext]
    have hload := loadPartitionCsv_text hf.header (dir.path ++ "/" ++ name ++ ".csv") ch.nt ch.sched
    unfold loadCpp
    split
    next e he => cases hload.symm.trans he
    next => exact ⟨_, rfl⟩
  next => exact ⟨_, rfl⟩

lemma exists_startPython {o : PyOverlay.Overlay} {knobs : PyOverlay.Knobs} (hm : Sortable L dir)
    (hnode : o.hasNode name = true) (hknobs : o.knobs = .ok knobs)
    (hcsv : o.owns name = true → ∃ f : CsvFile L.readers, Plain f ∧ dir.csv name = some f.text) :
    ∃ d, startPython L dir (.ok o) name = .ok d := by
  have hdata : ∃ d, dataPython L dir o name = .ok d := by
    unfold dataPython
    split
    next hown =>
      obtain ⟨f, hf, htext⟩ := hcsv hown
      obtain ⟨m, sortColumn, hm, hc⟩ := hm
      have hp := partitionLoad_rows hf.header sortColumn
      simp only [htext]
      unfold loadPython
      simp only [hm, hc, bind, Except.bind]
      split
      next hnone => cases hnone.symm.trans hp
      next => exact ⟨_, rfl⟩
    next => exact ⟨_, rfl⟩
  obtain ⟨d, hd⟩ := hdata
  refine ⟨d, ?_⟩
  unfold startPython
  simp only [bind, Except.bind, hnode, if_true, hd, hknobs]
  rfl

lemma of_startPython (h : startPython L dir po name = .ok d) :
    ∃ o, po = .ok o ∧ dataPython L dir o name = .ok d := by
  unfold startPython at h
  cases hpo : po with
  | error e => simp [hpo, bind, Except.bind] at h
  | ok o =>
    refine ⟨o, rfl, ?_⟩
    simp only [hpo, bind, Except.bind] at h
    split at h
    · cases hd : dataPython L dir o name with
      | error e => simp [hd] at h
      | ok d' =>
        cases hk : o.knobs with
        | error e => simp [hd, hk] at h
        | ok knobs =>
          simp only [hd, hk] at h
          exact h
    · cases h

def Owns (ov : OverlayYaml.Overlay) (po : Except String PyOverlay.Overlay) (name : String) :
    Impl → Prop
  | .cpp => name ∈ ov.dataOwners
  | .python => ∃ o, po = .ok o ∧ o.owns name = true

def IsOwner (ov : OverlayYaml.Overlay) (po : Except String PyOverlay.Overlay) (name : String) :
    Prop :=
  ∃ me, ov.nodes.lookup name = some me ∧ Owns ov po name (implOf me.impl)

lemma startNode_rows (hf : Plain f) (hown : IsOwner ov po name)
    (hcsv : dir.csv name = some f.text) (h : startNode L ch dir ov po name = .ok d) :
    d.rows.Perm (fileRows f) ∧ d.Exact := by
  obtain ⟨me, hme, hown⟩ := hown
  unfold startNode at h
  simp only [hme] at h
  cases hi : implOf me.impl with
  | cpp =>
    rw [hi] at hown
    have hmem : name ∈ ov.dataOwners := hown
    simp only [hi, startCpp, if_pos hmem, hcsv] at h
    obtain ⟨hrows, hex⟩ := loadCpp_rows hf h
    exact ⟨hrows ▸ List.Perm.refl _, hex⟩
  | python =>
    rw [hi] at hown
    simp only [hi] at h
    obtain ⟨o, hpo, howns⟩ := hown
    obtain ⟨o', hpo', hd⟩ := of_startPython h
    obtain rfl := Except.ok.inj (hpo.symm.trans hpo')
    simp only [dataPython, howns, if_true, hcsv] at hd
    exact loadPython_rows hf hd

lemma startNode_other (hown : ¬ IsOwner ov po name)
    (h : startNode L ch dir ov po name = .ok d) : d = .none := by
  unfold startNode at h
  split at h
  · cases h
  next me hme =>
    have hnot : ¬ Owns ov po name (implOf me.impl) := fun hown' => hown ⟨me, hme, hown'⟩
    cases hi : implOf me.impl with
    | cpp =>
      rw [hi] at hnot
      have hmem : name ∉ ov.dataOwners := hnot
      simp only [hi, startCpp, if_neg hmem] at h
      exact (Except.ok.inj h).symm
    | python =>
      rw [hi] at hnot
      simp only [hi] at h
      obtain ⟨o, hpo, hd⟩ := of_startPython h
      rw [dataPython, if_neg fun ho => hnot ⟨o, hpo, ho⟩] at hd
      exact (Except.ok.inj hd).symm

/-- **Whatever program an owner runs**, and however its threads divide the work: it answers a query
with the rows of its file that satisfy it, each once. -/
theorem answer_perm (hf : Plain f) (hown : IsOwner ov po name)
    (hcsv : dir.csv name = some f.text) (h : startNode L ch dir ov po name = .ok d)
    (done : ℕ → List Column) (q : Query) :
    ((d.shard done).matchRows q).Perm ((fileRows f).filter (satisfies q)) := by
  obtain ⟨hrows, hex⟩ := startNode_rows hf hown hcsv h
  rw [matchRows_shard hex]
  exact hrows.filter _

/-- Trips without a manifest: one for each owner. -/
def oneTripEach : DataDir where
  path := "data/partitions"
  manifest := none
  csv _ := some (tripFile true).text

/-- There is one document to read, a star with a Python owner. -/
def exactLibraries : Libraries where
  readers := exactReaders
  stod _ := 0
  json _ := none
  yaml _ := some (PyOverlay.document PyOverlay.plainScalar PyOverlay.onePython
    OverlayRoundTrip.starEdges)
  ofInt z := z
  ofInt_exact _ _ := rfl

lemma plain_tripFile : Plain (tripFile true) :=
  ⟨.lf, .inl rfl, fun l hl => by
    obtain rfl := List.mem_singleton.mp hl
    decide, fun l hl => by
    obtain rfl := List.mem_singleton.mp hl
    decide⟩

def soleOwner (impl : String) : OverlayYaml.Overlay :=
  { nodes := [("C", ⟨"C", "127.0.0.1", 50053, "yellow", "peer", impl, "h1"⟩)]
    dataOwners := ["C"] }

def soleOwnerPy : PyOverlay.Overlay where
  nodes := [("C", ⟨"C", .str "127.0.0.1", 50053, .str "yellow", .str "peer", .str "python",
    .str "h1"⟩)]
  edges := []
  routing := []
  dataOwners := [.str "C"]
  chunking := []
  scheduler := []
  network := ⟨false, 0, 0⟩

/-- Two threads that load, of which the last writes first. -/
def twoThreads : Choices where
  nt := 2
  threads := Nat.le_succ 1
  sched := ⟨List.reverse, List.reverse_perm⟩
  split := Split.single

/-- What the manifest says of the rows is true, as far as its scheme uses it. -/
structure Describes (md : OwnerMetadata String) (rows : String → List TaxiRow) : Prop where
  trips : md.scheme = "trip_distance" → ∀ o e, md.distRange.lookup o = some e →
    ∀ r ∈ rows o, e.1 ≤ r.tripDistance ∧ r.tripDistance ≤ e.2
  zones : md.scheme = "pu_location_id" → ∀ o zs, md.zones.lookup o = some zs →
    ∀ r ∈ rows o, r.puLocationId ∈ zs
  months : md.scheme = "pickup_datetime" → ∀ o ms, md.months.lookup o = some ms →
    ∀ r ∈ rows o, monthOfEpoch r.pickupDatetime ∈ ms
  multiplier : md.scheme = "consistent_hash" → 0 < md.hashBucketMultiplier
  buckets : md.scheme = "consistent_hash" → ∀ c, resolveCol md.hashColumn = some c →
    ∀ o, ∀ r ∈ rows o, 0 ≤ value r c ∧
      (stripes md).owner (trunc (value r c * md.hashBucketMultiplier)) = some o

/-- A query with a window of pickup times that routing by months can take. -/
def Routable (md : OwnerMetadata String) (q : Query) : Prop :=
  md.scheme = "pickup_datetime" → MonthsBetween q

variable {md : OwnerMetadata String} {rows : String → List TaxiRow} {q : Query} {r : TaxiRow}
  {o : String} {allOwners : List String}

lemma findPred_value {column : String} {pred : RangePredicate}
    (hp : findPred q column = some pred) (hr : satisfies q r = true) :
    ∃ c, resolveCol column = some c ∧ pred.holds (value r c) = true := by
  cases hc : resolveCol column with
  | some c => exact ⟨c, rfl, findPred_holds hc hp hr⟩
  | none =>
    have hall := List.all_eq_true.mp hr pred (List.mem_of_find?_eq_some hp)
    rw [findPred_column hp, hc] at hall
    cases hall

lemma hit_bucket (h : Describes md rows) (hs : md.scheme = "consistent_hash") (hr : r ∈ rows o)
    {pred : RangePredicate} {c : Column} (hc : resolveCol md.hashColumn = some c)
    (hold : pred.holds (value r c) = true) : (stripes md).Hit pred.low pred.high o := by
  obtain ⟨h0, howner⟩ := h.buckets hs c hc o r hr
  have hm : (0 : ℚ) ≤ md.hashBucketMultiplier := by exact_mod_cast (h.multiplier hs).le
  have hlow := trunc_mono (mul_le_mul_of_nonneg_right (RangePredicate.low_le hold) hm)
  have hhigh := trunc_mono (mul_le_mul_of_nonneg_right (RangePredicate.le_high hold) hm)
  have hpos := trunc_nonneg (mul_nonneg h0 hm)
  exact ⟨_, max_le hpos ((min_le_left _ _).trans hlow), hhigh.trans (le_max_right _ _), howner⟩

/-- **Smart routing leaves no answer out**, whichever scheme the manifest has. -/
theorem mem_eligibleOwners (h : Describes md rows) (hq : Routable md q) (ho : o ∈ allOwners)
    (hr : r ∈ rows o) (hsat : satisfies q r = true) : o ∈ eligibleOwners allOwners q md := by
  by_cases htrips : md.scheme = "trip_distance"
  · refine (trips_routes md htrips _ _ _).mpr ⟨ho, fun pred hp e he => ?_⟩
    have hold := findPred_holds (resolveCol_name .tripDistance) hp hsat
    obtain ⟨hlo, hhi⟩ := h.trips htrips o e he r hr
    exact ⟨(RangePredicate.low_le hold).trans hhi, hlo.trans (RangePredicate.le_high hold)⟩
  by_cases hzones : md.scheme = "pu_location_id"
  · refine (zones_routes md hzones _ _ _).mpr ⟨ho, fun pred hp zs hzs => ?_⟩
    have hold := findPred_holds (resolveCol_name .puLocationId) hp hsat
    exact ⟨_, h.zones hzones o zs hzs r hr, trunc_le (RangePredicate.low_le hold),
      le_trunc (RangePredicate.le_high hold)⟩
  by_cases hhash : md.scheme = "consistent_hash"
  · refine (mem_hash hhash).mpr ⟨ho, fun pred hp _ _ => .inl ?_⟩
    obtain ⟨c, hc, hold⟩ := findPred_value hp hsat
    exact hit_bucket h hhash hr hc hold
  by_cases hmonths : md.scheme = "pickup_datetime"
  · refine (months_routes md hmonths _ _ _).mpr ⟨ho, fun pred hp ms hms => ?_⟩
    exact ⟨_, h.months hmonths o ms hms r hr, hq hmonths pred hp r hsat⟩
  rw [eligibleOwners_of_other htrips hzones hhash hmonths]
  exact ho

end Mini2.Answers
