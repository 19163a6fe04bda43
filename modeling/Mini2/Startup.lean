import Mini2.Cluster
import Mini2.Loaders
import Mini2.Manifest
import Mini2.PyOverlay
import Mini2.PyOwner

/-!
A cluster as it is started from its files: the overlay, the manifest, and for each data owner a
partition. Each node loads them with the program it runs.
-/

namespace Mini2.Startup

open Mini2.Proto Mini2.Store Mini2.Net Mini2.Request Mini2.Gather Mini2.Routing Mini2.CsvLoad
open Mini2.PyPartition Mini2.Json Mini2.PyOverlay

/-! ### The overlay -/

def roleOf (role : String) : Role := if role = "gateway" then .gateway else .peer

def implOf (impl : String) : Impl := if impl = "python" then .python else .cpp

/-- What C++ nodes route by. -/
def netOverlay (ov : OverlayYaml.Overlay) : Net.Overlay String where
  nodes := ov.nodes.map fun p => (p.1, ⟨roleOf p.2.role, implOf p.2.impl⟩)
  routing := ov.routing.map fun p => (p.1, p.2.filter fun e => e.2 ≠ "")
  dataOwners := ov.dataOwners
  maxRows := ov.chunking.maxRows

/-- The string that a value is. No other value is the name of a node. -/
def nameOf : Value → Option String
  | .str s => some s
  | _ => none

def pyRow (row : List (String × Value)) : List (String × String) :=
  row.filterMap fun e => (nameOf e.2).map (Prod.mk e.1)

/-- The row a node looks its next hops up in, by what its program has read. -/
def rowRead (ov : OverlayYaml.Overlay) (po : Except String PyOverlay.Overlay) (name : String) :
    Impl → Option (List (String × String))
  | .cpp => (netOverlay ov).routing.lookup name
  | .python => po.toOption.bind fun po => (po.routing.lookup name).map pyRow

/-- The owners a node asks. -/
def ownersRead (ov : OverlayYaml.Overlay) (po : Except String PyOverlay.Overlay) :
    Impl → List String
  | .cpp => ov.dataOwners
  | .python => po.toOption.elim [] fun po => po.dataOwners.filterMap nameOf

/-- What bounds a batch of a Python producer. -/
def chunkMax (po : Except String PyOverlay.Overlay) : ℤ :=
  match po.bind PyOverlay.Overlay.knobs with
  | .ok knobs => knobs.chunkMax
  | .error _ => 0

/-- What the nodes route and produce by, each with its own program. -/
def clusterOverlay (ov : OverlayYaml.Overlay) (po : Except String PyOverlay.Overlay)
    (gateway : String) : Net.Overlay String where
  nodes := (netOverlay ov).nodes
  routing := (netOverlay ov).nodes.filterMap fun p => (rowRead ov po p.1 p.2.impl).map (Prod.mk p.1)
  dataOwners := ownersRead ov po ((netOverlay ov).impl gateway)
  maxRows := chunkMax po

/-! ### The files -/

/-- The data directory, with the texts of the files that are there. -/
structure DataDir where
  path : String
  manifest : Option (List Char)
  csv : String → Option (List Char)

/-- What the libraries make of texts: numbers, and for Python JSON and YAML documents; and the
whole number that an `int64_t` is as a double. -/
structure Libraries where
  readers : Loaders.Readers
  stod : List Char → ℚ
  json : List Char → Option Value
  yaml : List Char → Option Value
  ofInt : ℤ → ℤ
  ofInt_exact : ∀ z, |z| ≤ 2 ^ 53 → ofInt z = z

/-- What is left to the threads of a C++ node. -/
structure Choices where
  nt : ℕ
  threads : 1 ≤ nt
  sched : Schedule
  split : ∀ n, Split n

/-! ### The column a Python node sorts by -/

/-- `v or None` -/
def orNone (v : Option Value) : Option Value := v.bind fun v => if falsy v then none else some v

/-- `_read_manifest_scheme`, unless the document has no `get`. -/
def readManifestScheme (json : List Char → Option Value) (manifest : Option (List Char)) :
    Except String (Option Value × Option Value) :=
  match manifest.bind json with
  | none => .ok (none, none)
  | some (.obj m) => .ok (orNone (m.lookup "scheme"), orNone (m.lookup "hash_column"))
  | some _ => .error "object has no attribute 'get'"

def schemeSortColumn (scheme hashColumn : Option Value) : Option Value :=
  match scheme with
  | some (.str s) =>
    if s = "trip_distance" then some (.str "trip_distance")
    else if s = "pu_location_id" then some (.str "pu_location_id")
    else if s = "pickup_datetime" then some (.str "pickup_datetime")
    else if s = "consistent_hash" then some (hashColumn.getD (.str "trip_distance"))
    else none
  | _ => none

/-- The name that is looked up among the columns: only a string can be one of them, and what
cannot be hashed cannot be looked up. -/
def columnName (sortColumn : Option Value) : Except String (Option String) :=
  match sortColumn with
  | some (.str s) => .ok (some s)
  | some (.obj _) => .error "unhashable type: 'dict'"
  | some (.arr _) => .error "unhashable type: 'list'"
  | _ => .ok none

/-! ### The nodes -/

/-- The cells of a store as they are compared. All others are doubles without a loss. -/
def asDoubles (ofInt : ℤ → ℤ) (s : PartitionStore) : PartitionStore :=
  { s with
    pickupDatetime := s.pickupDatetime.map ofInt
    dropoffDatetime := s.dropoffDatetime.map ofInt }

/-- What a node has loaded. A C++ node searches and summarises its columns as doubles. -/
inductive Data
  | none
  | cpp (store : PartitionStore) (doubles : Loaded) (valid : doubles.store.valid = store.valid)
  | python (p : Partition) (holds : ∃ rs, p.Holds rs)

lemma aligned_load {R : List UInt8 → Option (ℚ × List UInt8)} {path : String}
    {file : Option (List UInt8)} {nt : ℕ} {sched : Schedule} {s : PartitionStore}
    (h : loadPartitionCsv R path file nt sched = .ok s) : SequentialLoad.Aligned s := by
  unfold loadPartitionCsv at h
  split at h
  · cases h
  · obtain rfl := Except.ok.inj h
    exact SequentialLoad.aligned_resize 0
  · split at h
    · cases h
    · obtain rfl := Except.ok.inj h
      exact (SequentialLoad.store_spec _ _).1

lemma aligned_doubles {s : PartitionStore} (h : SequentialLoad.Aligned s) (ofInt : ℤ → ℤ)
    (table : List (String × ℚ × ℚ)) :
    SequentialLoad.Aligned { asDoubles ofInt s with columnRanges := table } := by
  intro c
  have hc := h c
  cases c with
  | pickupDatetime => exact (List.length_map _).trans hc
  | dropoffDatetime => exact (List.length_map _).trans hc
  | _ => exact hc

lemma holds_partitionLoad {R : Loaders.Readers} {text : List Char} {sortColumn : Option String}
    {p : Partition} (h : Loaders.partitionLoad R text sortColumn = some p) : ∃ rs, p.Holds rs := by
  unfold Loaders.partitionLoad at h
  obtain ⟨records, -, h⟩ := Option.bind_eq_some_iff.mp h
  cases records with
  | nil => cases h
  | cons header records =>
    obtain ⟨rows, -, rfl⟩ := Option.map_eq_some_iff.mp h
    obtain ⟨rs, -, hrs⟩ := Partition.load_spec rows sortColumn
    exact ⟨rs, hrs⟩

variable (L : Libraries) (ch : Choices) (dir : DataDir)

def loadCpp (name : String) (text : List Char) : Except String Data :=
  match h : loadPartitionCsv L.readers.fromChars (dir.path ++ "/" ++ name ++ ".csv")
      (some (Utf8.encode text)) ch.nt ch.sched with
  | .error e => .error e
  | .ok s => .ok (.cpp s {
      store := { asDoubles L.ofInt s with
        columnRanges := (asDoubles L.ofInt s).computeColumnRanges (ch.split s.size) }
      split := ch.split s.size
      aligned := aligned_doubles (aligned_load h) L.ofInt _
      ranges := rfl } rfl)

def loadPython (text : List Char) : Except String Data := do
  let (scheme, hashColumn) ← readManifestScheme L.json dir.manifest
  let sortColumn ← columnName (schemeSortColumn scheme hashColumn)
  match h : Loaders.partitionLoad L.readers text sortColumn with
  | none => .error "invalid literal"
  | some p => .ok (.python p (holds_partitionLoad h))

/-- The data of a Python node: its partition, if it owns data and there is one. -/
def dataPython (po : PyOverlay.Overlay) (name : String) : Except String Data :=
  if po.owns name then
    match dir.csv name with
    | none => .ok .none
    | some text => loadPython L dir text
  else .ok .none

/-- A Python node starts by the overlay it has read. -/
def startPython (po : Except String PyOverlay.Overlay) (name : String) : Except String Data := do
  let po ← po
  if po.hasNode name then
    let data ← dataPython L dir po name
    let _ ← po.knobs
    return data
  else .error ("unknown node " ++ name)

/-- A C++ node starts with the partition of its name, if it owns data and there is one. -/
def startCpp (ov : OverlayYaml.Overlay) (name : String) : Except String Data :=
  if name ∈ ov.dataOwners then
    match dir.csv name with
    | none => .ok .none
    | some text => loadCpp L ch dir name text
  else .ok .none

/-- A node is started with the program that the overlay has for it. -/
def startNode (ov : OverlayYaml.Overlay) (po : Except String PyOverlay.Overlay) (name : String) :
    Except String Data :=
  match ov.nodes.lookup name with
  | none => .error ("unknown node " ++ name ++ " in overlay")
  | some me =>
    match implOf me.impl with
    | .cpp => startCpp L ch dir ov name
    | .python => startPython L dir po name

structure Up (ch : String → Choices) (ov : OverlayYaml.Overlay)
    (po : Except String PyOverlay.Overlay) where
  data : String → Data
  started : ∀ p ∈ ov.nodes, startNode L (ch p.1) dir ov po p.1 = .ok (data p.1)
  other : ∀ n, (∀ p ∈ ov.nodes, p.1 ≠ n) → data n = .none

def Up.make {ch : String → Choices} {ov : OverlayYaml.Overlay}
    {po : Except String PyOverlay.Overlay}
    (h : ∀ p ∈ ov.nodes, ∃ d, startNode L (ch p.1) dir ov po p.1 = .ok d) :
    Up L dir ch ov po where
  data n :=
    match startNode L (ch n) dir ov po n with
    | .ok d => d
    | .error _ => .none
  started p hp := by
    obtain ⟨d, hd⟩ := h p hp
    rw [hd]
  other n hn := by
    have hnone : ov.nodes.lookup n = none :=
      List.lookup_eq_none_iff.mpr fun p hp => bne_iff_ne.mpr (hn p hp).symm
    unfold startNode
    rw [hnone]

/-! ### What the nodes serve from -/

/-- The data as the handlers use it. A Python node may still be summarising its columns. -/
def Data.shard (done : ℕ → List Column) : Data → Shard Query TaxiRow
  | .none => .none ((PartitionStore.ofRows []).fill 0)
  | .cpp store doubles _ => { shardOf doubles with fill := store.fill }
  | .python p _ => PyOwner.shard p done

/-- The rows a node has, in the order in which it lists them. -/
def Data.rows : Data → List TaxiRow
  | .none => []
  | .cpp store _ _ => store.rows
  | .python p _ => Loaders.emitted p

/-- The cast has changed no row. -/
def Data.Exact : Data → Prop
  | .cpp store doubles _ => ∀ i < store.size, store.isValid i = true →
      doubles.store.fill i = store.fill i
  | _ => True

lemma searchRows_eq {p : Partition} {rs : List CsvRow} (h : p.Holds rs) (q : Query) :
    PyOwner.searchRows p q = (Loaders.emitted p).filter (satisfies q) := by
  unfold PyOwner.searchRows Loaders.emitted
  rw [h.rangeSearch_eq, List.filter_map]
  rfl

/-- **Either program lists the rows that satisfy the query**, and no others, where the cast is
exact. -/
theorem matchRows_shard {d : Data} (hex : d.Exact) (done : ℕ → List Column) (q : Query) :
    (d.shard done).matchRows q = d.rows.filter (satisfies q) := by
  cases d with
  | none => rfl
  | cpp store doubles valid =>
    have hsize : doubles.store.size = store.size := congrArg List.length valid
    have hrows : store.rows.filter (satisfies q) =
        ((List.range doubles.store.size).filter fun i => doubles.store.matches i q).map
          store.fill := by
      rw [PartitionStore.rows, List.filter_map, List.filter_filter, hsize]
      congr 1
      refine List.filter_congr fun i hi => ?_
      have hlt := List.mem_range.mp hi
      have hvalid : doubles.store.isValid i = store.isValid i := by
        unfold PartitionStore.isValid
        rw [valid]
      rw [PartitionStore.matches_eq, hsize, decide_eq_true hlt, Bool.true_and, hvalid]
      cases hv : store.isValid i with
      | true => simp [hex i hlt hv]
      | false => simp
    exact (matchRows_filled doubles store.fill q).trans
      ((congrArg _ (doubles.store.rangeSearch_eq doubles.split q)).trans hrows.symm)
  | python p holds =>
    obtain ⟨rs, h⟩ := holds
    exact (PyOwner.matchRows_shard h done q).trans (searchRows_eq h q)

/-- The cluster as its gateway and its handlers see it. -/
def config (net : Net.Overlay String) (gateway : String) (md : OwnerMetadata String)
    (data : String → Data) (done : String → ℕ → List Column) : Config String Query TaxiRow where
  overlay := net
  gateway := gateway
  shard n := (data n).shard (done n)
  eligible q := eligibleOwners net.dataOwners q md
  eligible_sublist _ := eligibleOwners_sublist

end Mini2.Startup
