import Mini2.Environment
import Mini2.Json
import Mini2.Loaders

/-!
The overlay as a Python node loads it, from the document that `yaml.safe_load` makes of the file;
and when it is the overlay that a C++ node loads.
-/

namespace Mini2.PyOverlay

open Mini2.Json Mini2.Loaders

/-! ### Values -/

/-- `not v` -/
def falsy : Value → Bool
  | .null => true
  | .str s => s.isEmpty
  | .num n => n = 0
  | .bool b => !b
  | .obj fields => fields.isEmpty
  | .arr items => items.isEmpty

/-- `v[key]` -/
def item (v : Value) (key : String) : Except String Value :=
  match v with
  | .obj fields =>
    match fields.lookup key with
    | some x => .ok x
    | none => .error ("KeyError: " ++ key)
  | _ => .error "TypeError"

/-- `v.get(key, default)` -/
def get (v : Value) (key : String) (default : Value) : Except String Value :=
  match v with
  | .obj fields => .ok ((fields.lookup key).getD default)
  | _ => .error "AttributeError"

/-- `v.items()` -/
def items : Value → Except String (List (String × Value))
  | .obj fields => .ok fields
  | _ => .error "AttributeError"

/-- A dictionary after `d[key] = x`. -/
def assign (fields : List (String × Value)) (key : String) (x : Value) : List (String × Value) :=
  if (fields.lookup key).isSome then fields.map fun p => if p.1 = key then (key, x) else p
  else fields ++ [(key, x)]

/-- `v[key] = x` -/
def setItem (v : Value) (key : String) (x : Value) : Except String Value :=
  match v with
  | .obj fields => .ok (.obj (assign fields key x))
  | _ => .error "TypeError"

/-- `int(v)` -/
def toInt : Value → Except String ℤ
  | .num q => .ok (if 0 ≤ q then q.floor else q.ceil)
  | .bool b => .ok (if b then 1 else 0)
  | .str s =>
    match int s.toList with
    | some n => .ok n
    | none => .error "ValueError"
  | _ => .error "TypeError"

/-- `float(v)` -/
def toFloat (R : Readers) : Value → Except String ℚ
  | .num q =>
    match R.nearest q with
    | some v => .ok v
    | none => .error "OverflowError"
  | .bool b => .ok (if b then 1 else 0)
  | .str s =>
    match R.float s.toList with
    | some v => .ok v
    | none => .error "ValueError"
  | _ => .error "TypeError"

/-- `list(v)` -/
def toList : Value → Except String (List Value)
  | .arr items => .ok items
  | .obj fields => .ok (fields.map fun p => .str p.1)
  | .str s => .ok (s.toList.map fun c => .str (String.ofList [c]))
  | _ => .error "TypeError"

/-- `dict(v)` of a dictionary, or of what is empty. -/
def toDict : Value → Except String (List (String × Value))
  | .obj fields => .ok fields
  | .arr [] => .ok []
  | .str "" => .ok []
  | _ => .error "TypeError"

lemma ok_bind {A B : Type} (x : A) (f : A → Except String B) : (Except.ok x >>= f) = f x := rfl

lemma items_obj (fields : List (String × Value)) : items (.obj fields) = .ok fields := rfl

lemma toList_arr (l : List Value) : toList (.arr l) = .ok l := rfl

lemma toDict_obj (fields : List (String × Value)) : toDict (.obj fields) = .ok fields := rfl

/-! ### The overlay -/

structure NodeSpec where
  name : String
  host : Value
  port : ℤ
  team : Value
  role : Value
  impl : Value
  virtualHost : Value

structure NetworkSim where
  simulate : Bool
  interHostLatencyMs : ℚ
  intraHostLatencyMs : ℚ

structure Overlay where
  nodes : List (String × NodeSpec)
  edges : List (List Value)
  routing : List (String × List (String × Value))
  dataOwners : List Value
  chunking : List (String × Value)
  scheduler : List (String × Value)
  network : NetworkSim

variable (getenv : String → Option (List Char))

/-- A host that the environment has for a node. -/
def expandHost (name : String) (spec : Value) : Except String Value :=
  match getenv ("MINI2_HOST_" ++ name) with
  | none | some [] => .ok spec
  | some h => setItem spec "host" (.str (String.ofList h))

def expandPort (name : String) (spec : Value) : Except String Value :=
  match getenv ("MINI2_PORT_" ++ name) with
  | none | some [] => .ok spec
  | some v => do
    let port ← toInt (.str (String.ofList v))
    setItem spec "port" (.num port)

/-- `_expand_hostnames`, for one node -/
def expandSpec (name : String) (spec : Value) : Except String Value := do
  let spec ← expandHost getenv name spec
  expandPort getenv name spec

/-- `_expand_hostnames` -/
def expandHostnames (raw : Value) : Except String Value := do
  let specs ← items (← get raw "nodes" (.obj []))
  let specs ← specs.mapM fun p => (expandSpec getenv p.1 p.2).map (Prod.mk p.1)
  match raw with
  -- the specs are changed where they are
  | .obj fields =>
    if (fields.lookup "nodes").isSome then return .obj (assign fields "nodes" (.obj specs))
    else return raw
  | _ => return raw

def nodeSpec (name : String) (spec : Value) : Except String NodeSpec := do
  return {
    name := name
    host := ← item spec "host"
    port := ← toInt (← item spec "port")
    team := ← item spec "team"
    role := ← item spec "role"
    impl := ← item spec "impl"
    virtualHost := ← get spec "virtual_host" (.str "h1") }

/-- The file that is meant; the default is the one in the repository. -/
def resolve (path : Option String) : String := path.getD (OverlayYaml.resolve getenv "")

/-- `load_overlay`, from the document on. -/
def readOverlay (R : Readers) (raw : Value) : Except String Overlay := do
  let raw ← expandHostnames getenv raw
  let specs ← items (← item raw "nodes")
  let nodes ← specs.mapM fun p => (nodeSpec p.1 p.2).map (Prod.mk p.1)
  let netRaw ← get raw "network" (.obj [])
  let netRaw := if falsy netRaw then .obj [] else netRaw
  let simulate ← get netRaw "simulate" (.bool false)
  let inter ← toFloat R (← get netRaw "inter_host_latency_ms" (.num 0))
  let intra ← toFloat R (← get netRaw "intra_host_latency_ms" (.num 0))
  let edges ← (← toList (← item raw "edges")).mapM toList
  let rows ← items (← item raw "routing")
  let routing ← rows.mapM fun p => (toDict p.2).map (Prod.mk p.1)
  let dataOwners ← toList (← item raw "data_owners")
  let chunking ← toDict (← get raw "chunking" (.obj []))
  let scheduler ← toDict (← get raw "scheduler" (.obj []))
  return {
    nodes := nodes
    edges := edges
    routing := routing
    dataOwners := dataOwners
    chunking := chunking
    scheduler := scheduler
    network := ⟨!falsy simulate, inter, intra⟩ }

def loadOverlay (R : Readers) (yaml : List Char → Option Value)
    (files : String → Option (List Char)) (path : Option String) : Except String Overlay :=
  match files (resolve getenv path) with
  | none => .error "FileNotFoundError"
  | some text =>
    match yaml text with
    | none => .error "YAMLError"
    | some raw => readOverlay getenv R raw

def Overlay.hasNode (ov : Overlay) (name : String) : Bool := (ov.nodes.lookup name).isSome

/-- `name in overlay.data_owners` -/
def Overlay.owns (ov : Overlay) (name : String) : Bool :=
  ov.dataOwners.any fun
    | .str s => s = name
    | _ => false

structure Knobs where
  chunkInitial : ℤ
  chunkMin : ℤ
  chunkMax : ℤ
  chunkTargetMs : ℤ
  schedMode : Value
  maxConcurrent : ℤ

def Overlay.knobs (ov : Overlay) : Except String Knobs := do
  return {
    chunkInitial := ← toInt ((ov.chunking.lookup "initial_rows").getD (.num 64))
    chunkMin := ← toInt ((ov.chunking.lookup "min_rows").getD (.num 16))
    chunkMax := ← toInt ((ov.chunking.lookup "max_rows").getD (.num 4096))
    chunkTargetMs := ← toInt ((ov.chunking.lookup "target_chunk_ms").getD (.num 25))
    schedMode := (ov.scheduler.lookup "mode").getD (.str "weighted_round_robin")
    maxConcurrent := ← toInt ((ov.scheduler.lookup "max_concurrent_requests").getD (.num 32)) }

/-! ### What the generator writes -/

section Generated

open Mini2.Topology Mini2.EmitYaml Mini2.OverlayRoundTrip

def specDoc (host port team role impl virtualHost : Value) : Value :=
  .obj [("host", host), ("port", port), ("team", team), ("role", role), ("impl", impl),
    ("virtual_host", virtualHost)]

/-- What `emit_yaml` writes, as a document; `scalar` says how a plain scalar is read. -/
def nodesDoc (scalar : String → Value) (args : Args) : Value :=
  .obj (nodes.map fun n => (n.name, specDoc (scalar (host args n)) (scalar (toString (port n)))
    (scalar (args.teamMap n)) (scalar (role n)) (scalar (args.implMap n))
    (scalar (args.hostMap n))))

def networkDoc (scalar : String → Value) (args : Args) : Value :=
  .obj [("simulate", .bool args.simulateNetwork),
    ("inter_host_latency_ms", scalar args.interHostLatencyMs),
    ("intra_host_latency_ms", scalar args.intraHostLatencyMs)]

def chunkingDoc (scalar : String → Value) : List (String × Value) :=
  [("initial_rows", scalar (toString 64)), ("max_rows", scalar (toString 4096)),
    ("min_rows", scalar (toString 16)), ("target_chunk_ms", scalar (toString 25))]

def schedulerDoc (scalar : String → Value) : List (String × Value) :=
  [("mode", scalar "weighted_round_robin"), ("max_concurrent_requests", scalar (toString 32))]

def sectionsDoc (scalar : String → Value) (args : Args) (edges : List (Node × Node)) :
    List (String × Value) :=
  [("edges", .arr ((canonicalEdges edges).map fun e => .arr [scalar e.1.name, scalar e.2.name])),
    ("routing", .obj (nodes.map fun src =>
      (src.name, .obj (nodes.map fun dst => (dst.name, scalar (hopOf edges src dst).name))))),
    ("data_owners", .arr (dataOwners.map fun n => scalar n.name)),
    ("network", networkDoc scalar args), ("chunking", .obj (chunkingDoc scalar)),
    ("scheduler", .obj (schedulerDoc scalar))]

def document (scalar : String → Value) (args : Args) (edges : List (Node × Node)) : Value :=
  .obj (("nodes", nodesDoc scalar args) :: sectionsDoc scalar args edges)

/-- The scalars of an overlay: decimal digits are numbers, names and tokens are strings, and the
latencies are what `float` takes. -/
structure Scalars (R : Readers) (scalar : String → Value) (args : Args) : Prop where
  number : ∀ k : ℕ, scalar (toString k) = .num k
  name : ∀ n : Node, scalar n.name = .str n.name
  token : ∀ n, ∀ s ∈ [host args n, args.teamMap n, role n, args.implMap n, args.hostMap n],
    scalar s = .str s
  latency : ∀ s ∈ [args.interHostLatencyMs, args.intraHostLatencyMs],
    ∃ v, toFloat R (scalar s) = .ok v

/-- The text is read as the document it is. -/
def Documents (R : Readers) (yaml : List Char → Option Value) (args : Args)
    (edges : List (Node × Node)) (text : String) : Prop :=
  ∃ scalar, Scalars R scalar args ∧ yaml text.toList = some (document scalar args edges)

/-- A port that the environment has is an integer. -/
def PortsRead : Prop :=
  ∀ n : Node, ∀ v, getenv ("MINI2_PORT_" ++ n.name) = some v → v ≠ [] → (int v).isSome = true

def hostIn (name d : String) : String :=
  match getenv ("MINI2_HOST_" ++ name) with
  | none | some [] => d
  | some h => String.ofList h

def portIn (name : String) (d : ℤ) : ℤ :=
  match getenv ("MINI2_PORT_" ++ name) with
  | none | some [] => d
  | some v => (int v).getD 0

variable {getenv} {R : Readers} {scalar : String → Value} {args : Args}
  {edges : List (Node × Node)}

lemma toInt_num (k : ℤ) : toInt (.num k) = .ok k := by
  show Except.ok (if 0 ≤ (k : ℚ) then (k : ℚ).floor else (k : ℚ).ceil) = .ok k
  rw [Rat.floor_intCast, Rat.ceil_intCast, ite_self]

lemma toInt_natural (k : ℕ) : toInt (.num k) = .ok (k : ℤ) := toInt_num k

lemma expandHost_doc (name host : String) (port team role impl virtualHost : Value) :
    expandHost getenv name (specDoc (.str host) port team role impl virtualHost) =
      .ok (specDoc (.str (hostIn getenv name host)) port team role impl virtualHost) := by
  unfold expandHost hostIn
  cases getenv ("MINI2_HOST_" ++ name) with
  | none => rfl
  | some v => cases v <;> rfl

lemma expandPort_doc {name : String} (port : ℕ) (host team role impl virtualHost : Value)
    (h : ∀ v, getenv ("MINI2_PORT_" ++ name) = some v → v ≠ [] → (int v).isSome = true) :
    expandPort getenv name (specDoc host (.num port) team role impl virtualHost) =
      .ok (specDoc host (.num (portIn getenv name port : ℤ)) team role impl virtualHost) := by
  unfold expandPort portIn
  cases hv : getenv ("MINI2_PORT_" ++ name) with
  | none => rfl
  | some v =>
    cases v with
    | nil => rfl
    | cons c v =>
      obtain ⟨k, hk⟩ := Option.isSome_iff_exists.mp (h _ hv (List.cons_ne_nil c v))
      simp only [toInt, String.toList_ofList, hk]
      rfl

lemma isSome_of_expandPort {name : String} {spec spec' : Value}
    (h : expandPort getenv name spec = .ok spec') (v : List Char)
    (hv : getenv ("MINI2_PORT_" ++ name) = some v) (hne : v ≠ []) : (int v).isSome = true := by
  unfold expandPort at h
  rw [hv] at h
  cases v with
  | nil => exact absurd rfl hne
  | cons c v =>
    cases hk : int (c :: v) with
    | some k => rfl
    | none => simp [toInt, String.toList_ofList, hk, bind, Except.bind] at h

variable (getenv) in
/-- The spec that is read of a node. -/
def specIn (args : Args) (n : Node) : NodeSpec where
  name := n.name
  host := .str (hostIn getenv n.name (host args n))
  port := portIn getenv n.name (port n)
  team := .str (args.teamMap n)
  role := .str (role n)
  impl := .str (args.implMap n)
  virtualHost := .str (args.hostMap n)

/-- The overlay has what the generator was given and computed. -/
structure IsRead (getenv : String → Option (List Char)) (args : Args)
    (edges : List (Node × Node)) (ov : Overlay) : Prop where
  nodes : ov.nodes = nodes.map fun n => (n.name, specIn getenv args n)
  routing : ov.routing = Topology.nodes.map fun src =>
    (src.name, Topology.nodes.map fun dst => (dst.name, .str (hopOf edges src dst).name))
  edges : ov.edges = (canonicalEdges edges).map fun e => [.str e.1.name, .str e.2.name]
  dataOwners : ov.dataOwners = Topology.dataOwners.map fun n => .str n.name
  knobs : ∃ mode, ov.knobs = .ok ⟨64, 16, 4096, 25, mode, 32⟩

/-- The document of the nodes as the environment changes it. -/
def nodesIn (getenv : String → Option (List Char)) (args : Args) : List (String × Value) :=
  nodes.map fun n => (n.name, specDoc (.str (hostIn getenv n.name (host args n)))
    (.num (portIn getenv n.name (port n) : ℤ)) (.str (args.teamMap n)) (.str (role n))
    (.str (args.implMap n)) (.str (args.hostMap n)))

lemma nodesDoc_eq (hs : Scalars R scalar args) : nodesDoc scalar args = .obj (nodes.map fun n =>
    (n.name, specDoc (.str (host args n)) (.num (port n)) (.str (args.teamMap n)) (.str (role n))
      (.str (args.implMap n)) (.str (args.hostMap n)))) := by
  unfold nodesDoc
  refine congrArg _ (List.map_congr_left fun n _ => ?_)
  have htoken := hs.token n
  simp only [List.forall_mem_cons] at htoken
  obtain ⟨hhost, hteam, hrole, himpl, hvirtual, -⟩ := htoken
  rw [hhost, hteam, hrole, himpl, hvirtual, hs.number]

lemma expandHostnames_document (hs : Scalars R scalar args) (hp : PortsRead getenv) :
    expandHostnames getenv (document scalar args edges) =
      .ok (.obj (("nodes", .obj (nodesIn getenv args)) :: sectionsDoc scalar args edges)) := by
  have hspecs : (nodes.map fun n => (n.name, specDoc (.str (host args n)) (.num (port n))
      (.str (args.teamMap n)) (.str (role n)) (.str (args.implMap n))
      (.str (args.hostMap n)))).mapM
        (fun p => (expandSpec getenv p.1 p.2).map (Prod.mk p.1)) = .ok (nodesIn getenv args) := by
    rw [List.mapM_map]
    refine mapM_ok nodes fun n _ => ?_
    dsimp only [Function.comp_apply]
    unfold expandSpec
    rw [expandHost_doc]
    dsimp only [bind, Except.bind]
    rw [expandPort_doc (port n) _ _ _ _ _ (hp n)]
    rfl
  have hget : get (document scalar args edges) "nodes" (.obj []) = .ok (nodesDoc scalar args) :=
    rfl
  unfold expandHostnames
  rw [hget, nodesDoc_eq hs]
  dsimp only [bind, Except.bind, items]
  rw [hspecs]
  rfl

lemma nodeSpec_doc {port : Value} {k : ℤ} (hport : toInt port = .ok k)
    (name : String) (host team role impl virtualHost : Value) :
    nodeSpec name (specDoc host port team role impl virtualHost) =
      .ok ⟨name, host, k, team, role, impl, virtualHost⟩ := by
  have hitem : item (specDoc host port team role impl virtualHost) "port" = .ok port := rfl
  unfold nodeSpec
  rw [hitem]
  simp only [bind, Except.bind, hport]
  rfl

lemma nodes_read : (nodesIn getenv args).mapM (fun p => (nodeSpec p.1 p.2).map (Prod.mk p.1)) =
    .ok (nodes.map fun n => (n.name, specIn getenv args n)) := by
  unfold nodesIn
  rw [List.mapM_map]
  refine mapM_ok nodes fun n _ => ?_
  dsimp only [Function.comp_apply]
  rw [nodeSpec_doc (toInt_num _)]
  rfl

lemma edges_read (hs : Scalars R scalar args) : ((canonicalEdges edges).map fun e =>
    Value.arr [scalar e.1.name, scalar e.2.name]).mapM toList =
      .ok ((canonicalEdges edges).map fun e => [.str e.1.name, .str e.2.name]) := by
  rw [List.mapM_map]
  refine mapM_ok _ fun e _ => ?_
  dsimp only [Function.comp_apply, toList]
  rw [hs.name, hs.name]

lemma routing_read (hs : Scalars R scalar args) : (nodes.map fun src => (src.name,
    Value.obj (nodes.map fun dst => (dst.name, scalar (hopOf edges src dst).name)))).mapM
      (fun p => (toDict p.2).map (Prod.mk p.1)) = .ok (nodes.map fun src =>
        (src.name, nodes.map fun dst => (dst.name, .str (hopOf edges src dst).name))) := by
  rw [List.mapM_map]
  refine mapM_ok nodes fun src _ => ?_
  refine congrArg (fun row => Except.ok (src.name, row)) (List.map_congr_left fun dst _ => ?_)
  rw [hs.name]

lemma readOverlay_eq (hs : Scalars R scalar args) (hp : PortsRead getenv) {inter intra : ℚ}
    (hinter : toFloat R (scalar args.interHostLatencyMs) = .ok inter)
    (hintra : toFloat R (scalar args.intraHostLatencyMs) = .ok intra) :
    readOverlay getenv R (document scalar args edges) = .ok
      { nodes := nodes.map fun n => (n.name, specIn getenv args n)
        edges := (canonicalEdges edges).map fun e => [.str e.1.name, .str e.2.name]
        routing := nodes.map fun src =>
          (src.name, nodes.map fun dst => (dst.name, .str (hopOf edges src dst).name))
        dataOwners := dataOwners.map fun n => scalar n.name
        chunking := chunkingDoc scalar
        scheduler := schedulerDoc scalar
        network := ⟨!falsy (.bool args.simulateNetwork), inter, intra⟩ } := by
  set raw : Value := .obj (("nodes", .obj (nodesIn getenv args)) :: sectionsDoc scalar args edges)
  have hexpand : expandHostnames getenv (document scalar args edges) = .ok raw :=
    expandHostnames_document hs hp
  have hnodes : item raw "nodes" = .ok (.obj (nodesIn getenv args)) := rfl
  have hnetwork : get raw "network" (.obj []) = .ok (networkDoc scalar args) := rfl
  have hfalsy : falsy (networkDoc scalar args) = false := rfl
  have hsimulate : get (networkDoc scalar args) "simulate" (.bool false) =
      .ok (.bool args.simulateNetwork) := rfl
  have hinterDoc : get (networkDoc scalar args) "inter_host_latency_ms" (.num 0) =
      .ok (scalar args.interHostLatencyMs) := rfl
  have hintraDoc : get (networkDoc scalar args) "intra_host_latency_ms" (.num 0) =
      .ok (scalar args.intraHostLatencyMs) := rfl
  have hedges : item raw "edges" = .ok (.arr ((canonicalEdges edges).map fun e =>
      .arr [scalar e.1.name, scalar e.2.name])) := rfl
  have hrouting : item raw "routing" = .ok (.obj (nodes.map fun src => (src.name,
      .obj (nodes.map fun dst => (dst.name, scalar (hopOf edges src dst).name))))) := rfl
  have howners : item raw "data_owners" = .ok (.arr (dataOwners.map fun n => scalar n.name)) := rfl
  have hchunking : get raw "chunking" (.obj []) = .ok (.obj (chunkingDoc scalar)) := rfl
  have hscheduler : get raw "scheduler" (.obj []) = .ok (.obj (schedulerDoc scalar)) := rfl
  unfold readOverlay
  rw [hexpand, ok_bind, hnodes, ok_bind, items_obj, ok_bind, nodes_read, ok_bind, hnetwork,
    ok_bind]
  dsimp only
  rw [hfalsy, if_neg Bool.false_ne_true, hsimulate, ok_bind, hinterDoc, ok_bind, hinter, ok_bind,
    hintraDoc, ok_bind, hintra, ok_bind, hedges, ok_bind, toList_arr, ok_bind, edges_read hs,
    ok_bind, hrouting, ok_bind, items_obj, ok_bind, routing_read hs, ok_bind, howners, ok_bind,
    toList_arr, ok_bind, hchunking, ok_bind, toDict_obj, ok_bind, hscheduler, ok_bind,
    toDict_obj, ok_bind]
  rfl

lemma knobs_read (hs : Scalars R scalar args) {ov : Overlay}
    (hchunking : ov.chunking = chunkingDoc scalar)
    (hscheduler : ov.scheduler = schedulerDoc scalar) :
    ov.knobs = .ok ⟨64, 16, 4096, 25, scalar "weighted_round_robin", 32⟩ := by
  have hnum : ∀ k : ℕ, toInt (scalar (toString k)) = .ok (k : ℤ) := fun k => by
    rw [hs.number, toInt_natural]
  unfold Overlay.knobs
  rw [hchunking, hscheduler]
  show (do
    let chunkInitial ← toInt (scalar (toString 64))
    let chunkMin ← toInt (scalar (toString 16))
    let chunkMax ← toInt (scalar (toString 4096))
    let chunkTargetMs ← toInt (scalar (toString 25))
    let maxConcurrent ← toInt (scalar (toString 32))
    return (⟨chunkInitial, chunkMin, chunkMax, chunkTargetMs, scalar "weighted_round_robin",
      maxConcurrent⟩ : Knobs) : Except String Knobs) = _
  rw [hnum, hnum, hnum, hnum, hnum]
  rfl

lemma readOverlay_document (hs : Scalars R scalar args) (hp : PortsRead getenv) :
    ∃ ov, readOverlay getenv R (document scalar args edges) = .ok ov ∧
      IsRead getenv args edges ov := by
  obtain ⟨inter, hinter⟩ := hs.latency args.interHostLatencyMs (by simp)
  obtain ⟨intra, hintra⟩ := hs.latency args.intraHostLatencyMs (by simp)
  exact ⟨_, readOverlay_eq hs hp hinter hintra, rfl, rfl, rfl,
    List.map_congr_left fun n _ => hs.name n, _, knobs_read hs rfl rfl⟩

lemma mapM_all {α β ε : Type} {f : α → Except ε β} {l : List α} {bs : List β}
    (h : l.mapM f = .ok bs) {a : α} (ha : a ∈ l) : ∃ b, f a = .ok b := by
  induction l generalizing bs with
  | nil => cases ha
  | cons c l ih =>
    rw [List.mapM_cons] at h
    cases hc : f c with
    | error e => simp [hc, bind, Except.bind] at h
    | ok b =>
      rcases List.mem_cons.mp ha with rfl | ha
      · exact ⟨b, hc⟩
      · cases hl : l.mapM f with
        | error e => simp [hc, hl, bind, Except.bind] at h
        | ok bs => exact ih hl ha

lemma portsRead_of_readOverlay (hs : Scalars R scalar args) {ov : Overlay}
    (h : readOverlay getenv R (document scalar args edges) = .ok ov) : PortsRead getenv := by
  intro n v hv hne
  cases hexpand : expandHostnames getenv (document scalar args edges) with
  | error e => simp [readOverlay, hexpand, bind, Except.bind] at h
  | ok raw =>
    have hget : get (document scalar args edges) "nodes" (.obj []) = .ok (nodesDoc scalar args) :=
      rfl
    unfold expandHostnames at hexpand
    rw [hget, nodesDoc_eq hs] at hexpand
    simp only [bind, Except.bind, items_obj] at hexpand
    cases hspecs : (nodes.map fun n => (n.name, specDoc (.str (host args n)) (.num (port n))
      (.str (args.teamMap n)) (.str (role n)) (.str (args.implMap n))
      (.str (args.hostMap n)))).mapM (fun p => (expandSpec getenv p.1 p.2).map (Prod.mk p.1)) with
    | error e => simp [hspecs] at hexpand
    | ok specs =>
      obtain ⟨p, hp⟩ := mapM_all hspecs (List.mem_map.mpr ⟨n, mem_nodes n, rfl⟩)
      dsimp only at hp
      unfold expandSpec at hp
      rw [expandHost_doc] at hp
      simp only [bind, Except.bind] at hp
      cases hport : expandPort getenv n.name (specDoc (.str (hostIn getenv n.name (host args n)))
          (.num (port n)) (.str (args.teamMap n)) (.str (role n)) (.str (args.implMap n))
          (.str (args.hostMap n))) with
      | error e => simp [hport, Except.map] at hp
      | ok spec => exact isSome_of_expandPort hport v hv hne

/-- A Python node reads the file if the ports of the environment are integers. -/
lemma loadOverlay_read {yaml : List Char → Option Value} {text : String}
    (hdoc : Documents R yaml args edges text) (hp : PortsRead getenv)
    {files : String → Option (List Char)} {path : Option String}
    (hfile : files (resolve getenv path) = some text.toList) :
    ∃ ov, loadOverlay getenv R yaml files path = .ok ov ∧ IsRead getenv args edges ov := by
  obtain ⟨scalar, hs, hyaml⟩ := hdoc
  unfold loadOverlay
  simp only [hfile, hyaml]
  exact readOverlay_document hs hp

/-! ### Both loaders -/

def viewSpec (spec : OverlayYaml.NodeSpec) : NodeSpec where
  name := spec.name
  host := .str spec.host
  port := spec.port
  team := .str spec.team
  role := .str spec.role
  impl := .str spec.impl
  virtualHost := .str spec.virtualHost

/-- The loaders have made the same of the nodes, the edges, the routes and the owners. -/
structure Agree (ov : OverlayYaml.Overlay) (po : Overlay) : Prop where
  nodes : po.nodes = ov.nodes.map fun p => (p.1, viewSpec p.2)
  edges : po.edges = ov.edges.map fun e => [.str e.1, .str e.2]
  routing : po.routing = ov.routing.map fun p => (p.1, p.2.map fun e => (e.1, .str e.2))
  dataOwners : po.dataOwners = ov.dataOwners.map .str

/-- The host that the environment has for a node is not empty, and `int` makes of the port what
`atoi` makes of it. -/
def PlainIn (getenv : String → Option (List Char)) (n : Node) : Prop :=
  getenv ("MINI2_HOST_" ++ n.name) ≠ some [] ∧
    ∀ v, getenv ("MINI2_PORT_" ++ n.name) = some v → int v = some (OverlayYaml.atoi v)

/-- The spec that a C++ node has of a node. -/
def cppSpecIn (getenv : String → Option (List Char)) (args : Args) (n : Node) :
    OverlayYaml.NodeSpec :=
  { specOf args n with
    host := ((getenv ("MINI2_HOST_" ++ n.name)).map String.ofList).getD (host args n)
    port := ((getenv ("MINI2_PORT_" ++ n.name)).map OverlayYaml.atoi).getD (port n) }

lemma hostIn_iff {name d : String} (hd : d ≠ "") :
    hostIn getenv name d = ((getenv ("MINI2_HOST_" ++ name)).map String.ofList).getD d ↔
      getenv ("MINI2_HOST_" ++ name) ≠ some [] := by
  unfold hostIn
  cases getenv ("MINI2_HOST_" ++ name) with
  | none => simp
  | some v =>
    cases v with
    | nil => simpa using hd
    | cons c v => simp

lemma portIn_iff {name : String} {d : ℤ} (hd : d ≠ 0)
    (hp : ∀ v, getenv ("MINI2_PORT_" ++ name) = some v → v ≠ [] → (int v).isSome = true) :
    portIn getenv name d = ((getenv ("MINI2_PORT_" ++ name)).map OverlayYaml.atoi).getD d ↔
      ∀ v, getenv ("MINI2_PORT_" ++ name) = some v → int v = some (OverlayYaml.atoi v) := by
  unfold portIn
  cases hv : getenv ("MINI2_PORT_" ++ name) with
  | none => simp
  | some v =>
    cases v with
    | nil =>
      have hint : int [] = none := rfl
      have hatoi : OverlayYaml.atoi [] = 0 := rfl
      simpa [hint, hatoi] using hd
    | cons c v =>
      obtain ⟨k, hk⟩ := Option.isSome_iff_exists.mp (hp _ hv (List.cons_ne_nil c v))
      simp [hk]

lemma viewSpec_iff (hargs : Tokens args) {n : Node}
    (hp : ∀ v, getenv ("MINI2_PORT_" ++ n.name) = some v → v ≠ [] → (int v).isSome = true) :
    specIn getenv args n = viewSpec (cppSpecIn getenv args n) ↔ PlainIn getenv n := by
  have hhost : host args n ≠ "" := fun h => (token_host hargs n).1 (by rw [h]; rfl)
  have hport : (port n : ℤ) ≠ 0 := by
    unfold port
    omega
  rw [PlainIn, ← hostIn_iff hhost, ← portIn_iff hport hp]
  simp [specIn, viewSpec, cppSpecIn, specOf]

lemma nodes_env (atof : OverlayYaml.Line → ℚ) :
    (OverlayYaml.applyEnvOverrides getenv (OverlayRoundTrip.loaded atof args edges)).nodes =
      nodes.map fun n => (n.name, cppSpecIn getenv args n) := by
  dsimp only [OverlayYaml.applyEnvOverrides, OverlayRoundTrip.loaded]
  rw [List.map_map]
  refine List.map_congr_left fun n _ => ?_
  simp only [Function.comp_apply, cppSpecIn]
  cases getenv ("MINI2_HOST_" ++ n.name) <;> cases getenv ("MINI2_PORT_" ++ n.name) <;> rfl

/-- What has been read of the same file is the same, in an environment that is plain. -/
lemma agree_iff (hargs : Tokens args) (hp : PortsRead getenv) {po : Overlay}
    (hread : IsRead getenv args edges po) (atof : OverlayYaml.Line → ℚ) :
    Agree { OverlayYaml.applyEnvOverrides getenv (OverlayRoundTrip.loaded atof args edges) with
        chunking := OverlayYaml.overrideChunking getenv
          (OverlayRoundTrip.loaded atof args edges).chunking } po ↔
      ∀ n : Node, PlainIn getenv n := by
  constructor
  · intro hagree n
    have hnodes := hagree.nodes
    dsimp only at hnodes
    rw [hread.nodes, nodes_env, List.map_map] at hnodes
    exact (viewSpec_iff hargs (hp n)).mp
      (Prod.ext_iff.mp (List.map_inj_left.mp hnodes n (mem_nodes n))).2
  · intro hplain
    refine ⟨?_, ?_, ?_, ?_⟩
    · dsimp only
      rw [hread.nodes, nodes_env, List.map_map]
      refine List.map_congr_left fun n _ => ?_
      exact congrArg (Prod.mk n.name) ((viewSpec_iff hargs (hp n)).mpr (hplain n))
    · rw [hread.edges]
      show _ = ((canonicalEdges edges).map fun e => (e.1.name, e.2.name)).map _
      rw [List.map_map]
      rfl
    · rw [hread.routing]
      show _ = (nodes.map fun src => (src.name, rowEntries (rowOf edges src))).map _
      rw [List.map_map]
      refine List.map_congr_left fun src _ => ?_
      simp [rowEntries, rowOf]
    · rw [hread.dataOwners]
      show _ = (dataOwners.map Node.name).map _
      rw [List.map_map]
      rfl

/-- **Two loaders of one file**: over what the generator writes, a Python node loads the overlay
that a C++ node loads if and only if the environment has no empty host, and no port that `int` and
`atoi` take for different ones. -/
theorem overlays_agree_iff (hargs : Tokens args) {name text : String} (hname : OneLine name)
    (htext : emitYaml args name edges = .ok text) {yaml : List Char → Option Value}
    (hdoc : Documents R yaml args edges text) (getenv : String → Option (List Char))
    (atof : OverlayYaml.Line → ℚ) (files : String → Option (List Char)) (path : String)
    (path' : Option String) (hfile : files (OverlayYaml.resolve getenv path) = some text.toList)
    (hfile' : files (resolve getenv path') = some text.toList) :
    ∃ ov, OverlayYaml.loadOverlay getenv atof files path = .ok ov ∧
      ((∃ po, loadOverlay getenv R yaml files path' = .ok po ∧ Agree ov po) ↔
        ∀ n : Node, PlainIn getenv n) := by
  refine ⟨_, Environment.loadOverlay_read getenv hargs hname htext atof hfile, ?_⟩
  obtain ⟨scalar, hs, hyaml⟩ := hdoc
  have hload : loadOverlay getenv R yaml files path' =
      readOverlay getenv R (document scalar args edges) := by
    unfold loadOverlay
    simp only [hfile', hyaml]
  rw [hload]
  constructor
  · rintro ⟨po, hpo, hagree⟩
    have hp := portsRead_of_readOverlay hs hpo
    obtain ⟨po', hpo', hread⟩ : ∃ po', readOverlay getenv R (document scalar args edges) = .ok po' ∧
        IsRead getenv args edges po' := readOverlay_document hs hp
    obtain rfl := Except.ok.inj (hpo.symm.trans hpo')
    exact (agree_iff hargs hp hread atof).mp hagree
  · intro hplain
    have hp : PortsRead getenv := fun n v hv _ => by
      rw [(hplain n).2 v hv]
      rfl
    obtain ⟨po, hpo, hread⟩ : ∃ po, readOverlay getenv R (document scalar args edges) = .ok po ∧
        IsRead getenv args edges po := readOverlay_document hs hp
    exact ⟨po, hpo, (agree_iff hargs hp hread atof).mpr hplain⟩

/-- Digits are read as a number, also with a point among them, and all else as a string. -/
def plainScalar (s : String) : Value :=
  if s.toList ≠ [] ∧ s.toList.all Char.isDigit then .num (Nat.ofDigitChars 10 s.toList 0)
  else if s.toList.all (fun c => c.isDigit || c == '.') ∧ s.toList.count '.' = 1 then
    .num (decimal s.toList)
  else .str s

/-- Two hosts, and an owner that runs the other program. -/
def onePython : Args :=
  { twoHosts with implMap := fun n => if n = .C then "python" else "cpp" }

lemma onePython_tokens : Tokens onePython where
  hostMap := twoHosts_tokens.hostMap
  implMap n := by cases n <;> decide
  teamMap := twoHosts_tokens.teamMap
  realHosts := twoHosts_tokens.realHosts
  inter := twoHosts_tokens.inter
  intra := twoHosts_tokens.intra

lemma scalars_onePython : Scalars exactReaders plainScalar onePython where
  number k := by
    have hdigits : (toString k).toList = Nat.toDigits 10 k := by simp
    have hall : ∀ c ∈ Nat.toDigits 10 k, c.isDigit = true := fun c hc =>
      Nat.isDigit_of_mem_toDigits (by decide) (by decide) hc
    unfold plainScalar
    rw [hdigits, if_pos ⟨Nat.toDigits_ne_nil, List.all_eq_true.mpr hall⟩,
      Nat.ofDigitChars_ten_toDigits]
  name n := by cases n <;> rfl
  token n s hs := by
    have hmem : s ∈ ["127.0.0.1", "10.0.0.2", "green", "gateway", "peer", "cpp", "python", "h1",
        "h2"] := by
      revert s
      cases n <;> decide
    simp only [List.mem_cons, List.not_mem_nil, or_false] at hmem
    rcases hmem with rfl | rfl | rfl | rfl | rfl | rfl | rfl | rfl | rfl <;> rfl
  latency s hs := by
    simp only [List.mem_cons, List.not_mem_nil, or_false] at hs
    rcases hs with rfl | rfl <;> exact ⟨_, rfl⟩

/-- The other program's node is at another port. -/
def movedPort (s : String) : Option (List Char) :=
  if s = "MINI2_PORT_C" then some "50153".toList else none

theorem overlays_agree_iff_moved : ∃ text ov, emitYaml onePython "star" starEdges = .ok text ∧
    OverlayYaml.loadOverlay movedPort (fun _ => 0) (fun _ => some text.toList) "" = .ok ov ∧
      ((∃ po, loadOverlay movedPort exactReaders
          (fun _ => some (document plainScalar onePython starEdges)) (fun _ => some text.toList)
            none = .ok po ∧ Agree ov po) ↔ ∀ n : Node, PlainIn movedPort n) := by
  have hconn : (edgeGraph starEdges).Connected := connected_of_validate (by decide)
  have hname : OneLine "star" := by
    unfold OneLine
    decide
  obtain ⟨text, htext⟩ : ∃ text, emitYaml onePython "star" starEdges = .ok text :=
    ⟨_, emitYaml_eq hconn "star"⟩
  have hdoc : Documents exactReaders
      (fun _ => some (document plainScalar onePython starEdges)) onePython starEdges text :=
    ⟨plainScalar, scalars_onePython, rfl⟩
  obtain ⟨ov, hov, h⟩ := overlays_agree_iff onePython_tokens hname htext hdoc movedPort
    (fun _ => 0) (fun _ => some text.toList) "" none rfl rfl
  exact ⟨text, ov, htext, hov, h⟩

end Generated

end Mini2.PyOverlay
