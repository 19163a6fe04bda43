import Mathlib.Algebra.Group.Int.Defs
import Mathlib.Data.List.DropRight
import Mathlib.Data.List.TakeWhile
import Mathlib.Data.Rat.Defs
import Mathlib.Data.String.Basic
import Mini2.Lib.SortedMap

/-!
The loader of `overlay.yaml`, by hand and line by line: a key at column zero opens a section, and
the lines below it that are blank or stand further in are its children. What it cannot place it
skips; a flow map without braces and an overlay without nodes are errors.

A text is a list of characters. Parameters are the environment, the files, and `atof`.
-/

namespace Mini2.OverlayYaml

open Mini2.SortedMap

/-! ### Text -/

abbrev Line := List Char

/-- `std::isspace` -/
def isSpace (c : Char) : Bool :=
  c == ' ' || c == '\t' || c == '\n' || c == '\x0b' || c == '\x0c' || c == '\r'

def leadingSpaces (s : Line) : ℕ := (s.takeWhile (· == ' ')).length

def rtrim (s : Line) : Line := s.rdropWhile fun c => c == '\r' || c == '\n' || c == ' '

def stripComment (s : Line) : Line := s.takeWhile (· != '#')

def trim (s : Line) : Line := (s.dropWhile isSpace).rdropWhile isSpace

/-- Without its outer quotes, if they match. -/
def dequote (s : Line) : Line :=
  let s := trim s
  if 2 ≤ s.length ∧ ((s.head? = some '"' ∧ s.getLast? = some '"') ∨
      (s.head? = some '\'' ∧ s.getLast? = some '\'')) then
    s.tail.dropLast
  else s

def find (c : Char) (s : Line) : Option ℕ := s.findIdx? (· == c)

def rfind (c : Char) (s : Line) : Option ℕ :=
  (s.reverse.findIdx? (· == c)).map (s.length - 1 - ·)

/-- What stands in front of the first colon and behind it. -/
def cutColon (s : Line) : Option (Line × Line) :=
  (find ':' s).map fun c => (s.take c, s.drop (c + 1))

/-- The two sides of a line, trimmed. Without a colon both are the whole line: `npos + 1` is
zero. -/
def sides (s : Line) : Line × Line :=
  match cutColon s with
  | some (k, v) => (trim k, trim v)
  | none => (trim s, trim s)

/-- `std::atoi`: the digits in front, as a `long` that ends at the limits of its range, cast to
`int`. -/
def atoi (s : Line) : ℤ :=
  let s := s.dropWhile isSpace
  let negative := s.head? == some '-'
  let s := if negative || s.head? == some '+' then s.tail else s
  let n : ℤ := (s.takeWhile Char.isDigit).foldl (fun n c => 10 * n + (c.toNat - '0'.toNat)) 0
  (max (-2 ^ 63) (min (2 ^ 63 - 1) (if negative then -n else n))).bmod (2 ^ 32)

/-- An entry of a map, if the text has a colon. -/
def entry (s : Line) : Option (String × String) :=
  (cutColon s).map fun p => (String.ofList (trim p.1), String.ofList (dequote (trim p.2)))

/-- Parses a flow-style mapping: what stands between the first brace and the last, cut at the
commas. -/
def parseFlowMap (body : Line) : Except String (List (String × String)) :=
  match find '{' body, rfind '}' body with
  | some lb, some rb =>
    if rb ≤ lb then .error ("bad flow map: " ++ String.ofList body)
    else
      let inner := (body.take rb).drop (lb + 1)
      let parts := inner.splitOn ','
      let parts := if parts.getLast? = some [] then parts.dropLast else parts
      .ok (setAll [] (parts.filterMap entry))
  | _, _ => .error ("bad flow map: " ++ String.ofList body)

/-- Parses a flow-style sequence. A closing bracket in front of the opening one does not
count. -/
def parseFlowSeq (body : Line) : List String :=
  match find '[' body, rfind ']' body with
  | some lb, some rb =>
    let inner := if lb < rb then (body.take rb).drop (lb + 1) else body.drop (lb + 1)
    let parts := inner.splitOn ','
    let parts := if (parts.getLast?.map trim) = some [] then parts.dropLast else parts
    parts.map fun tok => String.ofList (dequote (trim tok))
  | _, _ => []

/-! ### The overlay -/

structure NodeSpec where
  name : String
  host : String
  port : ℤ
  team : String
  role : String
  impl : String
  virtualHost : String := "h1"
  deriving DecidableEq

structure NetworkSim where
  simulate : Bool := false
  interHostLatencyMs : ℚ := 0
  intraHostLatencyMs : ℚ := 0
  intraHostMaxRows : ℤ := 0
  interHostMaxRows : ℤ := 0
  compressInterHost : Bool := false

structure Chunking where
  initialRows : ℤ := 64
  minRows : ℤ := 16
  maxRows : ℤ := 4096
  targetChunkMs : ℤ := 25
  deriving DecidableEq

structure Scheduler where
  mode : String := "weighted_round_robin"
  maxConcurrentRequests : ℤ := 32
  deriving DecidableEq

structure Overlay where
  nodes : List (String × NodeSpec) := []
  edges : List (String × String) := []
  routing : List (String × List (String × String)) := []
  dataOwners : List String := []
  chunking : Chunking := {}
  scheduler : Scheduler := {}
  network : NetworkSim := {}

/-! ### The sections -/

def blank (s : Line) : Bool := (trim s).isEmpty

/-- The line belongs to what stands above it, whose children begin at column `n`. -/
def child (n : ℕ) (s : Line) : Bool := blank s || n ≤ leadingSpaces s

/-- The children that are not blank. -/
def children (ls : List Line) : List Line := (ls.takeWhile (child 2)).filter (!blank ·)

/-- A line of `nodes`. -/
def nodeLine (m : List (String × NodeSpec)) (nl : Line) :
    Except String (List (String × NodeSpec)) := do
  let (nm, body) := sides nl
  let kv ← parseFlowMap body
  let get key := (kv.lookup key).getD ""
  let spec : NodeSpec :=
    { name := String.ofList nm
      host := get "host"
      port := atoi (get "port").toList
      team := get "team"
      role := get "role"
      impl := get "impl"
      virtualHost := if get "virtual_host" = "" then "h1" else get "virtual_host" }
  return insertKey (String.ofList nm) spec m

/-- A line of `edges`, if it is a pair behind a dash. -/
def edgeLine (el : Line) : Option (String × String) :=
  (find '-' el).bind fun dash =>
    match parseFlowSeq (el.drop (dash + 1)) with
    | [a, b] => some (a, b)
    | _ => none

/-- The lines of a row in block form, four columns in or more. -/
def blockRow (ls : List Line) : List (String × String) :=
  setAll [] ((ls.filter (!blank ·)).filterMap entry)

/-- The rows of `routing`: a key two columns in, and a flow map or a block. -/
def routingRows (m : List (String × List (String × String))) :
    List Line → Except String (List (String × List (String × String)))
  | [] => .ok m
  | rl :: ls =>
    if blank rl || leadingSpaces rl != 2 then routingRows m ls
    else
      let src := String.ofList (sides rl).1
      let body := (sides rl).2
      if body.head? = some '{' then do
        let row ← parseFlowMap body
        routingRows (insertKey src row m) ls
      else
        routingRows (insertKey src (blockRow (ls.takeWhile (child 4))) m)
          (ls.dropWhile (child 4))
termination_by ls => ls.length
decreasing_by
  all_goals
    have := List.length_dropWhile_le (child 4) ls
    simp only [List.length_cons]
    omega

def chunkingLine (ch : Chunking) (cl : Line) : Chunking :=
  let (k, v) := sides cl
  if k = "initial_rows".toList then { ch with initialRows := atoi v }
  else if k = "min_rows".toList then { ch with minRows := atoi v }
  else if k = "max_rows".toList then { ch with maxRows := atoi v }
  else if k = "target_chunk_ms".toList then { ch with targetChunkMs := atoi v }
  else ch

def schedulerLine (sc : Scheduler) (sl : Line) : Scheduler :=
  let (k, v) := sides sl
  let v := dequote v
  if k = "mode".toList then { sc with mode := String.ofList v }
  else if k = "max_concurrent_requests".toList then { sc with maxConcurrentRequests := atoi v }
  else sc

def isTrue (v : Line) : Bool :=
  v == "true".toList || v == "True".toList || v == "1".toList

def networkLine (atof : Line → ℚ) (nw : NetworkSim) (nl : Line) : NetworkSim :=
  let (k, v) := sides nl
  let v := dequote v
  if k = "simulate".toList then { nw with simulate := isTrue v }
  else if k = "inter_host_latency_ms".toList then { nw with interHostLatencyMs := atof v }
  else if k = "intra_host_latency_ms".toList then { nw with intraHostLatencyMs := atof v }
  else if k = "intra_host_max_rows".toList then { nw with intraHostMaxRows := atoi v }
  else if k = "inter_host_max_rows".toList then { nw with interHostMaxRows := atoi v }
  else if k = "compress_inter_host".toList then { nw with compressInterHost := isTrue v }
  else nw

/-- What a key at column zero does to the overlay, given what stands behind its colon and the
lines below it. -/
def applyKey (atof : Line → ℚ) (key rest : Line) (ls : List Line) (out : Overlay) :
    Except String Overlay :=
  if key = "nodes".toList then
    ((children ls).foldlM nodeLine out.nodes).map fun m => { out with nodes := m }
  else if key = "edges".toList then
    .ok { out with edges := out.edges ++ (children ls).filterMap edgeLine }
  else if key = "routing".toList then
    (routingRows out.routing (ls.takeWhile (child 2))).map fun m => { out with routing := m }
  else if key = "data_owners".toList then
    .ok (if rest = [] then out else { out with dataOwners := parseFlowSeq rest })
  else if key = "chunking".toList then
    .ok { out with chunking := (children ls).foldl chunkingLine out.chunking }
  else if key = "scheduler".toList then
    .ok { out with scheduler := (children ls).foldl schedulerLine out.scheduler }
  else if key = "network".toList then
    .ok { out with network := (children ls).foldl (networkLine atof) out.network }
  else .ok out

/-- The lines from the top: the children of a key are behind it when the loop goes on. (Those of
`data_owners` are skipped for standing in.) -/
def parseLines (atof : Line → ℚ) : List Line → Overlay → Except String Overlay
  | [], out => .ok out
  | line :: ls, out =>
    if blank line || leadingSpaces line != 0 then parseLines atof ls out
    else
      match cutColon line with
      | none => parseLines atof ls out
      | some (k, rest) =>
        match applyKey atof (trim k) (trim rest) ls out with
        | .error e => .error e
        | .ok out =>
          if trim k = "data_owners".toList then parseLines atof ls out
          else parseLines atof (ls.dropWhile (child 2)) out
termination_by ls => ls.length
decreasing_by
  all_goals
    have := List.length_dropWhile_le (child 2) ls
    simp only [List.length_cons]
    omega

/-! ### The file and the environment -/

/-- `std::getline` until the end: no line behind the last newline. -/
def getLines (text : List Char) : List Line :=
  let ls := text.splitOn '\n'
  if ls.getLast? = some [] then ls.dropLast else ls

/-- A line without its comment and the blanks at its end. -/
def clean (s : Line) : Line := rtrim (stripComment s)

variable (getenv : String → Option (List Char))

def applyEnvOverrides (o : Overlay) : Overlay :=
  { o with nodes := o.nodes.map fun p =>
      let spec := match getenv ("MINI2_HOST_" ++ p.1) with
        | some h => { p.2 with host := String.ofList h }
        | none => p.2
      let spec := match getenv ("MINI2_PORT_" ++ p.1) with
        | some v => { spec with port := atoi v }
        | none => spec
      (p.1, spec) }

/-- A positive value of the environment, or else the one there is. -/
def override (name : String) (d : ℤ) : ℤ :=
  match getenv name with
  | some v => if atoi v > 0 then atoi v else d
  | none => d

/-- The tuning knobs that the environment overrides. -/
def overrideChunking (ch : Chunking) : Chunking :=
  { ch with
    initialRows := override getenv "MINI2_INITIAL_ROWS" ch.initialRows
    maxRows := override getenv "MINI2_MAX_ROWS" ch.maxRows
    targetChunkMs := override getenv "MINI2_TARGET_CHUNK_MS" ch.targetChunkMs }

/-- The file that is meant. -/
def resolve (path : String) : String :=
  let p := if path = "" then String.ofList ((getenv "MINI2_OVERLAY").getD []) else path
  if p = "" then "config/overlay.yaml" else p

def loadOverlay (atof : Line → ℚ) (files : String → Option (List Char)) (path : String) :
    Except String Overlay :=
  let p := resolve getenv path
  match files p with
  | none => .error ("cannot open overlay: " ++ p)
  | some text =>
    match parseLines atof ((getLines text).map clean) {} with
    | .error e => .error e
    | .ok out =>
      let out := applyEnvOverrides getenv out
      let out := { out with chunking := overrideChunking getenv out.chunking }
      if out.nodes = [] then .error ("overlay parsed but nodes map is empty: " ++ p) else .ok out

end Mini2.OverlayYaml
