import Mini2.OverlayYaml
import Mini2.Topology

/-!
The text that the generator writes for an edge set and an assignment of hosts, teams and
implementations.
-/

namespace Mini2.EmitYaml

open Mini2.Topology

/-- The keyword arguments of `emit_yaml`; the latencies as they are printed. -/
structure Args where
  hostMap : Node → String
  implMap : Node → String
  teamMap : Node → String
  realHosts : String → Option String
  interHostLatencyMs : String
  intraHostLatencyMs : String
  simulateNetwork : Bool

def port (n : Node) : ℕ := 50051 + n.index

/-- `tuple(sorted((a, b)))` -/
def sortedPair (e : Node × Node) : Node × Node := if e.2 < e.1 then (e.2, e.1) else e

def pairLe (e f : Node × Node) : Prop := e.1 < f.1 ∨ e.1 = f.1 ∧ e.2 ≤ f.2

instance : DecidableRel pairLe := fun _ _ => inferInstanceAs (Decidable (_ ∨ _))

def canonicalEdges (edges : List (Node × Node)) : List (Node × Node) :=
  ((edges.map sortedPair).foldl (fun seen e => if e ∈ seen then seen else seen ++ [e])
    []).insertionSort pairLe

variable (args : Args)

def host (n : Node) : String := (args.realHosts (args.hostMap n)).getD "127.0.0.1"

def role (n : Node) : String := if n = gateway then "gateway" else "peer"

def nodeLine (n : Node) : String :=
  "  " ++ n.name ++ ": \x7b host: " ++ host args n ++ ", port: " ++ toString (port n) ++
    ", team: " ++ args.teamMap n ++ ", role: " ++ role n ++ ", impl: " ++ args.implMap n ++
    ", virtual_host: " ++ args.hostMap n ++ " \x7d"

def edgeLine (e : Node × Node) : String := "  - [" ++ e.1.name ++ ", " ++ e.2.name ++ "]"

/-- The row of a source, as a flow map. -/
def rowLine (src : Node) (row : List (Node × Node)) : String :=
  "  " ++ src.name ++ ": \x7b " ++
    ", ".intercalate (row.map fun p => p.1.name ++ ": " ++ p.2.name) ++ " \x7d"

def lines (name : String) (edges : List (Node × Node)) (rows : List String) : List String :=
  ["# Auto-generated overlay: topology = " ++ name,
    "# Edges (" ++ toString (canonicalEdges edges).length ++ "): " ++
      " ".intercalate ((canonicalEdges edges).map fun e => e.1.name ++ e.2.name),
    "# Generated by py/topology/generator.py — DO NOT hand-edit.", ""] ++
  ("nodes:" :: nodes.map (nodeLine args) ++ [""]) ++
  ("edges:" :: (canonicalEdges edges).map edgeLine ++ [""]) ++
  ("routing:" :: rows ++ [""]) ++
  ["data_owners: [" ++ ", ".intercalate (dataOwners.map Node.name) ++ "]", ""] ++
  ["network:", "  simulate: " ++ (if args.simulateNetwork then "true" else "false"),
    "  inter_host_latency_ms: " ++ args.interHostLatencyMs,
    "  intra_host_latency_ms: " ++ args.intraHostLatencyMs, ""] ++
  ["chunking:", "  initial_rows: 64", "  max_rows: 4096", "  min_rows: 16",
    "  target_chunk_ms: 25", ""] ++
  ["scheduler:", "  mode: weighted_round_robin", "  max_concurrent_requests: 32", ""]

/-- `"\n".join(out)` -/
def join (ls : List String) : String := "\n".intercalate ls

def emitYaml (name : String) (edges : List (Node × Node)) : Except EmitError String := do
  let adj := buildAdj edges
  validateConnectivity adj
  let routing ← nodes.mapM fun src => (emitRow adj src).map (Prod.mk src)
  return join (lines args name edges (routing.map fun p => rowLine p.1 p.2))

end Mini2.EmitYaml
