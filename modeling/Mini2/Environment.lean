import Mini2.GeneratedRoutes
import Mini2.OverlayRoundTrip

/-!
The overlay that a C++ node loads in its environment: the variables change the hosts and the ports
of the nodes and the sizes of chunks, and nothing else.
-/

namespace Mini2.Environment

open Mini2.Topology Mini2.OverlayYaml Mini2.EmitYaml Mini2.OverlayRoundTrip

def noEnv : String → Option (List Char) := fun _ => none

lemma noEnv_none (s : String) : noEnv ("MINI2_" ++ s) = none := rfl

variable (getenv : String → Option (List Char))

lemma resolve_ne (path : String) : resolve getenv path ≠ "" := by
  unfold resolve
  dsimp only
  generalize (if path = "" then String.ofList ((getenv "MINI2_OVERLAY").getD []) else path) = p
  by_cases hp : p = ""
  · rw [if_pos hp]
    decide
  · rw [if_neg hp]
    exact hp

/-- The environment chooses the file, and changes hosts, ports and tuning knobs of what is read. -/
lemma loadOverlay_env (atof : Line → ℚ) (files : String → Option (List Char)) (path : String) :
    loadOverlay getenv atof files path =
      (loadOverlay noEnv atof files (resolve getenv path)).map fun out =>
        { applyEnvOverrides getenv out with chunking := overrideChunking getenv out.chunking } := by
  have hsame : resolve noEnv (resolve getenv path) = resolve getenv path := by
    have hne := resolve_ne getenv path
    generalize resolve getenv path = p at hne
    rw [resolve, if_neg hne, if_neg hne]
  unfold loadOverlay
  rw [hsame]
  dsimp only
  cases files (resolve getenv path) with
  | none => rfl
  | some text =>
    dsimp only
    cases parseLines atof ((getLines text).map clean) {} with
    | error e => rfl
    | ok out =>
      dsimp only
      rw [applyEnvOverrides_none noEnv_none, overrideChunking_none noEnv_none]
      have hnil : (applyEnvOverrides getenv out).nodes = [] ↔ out.nodes = [] := List.map_eq_nil_iff
      by_cases hn : out.nodes = []
      · rw [if_pos (hnil.mpr hn), if_pos hn]
        rfl
      · rw [if_neg (fun h => hn (hnil.mp h)), if_neg hn]
        rfl

/-! ### What the generator writes -/

variable {args : Args} {edges : List (Node × Node)} {ov : OverlayYaml.Overlay}

/-- What an overlay has of the generator's, whatever the environment has changed. -/
structure Made (args : Args) (edges : List (Node × Node)) (ov : OverlayYaml.Overlay) : Prop where
  nodes : (ov.nodes.map fun p => (p.1, p.2.role, p.2.impl)) =
    Topology.nodes.map fun n => (n.name, role n, args.implMap n)
  routing : ov.routing = Topology.nodes.map fun src =>
    (src.name, Topology.nodes.map fun dst => (dst.name, (hopOf edges src dst).name))
  dataOwners : ov.dataOwners = Topology.dataOwners.map Node.name
  mode : ov.scheduler.mode = "weighted_round_robin"

lemma connected_of_emitYaml {name text : String} (h : emitYaml args name edges = .ok text) :
    (edgeGraph edges).Connected := by
  refine connected_of_validate ?_
  unfold emitYaml at h
  cases hv : validateConnectivity (buildAdj edges) with
  | ok u => rfl
  | error e => simp [hv, bind, Except.bind] at h

/-- **The generated overlay is read back in any environment**, up to hosts, ports and knobs. -/
lemma loadOverlay_read {name text : String} (hargs : Tokens args) (hname : OneLine name)
    (htext : emitYaml args name edges = .ok text) (atof : Line → ℚ)
    {files : String → Option (List Char)} {path : String}
    (hfile : files (resolve getenv path) = some text.toList) :
    loadOverlay getenv atof files path = .ok
      { applyEnvOverrides getenv (loaded atof args edges) with
        chunking := overrideChunking getenv (loaded atof args edges).chunking } := by
  have hconn := connected_of_emitYaml htext
  rw [emitYaml_eq hconn] at htext
  obtain rfl := Except.ok.inj htext
  have hloads : loads files (resolve getenv path) (join (lines args name edges
      (nodes.flatMap fun src => [rowLine src (rowOf edges src)]))) := by
    rw [loads, fileOf, if_neg (resolve_ne getenv path)]
    exact hfile
  have hread : loadOverlay noEnv atof files (resolve getenv path) = .ok (loaded atof args edges) :=
    loadOverlay_lines hargs hname (fun src => .flow) noEnv_none hloads
  rw [loadOverlay_env, hread]
  rfl

lemma loadOverlay_made {name text : String} (hargs : Tokens args) (hname : OneLine name)
    (htext : emitYaml args name edges = .ok text) (atof : Line → ℚ)
    {files : String → Option (List Char)} {path : String}
    (hfile : files (resolve getenv path) = some text.toList) :
    ∃ ov, loadOverlay getenv atof files path = .ok ov ∧ Made args edges ov := by
  refine ⟨_, loadOverlay_read getenv hargs hname htext atof hfile, ?_, rfl, rfl, rfl⟩
  show ((applyEnvOverrides getenv (loaded atof args edges)).nodes.map _) = _
  unfold applyEnvOverrides
  rw [List.map_map]
  show ((nodes.map fun n => (n.name, specOf args n)).map _) = _
  rw [List.map_map]
  refine List.map_congr_left fun n _ => ?_
  simp only [Function.comp_apply]
  cases getenv ("MINI2_HOST_" ++ n.name) <;> cases getenv ("MINI2_PORT_" ++ n.name) <;> rfl

end Mini2.Environment
