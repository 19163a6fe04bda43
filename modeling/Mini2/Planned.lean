import Mini2.Answers
import Mini2.Environment
import Mini2.Forwarded
import Mini2.GeneratedRoutes

/-!
What the nodes have read where the overlay is one that the generator has written: whichever
programs they run, they route by one table, along shortest paths, and all of them start.
-/

namespace Mini2.Planned

open Mini2.Json Mini2.Net Mini2.Gather Mini2.Cluster Mini2.Forwarded Mini2.Loaders Mini2.Topology
open Mini2.OverlayYaml Mini2.EmitYaml Mini2.OverlayRoundTrip Mini2.Environment Mini2.Startup
open Mini2.Answers

variable {getenv : String → Option (List Char)} {args : Args} {edges : List (Node × Node)}
  {ov : OverlayYaml.Overlay} {po : Except String PyOverlay.Overlay} {m : ℤ}

/-! ### The tables -/

lemma name_injective : Function.Injective Node.name := by
  intro m n h
  cases m <;> cases n <;> first | rfl | exact absurd h (by decide)

lemma lookup_name {A : Type} (f : Node → A) (n : Node) :
    (nodes.map fun m => (m.name, f m)).lookup n.name = some (f n) := by
  have hmem := mem_nodes n
  generalize nodes = l at hmem
  induction l with
  | nil => cases hmem
  | cons m l ih =>
    rw [List.map_cons, List.lookup_cons]
    by_cases hn : n = m
    · rw [hn, beq_self_eq_true]
    · rw [beq_false_of_ne fun h => hn (name_injective h)]
      exact ih ((List.mem_cons.mp hmem).resolve_left hn)

/-- What the nodes route by. -/
def plannedOverlay (args : Args) (edges : List (Node × Node)) (maxRows : ℤ) :
    Net.Overlay String where
  nodes := nodes.map fun n => (n.name, ⟨roleOf (role n), implOf (args.implMap n)⟩)
  routing := nodes.map fun src =>
    (src.name, nodes.map fun dst => (dst.name, (hopOf edges src dst).name))
  dataOwners := dataOwners.map Node.name
  maxRows := maxRows

lemma hasNode_planned (n : Node) : (plannedOverlay args edges m).hasNode n.name = true := by
  rw [Net.Overlay.hasNode, plannedOverlay, lookup_name]
  rfl

lemma impl_planned (n : Node) :
    (plannedOverlay args edges m).impl n.name = implOf (args.implMap n) := by
  rw [Net.Overlay.impl, plannedOverlay, lookup_name]
  rfl

lemma role_planned : (plannedOverlay args edges m).role gateway.name = .gateway := by
  rw [Net.Overlay.role, plannedOverlay, lookup_name]
  rfl

lemma nextHop_planned (src dst : Node) :
    (plannedOverlay args edges m).nextHop src.name dst.name = .ok (hopOf edges src dst).name := by
  unfold Net.Overlay.nextHop plannedOverlay
  dsimp only
  rw [lookup_name]
  dsimp only
  rw [lookup_name]

lemma routes_planned (hconn : (edgeGraph edges).Connected) (dst : Node) (k : ℕ) (n : Node)
    (hk : (edgeGraph edges).dist n dst = k) :
    Routes (plannedOverlay args edges m) dst.name k n.name := by
  induction k generalizing n with
  | zero => exact congrArg Node.name (hconn.dist_eq_zero_iff.mp hk)
  | succ k ih =>
    have hne : n ≠ dst := by
      rintro rfl
      rw [SimpleGraph.dist_self] at hk
      omega
    obtain ⟨f, hf, hadj, hdist⟩ := (found edges n).hop dst (hconn.preconnected n dst) hne.symm
    obtain rfl : hopOf edges n dst = f :=
      Option.some.inj ((bfsNextHop_eq hconn n dst).symm.trans hf)
    refine ⟨_, toward_hop_iff.mpr ⟨fun heq => hne (name_injective heq), nextHop_planned n dst,
      fun heq => hadj.ne.symm (name_injective heq), hasNode_planned _⟩, ih _ (by omega)⟩

lemma dist_le (hconn : (edgeGraph edges).Connected) (src dst : Node) :
    (edgeGraph edges).dist src dst ≤ 8 := by
  have hvalid := validate_of_connected hconn
  obtain ⟨ov, hov, -⟩ := emitOverlay_ok (fun _ => .cpp) hvalid
  exact (GeneratedRoutes.shortestPaths hconn (closer hvalid hov) src dst).2.2.2

lemma nodup_planned : (plannedOverlay args edges m).dataOwners.Nodup := by
  have hnodup : (Topology.dataOwners.map Node.name).Nodup := by decide
  exact hnodup

lemma gateway_notMem : gateway.name ∉ (plannedOverlay args edges m).dataOwners := by
  have hnot : gateway.name ∉ Topology.dataOwners.map Node.name := by decide
  exact hnot

lemma owners_ne_nil : (plannedOverlay args edges m).dataOwners ≠ [] := by
  have hne : Topology.dataOwners.map Node.name ≠ [] := by decide
  exact hne

lemma near_planned (hconn : (edgeGraph edges).Connected) {o : String}
    (ho : o ∈ (plannedOverlay args edges m).dataOwners) :
    ∃ k ≤ 8, Routes (plannedOverlay args edges m) o k gateway.name := by
  obtain ⟨n, -, rfl⟩ := List.mem_map.mp ho
  exact ⟨_, dist_le hconn gateway n, routes_planned hconn n _ gateway rfl⟩

/-! ### What is read -/

lemma netNodes_made (h : Made args edges ov) :
    (netOverlay ov).nodes = (plannedOverlay args edges m).nodes := by
  have hmap := congrArg (List.map fun t : String × String × String =>
    (t.1, (⟨roleOf t.2.1, implOf t.2.2⟩ : Net.NodeSpec))) h.nodes
  rwa [List.map_map, List.map_map] at hmap

lemma netRouting_made (h : Made args edges ov) :
    (netOverlay ov).routing = (plannedOverlay args edges m).routing := by
  have hne : ∀ n : Node, n.name ≠ "" := by
    intro n
    cases n <;> decide
  unfold netOverlay plannedOverlay
  dsimp only
  rw [h.routing, List.map_map]
  refine List.map_congr_left fun src _ => ?_
  refine congrArg (Prod.mk src.name) (List.filter_eq_self.mpr fun e he => ?_)
  obtain ⟨dst, -, rfl⟩ := List.mem_map.mp he
  exact decide_eq_true (hne _)

lemma netOverlay_made (h : Made args edges ov) :
    netOverlay ov = plannedOverlay args edges ov.chunking.maxRows := by
  calc netOverlay ov = ⟨(netOverlay ov).nodes, (netOverlay ov).routing, ov.dataOwners,
        ov.chunking.maxRows⟩ := rfl
    _ = plannedOverlay args edges ov.chunking.maxRows := by
      rw [netNodes_made (m := 0) h, netRouting_made (m := 0) h, h.dataOwners]
      rfl

/-- All programs have read what the generator has written. -/
structure AllRead (getenv : String → Option (List Char)) (args : Args) (edges : List (Node × Node))
    (ov : OverlayYaml.Overlay) (po : Except String PyOverlay.Overlay) : Prop where
  cpp : Made args edges ov
  python : ∀ n : Node, implOf (args.implMap n) = .python →
    ∃ o, po = .ok o ∧ PyOverlay.IsRead getenv args edges o

lemma nameOf_str (s : String) : nameOf (.str s) = some s := rfl

lemma rowRead_of (h : AllRead getenv args edges ov po) (n : Node) :
    rowRead ov po n.name (implOf (args.implMap n)) =
      some (nodes.map fun dst => (dst.name, (hopOf edges n dst).name)) := by
  cases hi : implOf (args.implMap n) with
  | cpp =>
    unfold rowRead
    dsimp only
    rw [netRouting_made (m := 0) h.cpp, plannedOverlay, lookup_name]
  | python =>
    obtain ⟨o, rfl, ho⟩ := h.python n hi
    unfold rowRead
    simp only [Except.toOption, Option.bind_some]
    rw [ho.routing, lookup_name]
    simp only [Option.map_some, pyRow, List.filterMap_map, Function.comp_def, nameOf_str]
    exact congrArg some (congrFun List.filterMap_eq_map' nodes)

lemma ownersRead_of (h : AllRead getenv args edges ov po) (n : Node) :
    ownersRead ov po (implOf (args.implMap n)) = Topology.dataOwners.map Node.name := by
  cases hi : implOf (args.implMap n) with
  | cpp => exact h.cpp.dataOwners
  | python =>
    obtain ⟨o, rfl, ho⟩ := h.python n hi
    unfold ownersRead
    simp only [Except.toOption, Option.elim_some]
    rw [ho.dataOwners, List.filterMap_map]
    exact congrFun List.filterMap_eq_map' Topology.dataOwners

/-- Whatever programs the nodes run, they route by one table. -/
lemma clusterOverlay_read (h : AllRead getenv args edges ov po) :
    clusterOverlay ov po gateway.name = plannedOverlay args edges (chunkMax po) := by
  have himpl : (netOverlay ov).impl gateway.name = implOf (args.implMap gateway) := by
    rw [netOverlay_made h.cpp, impl_planned]
  have hrouting : ((netOverlay ov).nodes.filterMap fun p =>
      (rowRead ov po p.1 p.2.impl).map (Prod.mk p.1)) =
        (plannedOverlay args edges (chunkMax po)).routing := by
    rw [netNodes_made (m := 0) h.cpp, plannedOverlay, List.filterMap_map]
    simp only [Function.comp_def, rowRead_of h, Option.map_some]
    exact congrFun List.filterMap_eq_map' nodes
  unfold clusterOverlay
  rw [hrouting, himpl, ownersRead_of h, netNodes_made (m := 0) h.cpp]
  rfl

/-! ### The start -/

lemma lookup_snd {A B : Type} (f : A → B) (l : List (String × A)) (name : String) :
    (l.map fun p => (p.1, f p.2)).lookup name = (l.lookup name).map f := by
  induction l with
  | nil => rfl
  | cons p l ih =>
    rw [List.map_cons, List.lookup_cons, List.lookup_cons]
    cases name == p.1 with
    | true => rfl
    | false => exact ih

lemma exists_spec (h : Made args edges ov) (n : Node) :
    ∃ me, ov.nodes.lookup n.name = some me ∧ me.impl = args.implMap n := by
  have hspec : (ov.nodes.map fun p => (p.1, (p.2.role, p.2.impl))).lookup n.name =
      some (role n, args.implMap n) := by
    rw [h.nodes, lookup_name fun n => (role n, args.implMap n)]
  rw [lookup_snd fun spec : OverlayYaml.NodeSpec => (spec.role, spec.impl)] at hspec
  obtain ⟨me, hme, heq⟩ := Option.map_eq_some_iff.mp hspec
  exact ⟨me, hme, (Prod.ext_iff.mp heq).2⟩

lemma owns_read {o : PyOverlay.Overlay} (ho : PyOverlay.IsRead getenv args edges o)
    (name : String) : o.owns name = true ↔ name ∈ Topology.dataOwners.map Node.name := by
  unfold PyOverlay.Overlay.owns
  rw [ho.dataOwners, List.any_map, List.any_eq_true, List.mem_map]
  exact exists_congr fun n => and_congr_right fun _ => decide_eq_true_iff

/-- The owners are those that the generator knows, by what either program has read. -/
lemma isOwner_iff (h : AllRead getenv args edges ov po) (n : Node) :
    IsOwner ov po n.name ↔ n.name ∈ Topology.dataOwners.map Node.name := by
  obtain ⟨me, hme, himpl⟩ := exists_spec h.cpp n
  have howns : Owns ov po n.name (implOf me.impl) ↔
      n.name ∈ Topology.dataOwners.map Node.name := by
    rw [himpl]
    cases hi : implOf (args.implMap n) with
    | cpp => exact h.cpp.dataOwners ▸ Iff.rfl
    | python =>
      obtain ⟨o, rfl, ho⟩ := h.python n hi
      rw [← owns_read ho]
      refine ⟨fun ⟨o', ho', hown⟩ => ?_, fun hown => ⟨o, rfl, hown⟩⟩
      obtain rfl := Except.ok.inj ho'
      exact hown
  refine ⟨fun ⟨me', hme', hown⟩ => ?_, fun hown => ⟨me, hme, howns.mpr hown⟩⟩
  obtain rfl := Option.some.inj (hme'.symm.trans hme)
  exact howns.mp hown

variable {L : Libraries} {ch : String → Choices} {dir : DataDir} {file : Node → CsvFile L.readers}

structure Stored (dir : DataDir) (file : Node → CsvFile L.readers) : Prop where
  csv : ∀ n ∈ Topology.dataOwners, dir.csv n.name = some (file n).text
  plain : ∀ n ∈ Topology.dataOwners, Plain (file n)

/-- **All nodes start.** -/
lemma exists_up (h : AllRead getenv args edges ov po) (hs : Stored dir file) (hm : Sortable L dir)
    (ch : String → Choices) : Nonempty (Up L dir ch ov po) := by
  refine ⟨Up.make L dir fun p hp => ?_⟩
  have hnames : ov.nodes.map Prod.fst = nodes.map Node.name := by
    have hfst := congrArg (List.map Prod.fst) h.cpp.nodes
    rwa [List.map_map, List.map_map] at hfst
  obtain ⟨n, -, hn⟩ := List.mem_map.mp (hnames ▸ List.mem_map_of_mem (f := Prod.fst) hp)
  obtain ⟨me, hme, himpl⟩ := exists_spec h.cpp n
  have hcsv : n.name ∈ Topology.dataOwners.map Node.name →
      ∃ f : CsvFile L.readers, Plain f ∧ dir.csv n.name = some f.text := by
    intro hown
    obtain ⟨n', hn', heq⟩ := List.mem_map.mp hown
    obtain rfl := name_injective heq
    exact ⟨file n', hs.plain n' hn', hs.csv n' hn'⟩
  rw [← hn]
  unfold startNode
  simp only [hme, himpl]
  cases hi : implOf (args.implMap n) with
  | cpp => exact exists_startCpp fun hown => hcsv (h.cpp.dataOwners ▸ hown)
  | python =>
    obtain ⟨o, rfl, ho⟩ := h.python n hi
    obtain ⟨mode, hknobs⟩ := ho.knobs
    refine exists_startPython hm ?_ hknobs fun hown => hcsv ((owns_read ho _).mp hown)
    rw [PyOverlay.Overlay.hasNode, ho.nodes, lookup_name]
    rfl

end Mini2.Planned
