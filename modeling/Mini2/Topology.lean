import Mathlib.Data.Fintype.Basic
import Mathlib.Data.List.Sort
import Mini2.Lib.Bfs
import Mini2.Net

/-!
The topology generator: the adjacency lists of an edge set, its connectivity check, and the
next-hop tables it emits for its nine nodes.
-/

namespace Mini2.Topology

open Mini2.Net

inductive Node | A | B | C | D | E | F | G | H | I
  deriving DecidableEq

namespace Node

def name : Node → String
  | A => "A" | B => "B" | C => "C" | D => "D" | E => "E" | F => "F" | G => "G" | H => "H"
  | I => "I"

instance : ToString Node := ⟨name⟩

def index : Node → ℕ
  | A => 0 | B => 1 | C => 2 | D => 3 | E => 4 | F => 5 | G => 6 | H => 7 | I => 8

lemma index_injective : Function.Injective index := by
  intro m n h
  cases m <;> cases n <;> first | rfl | cases h

/-- The names are compared as strings, which for single letters is the order of the letters. -/
instance : LinearOrder Node := LinearOrder.lift' index index_injective

end Node

def nodes : List Node := [.A, .B, .C, .D, .E, .F, .G, .H, .I]

def gateway : Node := .A

def dataOwners : List Node := [.C, .D, .F, .G, .H, .I]

lemma mem_nodes (n : Node) : n ∈ nodes := by cases n <;> decide

instance : Fintype Node := ⟨nodes.toFinset, fun n => List.mem_toFinset.mpr (mem_nodes n)⟩

abbrev Adj := Node → List Node

def addOnce (adj : Adj) (a b : Node) : Adj :=
  if b ∈ adj a then adj else Function.update adj a (adj a ++ [b])

def buildAdj (edges : List (Node × Node)) : Adj :=
  edges.foldl (fun adj e => addOnce (addOnce adj e.1 e.2) e.2 e.1) fun _ => []

/-- The neighbours in the order in which they are tried. -/
def sortedAdj (adj : Adj) (u : Node) : List Node := (adj u).insertionSort (· ≤ ·)

def bfsNextHop (adj : Adj) (src : Node) : Node → Option Node :=
  (Bfs.search (sortedAdj adj) nodes.length src).nextHop

inductive EmitError
  | notConnected (missing : List Node)
  | keyError (src dst : Node)
  deriving DecidableEq

def EmitError.text : EmitError → String
  | .notConnected missing =>
    "graph is not connected; unreachable: [" ++
      ", ".intercalate (missing.map fun n => "'" ++ n.name ++ "'") ++ "]"
  | .keyError _ dst => "'" ++ dst.name ++ "'"

def visitedFrom (adj : Adj) (n : Node) : Finset Node :=
  (Bfs.loop adj nodes.length ⟨{n}, fun _ => none, [(n, n)]⟩).visited

def validateConnectivity (adj : Adj) : Except EmitError Unit :=
  let missing := nodes.filter (· ∉ visitedFrom adj .A)
  if missing = [] then .ok () else .error (.notConnected missing)

def emitRow (adj : Adj) (src : Node) : Except EmitError (List (Node × Node)) :=
  nodes.mapM fun dst =>
    match bfsNextHop adj src dst with
    | none => .error (.keyError src dst)
    | some hop => .ok (dst, hop)

def emitOverlay (edges : List (Node × Node)) (implMap : Node → Impl) :
    Except EmitError (Overlay Node) := do
  let adj := buildAdj edges
  validateConnectivity adj
  let routing ← nodes.mapM fun src => (emitRow adj src).map (Prod.mk src)
  return {
    nodes := nodes.map fun n => (n, ⟨if n = gateway then .gateway else .peer, implMap n⟩)
    routing := routing
    dataOwners := dataOwners
    maxRows := 4096 }

/-! ### The graph of an edge set -/

/-- The undirected graph of the edges; a self-loop is none. -/
def edgeGraph (edges : List (Node × Node)) : SimpleGraph Node :=
  SimpleGraph.fromRel fun u v => (u, v) ∈ edges

lemma mem_addOnce {adj : Adj} {a b u v : Node} :
    v ∈ addOnce adj a b u ↔ v ∈ adj u ∨ (u = a ∧ v = b) := by
  unfold addOnce
  split
  next h =>
    constructor
    · exact .inl
    · rintro (h' | ⟨rfl, rfl⟩)
      · exact h'
      · exact h
  next h =>
    by_cases hu : u = a
    · subst hu
      simp
    · simp [hu]

lemma mem_buildAdj {edges : List (Node × Node)} {u v : Node} :
    v ∈ buildAdj edges u ↔ (u, v) ∈ edges ∨ (v, u) ∈ edges := by
  suffices h : ∀ adj : Adj,
      v ∈ edges.foldl (fun adj e => addOnce (addOnce adj e.1 e.2) e.2 e.1) adj u ↔
        v ∈ adj u ∨ (u, v) ∈ edges ∨ (v, u) ∈ edges by
    simpa [buildAdj] using h fun _ => []
  induction edges with
  | nil => simp
  | cons e edges ih =>
    intro adj
    rw [List.foldl_cons, ih, mem_addOnce, mem_addOnce]
    simp only [List.mem_cons, Prod.ext_iff]
    tauto

lemma lists_sortedAdj (edges : List (Node × Node)) :
    Bfs.Lists (edgeGraph edges) (sortedAdj (buildAdj edges)) := by
  intro u v hne
  unfold sortedAdj
  rw [List.mem_insertionSort, mem_buildAdj, edgeGraph, SimpleGraph.fromRel_adj]
  simp [hne]

lemma connected_of_validate {edges : List (Node × Node)}
    (h : validateConnectivity (buildAdj edges) = .ok ()) : (edgeGraph edges).Connected := by
  have hreach : ∀ v ∈ visitedFrom (buildAdj edges) .A, (edgeGraph edges).Reachable .A v := by
    refine Bfs.loop_reachable (fun u v hv => ?_) _ _ ?_ ?_
    · by_cases huv : u = v
      · exact .inl huv
      · refine .inr ?_
        rw [edgeGraph, SimpleGraph.fromRel_adj]
        exact ⟨huv, mem_buildAdj.mp hv⟩
    · intro v hv
      rw [Finset.mem_singleton.mp hv]
    · intro p hp
      rw [List.mem_singleton.mp hp]
      exact Finset.mem_singleton_self _
  have hall : ∀ v, v ∈ visitedFrom (buildAdj edges) .A := by
    intro v
    unfold validateConnectivity at h
    simp only at h
    split at h
    next hm =>
      by_contra hv
      have hv' : v ∈ nodes.filter (· ∉ visitedFrom (buildAdj edges) .A) :=
        List.mem_filter.mpr ⟨mem_nodes v, decide_eq_true hv⟩
      rw [hm] at hv'
      cases hv'
    next => cases h
  have : Nonempty Node := ⟨.A⟩
  exact ⟨fun u v => (hreach u (hall u)).symm.trans (hreach v (hall v))⟩

lemma validate_of_connected {edges : List (Node × Node)} (h : (edgeGraph edges).Connected) :
    validateConnectivity (buildAdj edges) = .ok () := by
  have hstart : Bfs.Working (buildAdj edges) ⟨{.A}, fun _ => none, [(.A, .A)]⟩ := by
    refine ⟨by simp, fun u hu hq => ?_⟩
    obtain rfl := Finset.mem_singleton.mp hu
    exact absurd rfl (hq (.A, .A) (by simp))
  have hclosed := hstart.loop (k := nodes.length) (by decide)
  have hall : ∀ v, v ∈ visitedFrom (buildAdj edges) .A := by
    intro v
    refine Bfs.mem_of_reachable (fun u hu w hadj => hclosed u hu w ?_)
      (Bfs.subset_loop _ _ (Finset.mem_singleton_self _)) (h.preconnected .A v)
    rw [edgeGraph, SimpleGraph.fromRel_adj] at hadj
    exact mem_buildAdj.mpr hadj.2
  have hmissing : nodes.filter (· ∉ visitedFrom (buildAdj edges) .A) = [] :=
    List.filter_eq_nil_iff.mpr fun v _ => by simp [hall v]
  unfold validateConnectivity
  rw [hmissing, if_pos rfl]

lemma found (edges : List (Node × Node)) (src : Node) :
    Bfs.Found (edgeGraph edges) src (bfsNextHop (buildAdj edges) src) :=
  Bfs.search_found (lists_sortedAdj edges) (fun v _ => Finset.mem_univ v) (by decide)

/-! ### The emitted tables -/

lemma mapM_ok {α β ε : Type} {f : α → Except ε β} {g : α → β} (l : List α)
    (h : ∀ a ∈ l, f a = .ok (g a)) : l.mapM f = .ok (l.map g) := by
  induction l with
  | nil => rfl
  | cons a l ih =>
    rw [List.mapM_cons, h a List.mem_cons_self,
      ih fun b hb => h b (List.mem_cons_of_mem _ hb)]
    rfl

lemma lookup_map {α β : Type} [DecidableEq α] (f : α → β) {l : List α} {a : α} (h : a ∈ l) :
    (l.map fun x => (x, f x)).lookup a = some (f a) := by
  induction l with
  | nil => cases h
  | cons b l ih =>
    rw [List.map_cons, List.lookup_cons]
    by_cases hab : a = b
    · subst hab
      simp
    · rw [beq_false_of_ne hab]
      exact ih ((List.mem_cons.mp h).resolve_left hab)

/-- The hop the generator finds; where there is none, the destination itself. -/
def hopOf (edges : List (Node × Node)) (src dst : Node) : Node :=
  (bfsNextHop (buildAdj edges) src dst).getD dst

lemma bfsNextHop_eq {edges : List (Node × Node)} (hconn : (edgeGraph edges).Connected)
    (src dst : Node) : bfsNextHop (buildAdj edges) src dst = some (hopOf edges src dst) := by
  unfold hopOf
  by_cases hd : dst = src
  · rw [hd, (found edges src).self]
    rfl
  · obtain ⟨f, hf, -⟩ := (found edges src).hop dst (hconn.preconnected src dst) hd
    rw [hf]
    rfl

lemma emitRow_eq {edges : List (Node × Node)} (hconn : (edgeGraph edges).Connected)
    (src : Node) : emitRow (buildAdj edges) src =
      .ok (nodes.map fun dst => (dst, hopOf edges src dst)) := by
  refine mapM_ok nodes fun dst _ => ?_
  rw [bfsNextHop_eq hconn src dst]

/-- **Every lookup of the generator is defined** on a connected edge set, and the overlay it
emits has the nine nodes and the hops of the search. -/
theorem emitOverlay_ok {edges : List (Node × Node)} (implMap : Node → Impl)
    (h : validateConnectivity (buildAdj edges) = .ok ()) :
    ∃ ov, emitOverlay edges implMap = .ok ov ∧ (∀ n, ov.hasNode n = true) ∧
      ∀ src dst, bfsNextHop (buildAdj edges) src dst = some (hopOf edges src dst) ∧
        ov.nextHop src dst = .ok (hopOf edges src dst) := by
  have hconn := connected_of_validate h
  have hdef := bfsNextHop_eq hconn
  have hrouting : (nodes.mapM fun src => (emitRow (buildAdj edges) src).map (Prod.mk src)) =
      .ok (nodes.map fun src => (src, nodes.map fun dst => (dst, hopOf edges src dst))) := by
    refine mapM_ok nodes fun src _ => ?_
    rw [emitRow_eq hconn src]
    rfl
  refine ⟨_, by simp only [emitOverlay, h, hrouting]; rfl, fun n => ?_, fun src dst =>
    ⟨hdef src dst, ?_⟩⟩
  · unfold Overlay.hasNode
    simp only
    rw [lookup_map (fun n => (⟨if n = gateway then .gateway else .peer, implMap n⟩ : NodeSpec))
      (mem_nodes n)]
    rfl
  · unfold Overlay.nextHop
    simp only
    rw [lookup_map (fun src => nodes.map fun dst => (dst, hopOf edges src dst)) (mem_nodes src)]
    simp only
    rw [lookup_map (hopOf edges src) (mem_nodes dst)]

lemma closer {edges : List (Node × Node)} (h : validateConnectivity (buildAdj edges) = .ok ())
    {implMap : Node → Impl} {ov : Overlay Node} (hov : emitOverlay edges implMap = .ok ov)
    (dst : Node) :
    Bfs.Closer (edgeGraph edges) dst fun u => (ov.nextHop u dst).toOption := by
  intro u hu
  obtain ⟨ov', hov', -, hnext⟩ := emitOverlay_ok implMap h
  obtain rfl : ov' = ov := Except.ok.inj (hov'.symm.trans hov)
  obtain ⟨hdef, hhop⟩ := hnext u dst
  obtain ⟨f, hf, hadj, hdist⟩ :=
    (found edges u).hop dst ((connected_of_validate h).preconnected u dst) (Ne.symm hu)
  obtain rfl : hopOf edges u dst = f := Option.some.inj (hdef.symm.trans hf)
  exact ⟨_, congrArg Except.toOption hhop, hadj, hdist⟩

end Mini2.Topology
