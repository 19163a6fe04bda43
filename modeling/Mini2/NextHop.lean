import Mathlib.Data.String.Basic
import Mini2.Topology

/-!
The breadth-first search of the generator, on any adjacency map. A map that lacks a node it
names raises an error; a symmetric one has every node it names.
-/

namespace Mini2.NextHop

open Mini2.Bfs

section Search

variable {α : Type} [LinearOrder α]

/-- A dictionary from nodes to their neighbours. -/
abbrev Adj (α : Type) := List (α × List α)

/-- `adj[u]` -/
def get (adj : Adj α) (u : α) : Option (List α) := adj.lookup u

/-- `sorted(adj[u])` -/
def sortedOf (adj : Adj α) (u : α) : Option (List α) :=
  (get adj u).map fun nbrs => nbrs.insertionSort (· ≤ ·)

/-- The queue is worked off, if `k` rounds are enough for it. -/
def bfsLoop (adj : Adj α) : ℕ → State α → Option (State α)
  | 0, st => if st.queue.isEmpty then some st else none
  | k + 1, st =>
    match st.queue with
    | [] => some st
    | (u, first) :: q => (sortedOf adj u).bind fun nbrs =>
        bfsLoop adj k (expand (fun _ => first) nbrs { st with queue := q })

/-- The table of next hops. No node is queued twice, so that there are no more rounds than
keys. -/
def bfsNextHop (adj : Adj α) (src : α) : Option (α → Option α) :=
  (sortedOf adj src).bind fun nbrs =>
    (bfsLoop adj adj.length (expand id nbrs (init src))).map State.nextHop

def neighbours (adj : Adj α) (u : α) : List α := (get adj u).getD []

/-- The neighbours of a node have the node for a neighbour. -/
def Symmetric (adj : Adj α) : Prop :=
  ∀ u nbrs, get adj u = some nbrs → ∀ v ∈ nbrs, ∃ nbrs', get adj v = some nbrs' ∧ u ∈ nbrs'

/-- The graph of a map. A node that is its own neighbour makes no difference to distances. -/
def graph (adj : Adj α) : SimpleGraph α := SimpleGraph.fromRel fun u v => v ∈ neighbours adj u

/-! ### The search on a symmetric map -/

variable {adj : Adj α} {src u v : α}

lemma neighbours_of_get {nbrs : List α} (h : get adj u = some nbrs) :
    neighbours adj u = nbrs := by
  rw [neighbours, h]
  rfl

lemma get_of_mem (h : v ∈ neighbours adj u) : ∃ nbrs, get adj u = some nbrs ∧ v ∈ nbrs := by
  unfold neighbours at h
  cases hu : get adj u with
  | none => simp [hu] at h
  | some nbrs =>
    rw [hu] at h
    exact ⟨nbrs, rfl, h⟩

lemma Symmetric.mem (hs : Symmetric adj) (h : v ∈ neighbours adj u) : u ∈ neighbours adj v := by
  obtain ⟨nbrs, hu, hv⟩ := get_of_mem h
  obtain ⟨nbrs', hv', hmem⟩ := hs u nbrs hu v hv
  rwa [neighbours_of_get hv']

def sortedNeighbours (adj : Adj α) (u : α) : List α := (neighbours adj u).insertionSort (· ≤ ·)

lemma lists_sortedNeighbours (hs : Symmetric adj) : Lists (graph adj) (sortedNeighbours adj) := by
  intro u v hne
  unfold sortedNeighbours
  rw [List.mem_insertionSort, graph, SimpleGraph.fromRel_adj]
  constructor
  · exact fun h => ⟨hne, .inl h⟩
  · rintro ⟨-, h | h⟩
    · exact h
    · exact hs.mem h

lemma sorted_sortedNeighbours (adj : Adj α) (u : α) :
    (sortedNeighbours adj u).Pairwise (· ≤ ·) := List.pairwise_insertionSort _ _

lemma sortedOf_eq {nbrs : List α} (h : get adj u = some nbrs) :
    sortedOf adj u = some (sortedNeighbours adj u) := by
  rw [sortedOf, h, sortedNeighbours, neighbours_of_get h]
  rfl

lemma bfsLoop_eq (hs : Symmetric adj) (k : ℕ) (st : State α)
    (hkeys : ∀ p ∈ st.queue, ∃ nbrs, get adj p.1 = some nbrs)
    (hend : (loop (sortedNeighbours adj) k st).queue = []) :
    bfsLoop adj k st = some (loop (sortedNeighbours adj) k st) := by
  induction k generalizing st with
  | zero =>
    have hnil : st.queue = [] := hend
    simp [bfsLoop, loop, hnil]
  | succ k ih =>
    unfold bfsLoop
    unfold loop at hend ⊢
    cases hq : st.queue with
    | nil => rfl
    | cons p q =>
      obtain ⟨u, first⟩ := p
      simp only [hq] at hend ⊢
      obtain ⟨nbrs, hu⟩ := hkeys (u, first) (by rw [hq]; exact List.mem_cons_self)
      rw [sortedOf_eq hu, Option.bind_some]
      refine ih _ (fun p hp => ?_) hend
      rcases mem_queue_expand hp with hp | hp
      · exact hkeys p (by rw [hq]; exact List.mem_cons_of_mem _ hp)
      · rw [sortedNeighbours, List.mem_insertionSort, neighbours_of_get hu] at hp
        obtain ⟨nbrs', hv, -⟩ := hs u nbrs hu p.1 hp
        exact ⟨nbrs', hv⟩

lemma mem_of_get {nbrs : List α} (h : get adj u = some nbrs) : (u, nbrs) ∈ adj := by
  obtain ⟨l, l', rfl, -⟩ := List.lookup_eq_some_iff.mp h
  simp

lemma mem_keys_of_get {nbrs : List α} (h : get adj u = some nbrs) : u ∈ adj.map Prod.fst :=
  List.mem_map_of_mem (mem_of_get h)

lemma get_of_mem_keys (h : u ∈ adj.map Prod.fst) : ∃ nbrs, get adj u = some nbrs := by
  obtain ⟨p, hp, rfl⟩ := List.mem_map.mp h
  exact Option.isSome_iff_exists.mp (List.lookup_isSome_iff.mpr ⟨p, hp, beq_self_eq_true p.1⟩)

lemma mem_keys_of_reachable (hs : Symmetric adj) {nbrs : List α} (hsrc : get adj src = some nbrs)
    (h : (graph adj).Reachable src v) : v ∈ (adj.map Prod.fst).toFinset := by
  obtain ⟨p⟩ := h
  rw [List.mem_toFinset]
  induction p generalizing nbrs with
  | nil => exact mem_keys_of_get hsrc
  | @cons u w v huw p ih =>
    have hw : w ∈ neighbours adj u := by
      rcases ((SimpleGraph.fromRel_adj _ _ _).mp huw).2 with h | h
      · exact h
      · exact hs.mem h
    rw [neighbours_of_get hsrc] at hw
    obtain ⟨nbrs', hw', -⟩ := hs u nbrs hsrc w hw
    exact ih hw'

lemma bfsNextHop_eq (hs : Symmetric adj) {nbrs : List α} (hsrc : get adj src = some nbrs) :
    bfsNextHop adj src = some (search (sortedNeighbours adj) adj.length src).nextHop := by
  have hcard : (adj.map Prod.fst).toFinset.card ≤ adj.length :=
    (List.toFinset_card_le _).trans (List.length_map _).le
  have hend := (search_least (lists_sortedNeighbours hs) (sorted_sortedNeighbours adj src)
    (fun v hv => mem_keys_of_reachable hs hsrc hv) hcard).1
  unfold bfsNextHop
  rw [sortedOf_eq hsrc, Option.bind_some, bfsLoop_eq hs _ _ (fun p hp => ?_) hend]
  · rfl
  · rcases mem_queue_expand hp with hp | hp
    · simp [init] at hp
    · rw [sortedNeighbours, List.mem_insertionSort, neighbours_of_get hsrc] at hp
      obtain ⟨nbrs', hv, -⟩ := hs src nbrs hsrc p.1 hp
      exact ⟨nbrs', hv⟩

/-- The neighbours of `src` that are closer to `dst`. -/
def FirstHops (adj : Adj α) (src dst : α) : Set α :=
  {n | n ∈ neighbours adj src ∧ (graph adj).dist n dst + 1 = (graph adj).dist src dst}

lemma bfsNextHop_spec (hs : Symmetric adj) {nbrs : List α} (hsrc : get adj src = some nbrs) :
    ∃ hop, bfsNextHop adj src = some hop ∧ hop src = some src ∧
      (∀ dst, (hop dst).isSome ↔ (graph adj).Reachable src dst) ∧
      ∀ dst, (graph adj).Reachable src dst → dst ≠ src →
        ∃ n, hop dst = some n ∧ IsLeast (FirstHops adj src dst) n := by
  have hG := lists_sortedNeighbours hs
  have hU : ∀ v, (graph adj).Reachable src v → v ∈ (adj.map Prod.fst).toFinset :=
    fun v hv => mem_keys_of_reachable hs hsrc hv
  have hcard : (adj.map Prod.fst).toFinset.card ≤ adj.length :=
    (List.toFinset_card_le _).trans (List.length_map _).le
  have hfound := search_found hG hU hcard
  have hleast := (search_least hG (sorted_sortedNeighbours adj src) hU hcard).2
  have hadj : ∀ n, (graph adj).Adj src n → n ∈ neighbours adj src := fun n hn => by
    have := (hG src n hn.ne).mpr hn
    rwa [sortedNeighbours, List.mem_insertionSort] at this
  refine ⟨_, bfsNextHop_eq hs hsrc, hfound.self, fun dst => ⟨fun h => ?_, fun h => ?_⟩,
    fun dst hr hne => ?_⟩
  · by_contra hr
    rw [hfound.unreached dst hr] at h
    cases h
  · rcases eq_or_ne dst src with rfl | hne
    · rw [hfound.self]
      rfl
    · obtain ⟨n, hn, -⟩ := hfound.hop dst h hne
      rw [hn]
      rfl
  · obtain ⟨n, hn, hsn, hd⟩ := hfound.hop dst hr hne
    refine ⟨n, hn, ⟨hadj n hsn, hd.symm⟩, fun m ⟨hm, hmd⟩ => ?_⟩
    have hms : src ≠ m := by
      rintro rfl
      omega
    have hsm : (graph adj).Adj src m := (SimpleGraph.fromRel_adj _ _ _).mpr ⟨hms, .inl hm⟩
    exact hleast dst hr hne n hn m hsm hmd.symm

end Search

section Nodes

open Mini2.Topology

variable (edges : List (Topology.Node × Topology.Node))

/-- `build_adj` as a dictionary. -/
def nodeAdj : Adj Topology.Node := nodes.map fun n => (n, buildAdj edges n)

lemma get_nodeAdj (u : Topology.Node) : get (nodeAdj edges) u = some (buildAdj edges u) := by
  have hkey : u ∈ (nodeAdj edges).map Prod.fst := by
    rw [nodeAdj, List.map_map]
    exact List.mem_map.mpr ⟨u, mem_nodes u, rfl⟩
  obtain ⟨nbrs, hnbrs⟩ := get_of_mem_keys hkey
  obtain ⟨n, -, heq⟩ := List.mem_map.mp (mem_of_get hnbrs)
  obtain ⟨rfl, rfl⟩ := Prod.mk.inj heq
  exact hnbrs

lemma symmetric_nodeAdj : Symmetric (nodeAdj edges) := by
  intro u nbrs hu v hv
  rw [get_nodeAdj] at hu
  obtain rfl := Option.some.inj hu
  exact ⟨_, get_nodeAdj edges v, mem_buildAdj.mpr (mem_buildAdj.mp hv).symm⟩

lemma bfsNextHop_nodes (src : Topology.Node) :
    bfsNextHop (nodeAdj edges) src = some (Topology.bfsNextHop (buildAdj edges) src) := by
  have hnbrs : sortedNeighbours (nodeAdj edges) = sortedAdj (buildAdj edges) := by
    funext u
    rw [sortedNeighbours, neighbours_of_get (get_nodeAdj edges u), sortedAdj]
  have hlen : (nodeAdj edges).length = nodes.length := List.length_map _
  rw [bfsNextHop_eq (symmetric_nodeAdj edges) (get_nodeAdj edges src), hnbrs, hlen]
  unfold Topology.bfsNextHop
  convert rfl

end Nodes

/-- **The tables pick the least shortest-path neighbour**: they have an entry for each node that
can be reached, and it is the first in the order of the names of those that lead there. -/
theorem nextHop_least (adj : Adj String) (hs : Symmetric adj) (src : String)
    (hsrc : src ∈ adj.map Prod.fst) :
    ∃ hop, bfsNextHop adj src = some hop ∧ hop src = some src ∧
      (∀ dst, (hop dst).isSome ↔ (graph adj).Reachable src dst) ∧
      ∀ dst, (graph adj).Reachable src dst → dst ≠ src →
        ∃ n, hop dst = some n ∧ IsLeast (FirstHops adj src dst) n := by
  obtain ⟨nbrs, hnbrs⟩ := get_of_mem_keys hsrc
  exact bfsNextHop_spec hs hnbrs

/-- Two ways around a square, the neighbours listed backwards. -/
def square : Adj String :=
  [("A", ["C", "B"]), ("B", ["D", "A"]), ("C", ["A", "D"]), ("D", ["C", "B"])]

theorem nextHop_least_square : ∃ hop, bfsNextHop square "A" = some hop ∧ hop "A" = some "A" ∧
    (∀ dst, (hop dst).isSome ↔ (graph square).Reachable "A" dst) ∧
    ∀ dst, (graph square).Reachable "A" dst → dst ≠ "A" →
      ∃ n, hop dst = some n ∧ IsLeast (FirstHops square "A" dst) n := by
  have hs : Symmetric square := by
    intro u nbrs hu v hv
    have hmem := mem_of_get hu
    simp only [square, List.mem_cons, List.not_mem_nil, or_false, Prod.mk.injEq] at hmem
    rcases hmem with ⟨rfl, rfl⟩ | ⟨rfl, rfl⟩ | ⟨rfl, rfl⟩ | ⟨rfl, rfl⟩
    all_goals
      simp only [List.mem_cons, List.not_mem_nil, or_false] at hv
      rcases hv with rfl | rfl <;> exact ⟨_, rfl, by simp⟩
  exact nextHop_least square hs "A" (by decide)

example : (bfsNextHop square "A").map (fun hop => hop "D") = some (some "B") := by decide

end Mini2.NextHop
