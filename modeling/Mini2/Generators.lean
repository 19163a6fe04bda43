import Mini2.Planned
import Mini2.Lib.Degrees

/-!
The edge sets of the generator: the fixed ones, the random regular graphs, and the ring with
random chords. What it draws comes from outside: a shuffle for each seed, and a stream of samples.
-/

namespace Mini2.Generators

open Mini2.Net Mini2.Topology Mini2.EmitYaml Mini2.OverlayYaml Mini2.OverlayRoundTrip
open Mini2.Degrees Mini2.Startup Mini2.Environment Mini2.Planned

/-! ### The edge sets -/

def edgesStar : List (Node × Node) := (nodes.filter (· ≠ gateway)).map fun n => (gateway, n)

/-- The edges that the project began with. -/
def edgesTree : List (Node × Node) :=
  [(.A, .B), (.B, .C), (.B, .D), (.B, .E), (.E, .F), (.E, .D), (.E, .G), (.A, .H), (.A, .G),
    (.A, .I)]

def edgesBinaryTree : List (Node × Node) :=
  [(.A, .B), (.A, .C), (.B, .D), (.B, .E), (.C, .F), (.C, .G), (.D, .H), (.D, .I)]

def edgesChain : List (Node × Node) := nodes.zip nodes.tail

def edgesRing : List (Node × Node) := edgesChain ++ [(.I, .A)]

def cell (r c : ℕ) : Node := nodes.getD (3 * r + c) .A

def edgesGrid : List (Node × Node) :=
  (List.range 3).flatMap fun r => (List.range 3).flatMap fun c =>
    (if c + 1 < 3 then [(cell r c, cell r (c + 1))] else []) ++
      if r + 1 < 3 then [(cell r c, cell (r + 1) c)] else []

inductive GenError
  | value (k : ℤ)
  | index
  | runtime
  | emit (e : EmitError)

def GenError.text : GenError → String
  | .value k =>
    "k * |V| must be even for a k-regular graph (got k=" ++ toString k ++ ", |V|=" ++
      toString nodes.length ++ "); pick an even k for an odd-sized vertex set"
  | .index => "list index out of range"
  | .runtime => "could not generate random k-regular graph after 200 tries"
  | .emit e => e.text

/-- `[tuple(sorted(e)) for e in sorted(edges)]` -/
def listed (edges : List (Node × Node)) : List (Node × Node) :=
  (edges.insertionSort pairLe).map sortedPair

def stubs (k : ℤ) : List Node := nodes.flatMap fun n => List.replicate k.toNat n

/-- The stubs that stand next to each other become edges; none, if one of them is bad. -/
def pairing : List Node → List (Node × Node) → Except GenError (Option (List (Node × Node)))
  | a :: b :: rest, edges =>
    if a = b then .ok none
    else if edges.contains (sortedPair (a, b)) then .ok none
    else pairing rest (edges ++ [sortedPair (a, b)])
  | [_], _ => .error .index
  | [], edges => .ok (some edges)

variable (shuffle : ℤ → List Node → List Node) (k seed : ℤ)

def attempts : List ℕ → Except GenError (List (Node × Node))
  | [] => .error .runtime
  | attempt :: rest =>
    match pairing (shuffle (seed + attempt) (stubs k)) [] with
    | .error e => .error e
    | .ok (some edges) => .ok (listed edges)
    | .ok none => attempts rest

def edgesRandomK : Except GenError (List (Node × Node)) :=
  if k * nodes.length % 2 ≠ 0 then .error (.value k)
  else attempts shuffle k seed (List.range 200)

/-- The loop; it draws the `i`-th sample next, and takes `fuel` rounds at most. -/
def addChords (sample : ℕ → Node × Node) (target : ℤ) :
    ℕ → ℕ → List (Node × Node) → Option (List (Node × Node))
  | 0, _, _ => none
  | fuel + 1, i, existing =>
    if existing.length < target then
      if existing.contains (sortedPair (sample i)) then
        addChords sample target fuel (i + 1) existing
      else addChords sample target fuel (i + 1) (existing ++ [sortedPair (sample i)])
    else some existing

def edgesMesh (sample : ℕ → Node × Node) (target : ℤ) (fuel : ℕ) : Option (List (Node × Node)) :=
  (addChords sample target fuel 0 (edgesRing.map sortedPair)).map listed

/-! ### Lists of edges -/

instance : Std.Total pairLe where
  total e f := by
    unfold pairLe
    rcases lt_trichotomy e.1 f.1 with h | h | h
    · exact .inl (.inl h)
    · rcases le_total e.2 f.2 with h' | h'
      · exact .inl (.inr ⟨h, h'⟩)
      · exact .inr (.inr ⟨h.symm, h'⟩)
    · exact .inr (.inl h)

instance : IsTrans (Node × Node) pairLe where
  trans e f g := by
    rintro (h | ⟨h, h'⟩) (h2 | ⟨h2, h2'⟩)
    · exact .inl (h.trans h2)
    · exact .inl (h2 ▸ h)
    · exact .inl (h ▸ h2)
    · exact .inr ⟨h.trans h2, h'.trans h2'⟩

instance {edges : List (Node × Node)} : DecidableRel (edgeGraph edges).Adj :=
  inferInstanceAs (DecidableRel (graph edges).Adj)

/-- As the generator lists edges: sorted, and each end sorted. -/
structure Canonical (edges : List (Node × Node)) : Prop where
  sorted : edges.Pairwise pairLe
  nodup : edges.Nodup
  lt : ∀ e ∈ edges, e.1 < e.2

variable {edges es : List (Node × Node)}

lemma Canonical.simple (h : Canonical edges) : Simple edges :=
  ⟨h.nodup, fun e he hs => absurd (h.lt e he) (h.lt _ hs).asymm⟩

lemma Canonical.degree_eq (h : Canonical edges) (n : Node) :
    (edgeGraph edges).degree n = (ends edges).count n :=
  @Simple.degree_eq Node edges _ _ h.simple (inferInstanceAs (DecidableRel (edgeGraph edges).Adj)) n

lemma sortedPair_of_lt {e : Node × Node} (h : e.1 < e.2) : sortedPair e = e :=
  if_neg h.asymm

lemma sortedPair_lt {e : Node × Node} (h : e.1 ≠ e.2) : (sortedPair e).1 < (sortedPair e).2 := by
  unfold sortedPair
  split
  next hlt => exact hlt
  next hlt => exact lt_of_le_of_ne (not_lt.mp hlt) h

lemma perm_listed (h : ∀ e ∈ edges, e.1 < e.2) : (listed edges).Perm edges := by
  have hperm := List.perm_insertionSort pairLe edges
  unfold listed
  rwa [List.map_congr_left fun e he => sortedPair_of_lt (h e (hperm.subset he)), List.map_id']

lemma canonical_listed (hnodup : edges.Nodup) (h : ∀ e ∈ edges, e.1 < e.2) :
    Canonical (listed edges) := by
  have hperm := perm_listed h
  refine ⟨?_, hperm.nodup_iff.mpr hnodup, fun e he => h e (hperm.subset he)⟩
  unfold listed
  rw [List.map_congr_left fun e he => sortedPair_of_lt (h e ((List.mem_insertionSort _).mp he)),
    List.map_id']
  exact List.pairwise_insertionSort pairLe edges

lemma Canonical.listed_eq (h : Canonical edges) : listed edges = edges := by
  unfold listed
  rw [h.sorted.insertionSort_eq, List.map_congr_left fun e he => sortedPair_of_lt (h.lt e he),
    List.map_id']

/-! ### Random regular graphs -/

def pairs : List Node → List (Node × Node)
  | a :: b :: rest => sortedPair (a, b) :: pairs rest
  | _ => []

lemma even_rest {a b : Node} {l : List Node} (h : Even (a :: b :: l).length) : Even l.length := by
  rw [List.length_cons, List.length_cons, Nat.even_iff] at h
  rw [Nat.even_iff]
  omega

lemma pairing_eq (hedges : edges.Nodup) {l : List Node} (hl : Even l.length) :
    pairing l edges = .ok (if (edges ++ pairs l).Nodup ∧ ∀ e ∈ pairs l, e.1 < e.2 then
      some (edges ++ pairs l) else none) := by
  fun_induction pairing l edges with
  | case1 a rest edges =>
    have hbad : ¬ ((sortedPair (a, a)).1 < (sortedPair (a, a)).2) := by simp [sortedPair]
    rw [if_neg fun h => hbad (h.2 _ List.mem_cons_self)]
  | case2 a b rest edges hab hmem =>
    rw [if_neg fun h => ?_]
    exact List.disjoint_of_nodup_append h.1 (List.contains_iff_mem.mp hmem) List.mem_cons_self
  | case3 a b rest edges hab hmem ih =>
    have hl' := even_rest hl
    have hlt : (sortedPair (a, b)).1 < (sortedPair (a, b)).2 := sortedPair_lt hab
    rw [ih (hedges.append (List.nodup_singleton _) (by simpa using hmem)) hl']
    simp only [pairs, List.append_assoc, List.singleton_append, List.mem_cons, forall_eq_or_imp,
      hlt, true_and]
  | case4 => exact absurd hl (by simp)
  | case5 edges =>
    have hnil : pairs [] = [] := rfl
    rw [hnil, List.append_nil, if_pos ⟨hedges, by simp⟩]

lemma ends_pairs {l : List Node} (hl : Even l.length) : (ends (pairs l)).Perm l := by
  fun_induction pairs l with
  | case1 a b rest ih =>
    have hl' := even_rest hl
    have hpair : [(sortedPair (a, b)).1, (sortedPair (a, b)).2].Perm [a, b] := by
      unfold sortedPair
      split
      · exact .swap a b []
      · exact .refl _
    exact hpair.append (ih hl')
  | case2 l h =>
    match l, h, hl with
    | [], _, _ => exact .refl _
    | [a], _, hl => exact absurd hl (by simp)
    | a :: b :: rest, h, _ => exact absurd rfl (h a b rest)

lemma pairs_ends (h : ∀ e ∈ edges, e.1 < e.2) : pairs (ends edges) = edges := by
  induction edges with
  | nil => rfl
  | cons e edges ih =>
    have hrest := ih fun e he => h e (List.mem_cons_of_mem _ he)
    show sortedPair (e.1, e.2) :: pairs (ends edges) = _
    rw [hrest, sortedPair_of_lt (h e List.mem_cons_self)]

lemma length_stubs (k : ℤ) : (stubs k).length = 9 * k.toNat := by
  simp [stubs, nodes]
  omega

lemma count_stubs (k : ℤ) (n : Node) : (stubs k).count n = k.toNat := by
  cases n <;> simp [stubs, nodes, List.count_replicate]

variable {shuffle : ℤ → List Node → List Node} {k seed : ℤ}

lemma even_stubs (hk : k * nodes.length % 2 = 0) {l : List Node} (h : l.Perm (stubs k)) :
    Even l.length := by
  have h9 : (nodes.length : ℤ) = 9 := rfl
  rw [h9] at hk
  rw [h.length_eq, length_stubs, Nat.even_iff]
  omega

lemma pairing_canonical (hk : k * nodes.length % 2 = 0) {l : List Node} (h : l.Perm (stubs k))
    (hl : pairing l [] = .ok (some edges)) :
    Canonical (listed edges) ∧ ∀ n, (edgeGraph (listed edges)).degree n = k.toNat := by
  have heven := even_stubs hk h
  rw [pairing_eq List.nodup_nil heven] at hl
  have hl := Except.ok.inj hl
  split at hl
  next hgood =>
    obtain rfl := Option.some.inj hl
    rw [List.nil_append] at hgood
    have hcan := canonical_listed hgood.1 hgood.2
    refine ⟨hcan, fun n => ?_⟩
    have hends : (ends (listed (pairs l))).Perm (stubs k) :=
      ((perm_listed hgood.2).flatMap_right _).trans ((ends_pairs heven).trans h)
    exact (hcan.degree_eq n).trans ((hends.count_eq n).trans (count_stubs k n))
  next => cases hl

/-- A shuffle that permutes. -/
def Shuffles (shuffle : ℤ → List Node → List Node) : Prop := ∀ s l, (shuffle s l).Perm l

lemma attempts_ok (hshuffle : Shuffles shuffle) (hk : k * nodes.length % 2 = 0) {l : List ℕ}
    (h : attempts shuffle k seed l = .ok es) :
    Canonical es ∧ ∀ n, (edgeGraph es).degree n = k.toNat := by
  induction l with
  | nil => cases h
  | cons attempt rest ih =>
    unfold attempts at h
    split at h
    · cases h
    next edges hp =>
      obtain rfl := Except.ok.inj h
      exact pairing_canonical hk (hshuffle _ _) hp
    · exact ih h

lemma edgesRandomK_ok (hshuffle : Shuffles shuffle) (h : edgesRandomK shuffle k seed = .ok es) :
    k * nodes.length % 2 = 0 ∧ Canonical es ∧ ∀ n, (edgeGraph es).degree n = k.toNat := by
  unfold edgesRandomK at h
  split at h
  · cases h
  next hk => exact ⟨not_not.mp hk, attempts_ok hshuffle (not_not.mp hk) h⟩

/-- The shuffle that puts the stubs in the order of some edges. -/
def toEdges (k : ℤ) (es : List (Node × Node)) : ℤ → List Node → List Node :=
  fun _ l => if l = stubs k then ends es else l

lemma ends_perm_stubs (hcan : Canonical es) (hdeg : ∀ n, (edgeGraph es).degree n = k.toNat) :
    (ends es).Perm (stubs k) := by
  refine List.perm_iff_count.mpr fun n => ?_
  rw [count_stubs, ← hdeg n]
  exact (hcan.degree_eq n).symm

lemma shuffles_toEdges (hcan : Canonical es) (hdeg : ∀ n, (edgeGraph es).degree n = k.toNat) :
    Shuffles (toEdges k es) := by
  intro s l
  unfold toEdges
  split
  next hl => exact hl ▸ ends_perm_stubs hcan hdeg
  next => exact .refl _

lemma edgesRandomK_toEdges (hk : k * nodes.length % 2 = 0) (hcan : Canonical es)
    (hdeg : ∀ n, (edgeGraph es).degree n = k.toNat) (seed : ℤ) :
    edgesRandomK (toEdges k es) k seed = .ok es := by
  have hpairing : pairing (ends es) [] = .ok (some es) := by
    rw [pairing_eq List.nodup_nil (even_stubs hk (ends_perm_stubs hcan hdeg)), pairs_ends hcan.lt,
      List.nil_append, if_pos ⟨hcan.nodup, hcan.lt⟩]
  have h200 : List.range 200 = 0 :: (List.range 199).map (· + 1) := List.range_succ_eq_map
  unfold edgesRandomK
  rw [if_neg (not_not.mpr hk), h200, attempts, toEdges, if_pos rfl, hpairing]
  dsimp only
  rw [hcan.listed_eq]

/-- **The random graphs are the regular ones**: a list of edges can come out for some shuffle if
and only if it is the canonical list of a `k`-regular graph, the number of stubs being even. -/
theorem edgesRandomK_iff (k seed : ℤ) (es : List (Node × Node)) :
    (∃ shuffle, Shuffles shuffle ∧ edgesRandomK shuffle k seed = .ok es) ↔
      k * nodes.length % 2 = 0 ∧ Canonical es ∧ ∀ n, (edgeGraph es).degree n = k.toNat := by
  constructor
  · rintro ⟨shuffle, hshuffle, h⟩
    exact edgesRandomK_ok hshuffle h
  · rintro ⟨hk, hcan, hdeg⟩
    exact ⟨_, shuffles_toEdges hcan hdeg, edgesRandomK_toEdges hk hcan hdeg seed⟩

lemma card_node : Fintype.card Node = 9 := rfl

lemma regular_dense (hk : 4 ≤ k) (hdeg : ∀ n, (edgeGraph es).degree n = k.toNat) (u v : Node) :
    Fintype.card Node ≤ (edgeGraph es).degree u + (edgeGraph es).degree v + 1 := by
  rw [hdeg, hdeg, card_node]
  omega

lemma regular_connected (hk : 4 ≤ k) (hdeg : ∀ n, (edgeGraph es).degree n = k.toNat) :
    (edgeGraph es).Connected := by
  have : Nonempty Node := ⟨gateway⟩
  exact dense_connected (regular_dense hk hdeg)

/-- **Four neighbours are enough**: a random graph of degree four and more is accepted, and over
what is read back from its text any node reaches any other by two hops at most. -/
theorem edgesRandomK_close (hshuffle : Shuffles shuffle) (hk : 4 ≤ k)
    (h : edgesRandomK shuffle k seed = .ok es) {args : Args} (hargs : Tokens args) {name : String}
    (hname : OneLine name) : k ≤ 8 ∧ ∃ text, emitYaml args name es = .ok text ∧
      ∀ getenv atof files path, files (resolve getenv path) = some text.toList →
        ∃ ov, loadOverlay getenv atof files path = .ok ov ∧
          ∀ src dst : Node, ∃ j ≤ 2, Routes (netOverlay ov) dst.name j src.name := by
  obtain ⟨-, -, hdeg⟩ := edgesRandomK_ok hshuffle h
  have hconn := regular_connected hk hdeg
  have hlt := (edgeGraph es).degree_lt_card_verts gateway
  rw [hdeg, card_node] at hlt
  refine ⟨by omega, _, emitYaml_eq hconn name, fun getenv atof files path hfile => ?_⟩
  obtain ⟨ov, hov, hmade⟩ := loadOverlay_made getenv hargs hname (emitYaml_eq hconn name) atof hfile
  refine ⟨ov, hov, fun src dst => ⟨_, dense_dist (regular_dense hk hdeg) src dst, ?_⟩⟩
  rw [netOverlay_made hmade]
  exact routes_planned hconn dst _ src rfl

/-- Everyone next to those one and two places further, around the ring. -/
def twoAround : List (Node × Node) :=
  [(.A, .B), (.A, .C), (.A, .H), (.A, .I), (.B, .C), (.B, .D), (.B, .I), (.C, .D), (.C, .E),
    (.D, .E), (.D, .F), (.E, .F), (.E, .G), (.F, .G), (.F, .H), (.G, .H), (.G, .I), (.H, .I)]

lemma canonical_twoAround : Canonical twoAround := ⟨by decide, by decide, by decide⟩

theorem edgesRandomK_close_four : ∃ text, emitYaml twoHosts "random_k" twoAround = .ok text ∧
    ∀ files path, files (resolve noEnv path) = some text.toList →
      ∃ ov, loadOverlay noEnv (fun _ => 0) files path = .ok ov ∧
        ∀ src dst : Node, ∃ j ≤ 2, Routes (netOverlay ov) dst.name j src.name := by
  have hdeg : ∀ n, (edgeGraph twoAround).degree n = (4 : ℤ).toNat := by
    intro n
    rw [canonical_twoAround.degree_eq]
    cases n <;> decide
  have hname : OneLine "random_k" := by
    unfold OneLine
    decide
  obtain ⟨-, text, htext, h⟩ := edgesRandomK_close (shuffles_toEdges canonical_twoAround hdeg)
    (by decide) (edgesRandomK_toEdges (by decide) canonical_twoAround hdeg 0xC0FFEE)
    twoHosts_tokens hname
  exact ⟨text, htext, h noEnv _⟩

/-! ### The ring with chords -/

structure Kept (edges : List (Node × Node)) : Prop where
  nodup : edges.Nodup
  lt : ∀ e ∈ edges, e.1 < e.2

variable {sample : ℕ → Node × Node} {target : ℤ}

def allPairs : Finset (Node × Node) := Finset.univ.filter fun e => e.1 < e.2

lemma card_allPairs : allPairs.card = 36 := by decide

lemma Kept.subset (h : Kept edges) : edges.toFinset ⊆ allPairs := fun e he =>
  Finset.mem_filter.mpr ⟨Finset.mem_univ e, h.lt e (List.mem_toFinset.mp he)⟩

lemma Kept.length_le (h : Kept edges) : edges.length ≤ 36 := by
  rw [← List.toFinset_card_of_nodup h.nodup, ← card_allPairs]
  exact Finset.card_le_card h.subset

lemma Kept.length_eq (h : Kept edges) (hall : ∀ e : Node × Node, e.1 < e.2 → e ∈ edges) :
    edges.length = 36 := by
  have hset : edges.toFinset = allPairs := h.subset.antisymm fun e he =>
    List.mem_toFinset.mpr (hall e (Finset.mem_filter.mp he).2)
  rw [← List.toFinset_card_of_nodup h.nodup, hset, card_allPairs]

lemma Kept.add (h : Kept edges) {e : Node × Node} (he : e.1 ≠ e.2) (hnew : sortedPair e ∉ edges) :
    Kept (edges ++ [sortedPair e]) := by
  refine ⟨h.nodup.append (List.nodup_singleton _) (by simpa using hnew), fun f hf => ?_⟩
  rcases List.mem_append.mp hf with hf | hf
  · exact h.lt f hf
  · obtain rfl := List.mem_singleton.mp hf
    exact sortedPair_lt he

lemma addChords_some (hne : ∀ i, (sample i).1 ≠ (sample i).2) {fuel i : ℕ} (h : Kept edges)
    (hsome : addChords sample target fuel i edges = some es) :
    Kept es ∧ edges ⊆ es ∧ (es.length : ℤ) = max (edges.length : ℤ) target := by
  fun_induction addChords sample target fuel i edges with
  | case1 => cases hsome
  | case2 fuel i edges hlen hmem ih => exact ih h hsome
  | case3 fuel i edges hlen hnew ih =>
    rw [List.contains_iff_mem] at hnew
    obtain ⟨hes, hsub, hmax⟩ := ih (h.add (hne i) hnew) hsome
    refine ⟨hes, fun e he => hsub (List.mem_append_left _ he), ?_⟩
    rw [List.length_append, List.length_singleton] at hmax
    omega
  | case4 fuel i edges hlen =>
    obtain rfl := Option.some.inj hsome
    exact ⟨h, List.Subset.refl _, by omega⟩

/-- Until every pair has been drawn; what has been drawn before the `i`-th sample is there. -/
lemma addChords_returns {N : ℕ} (hne : ∀ i, (sample i).1 ≠ (sample i).2)
    (hall : ∀ e : Node × Node, e.1 < e.2 → ∃ i < N, sortedPair (sample i) = e)
    (htarget : target ≤ 36) {fuel i : ℕ} (hfuel : N < fuel + i) (hpos : 0 < fuel) (h : Kept edges)
    (hdrawn : ∀ j < i, sortedPair (sample j) ∈ edges) :
    ∃ es, addChords sample target fuel i edges = some es := by
  have hmissing : ∀ i, ∀ edges, Kept edges → (∀ j < i, sortedPair (sample j) ∈ edges) →
      (edges.length : ℤ) < target → i < N := by
    intro i edges h hdrawn hlen
    by_contra hi
    have hfull := h.length_eq fun e he => by
      obtain ⟨j, hj, rfl⟩ := hall e he
      exact hdrawn j (by omega)
    omega
  fun_induction addChords sample target fuel i edges with
  | case1 => exact absurd hpos (by simp)
  | case2 fuel i edges hlen hmem ih =>
    have hi := hmissing i edges h hdrawn hlen
    refine ih (by omega) (by omega) h fun j hj => ?_
    rcases Nat.lt_succ_iff_lt_or_eq.mp hj with hj | rfl
    · exact hdrawn j hj
    · exact List.contains_iff_mem.mp hmem
  | case3 fuel i edges hlen hnew ih =>
    rw [List.contains_iff_mem] at hnew
    have hi := hmissing i edges h hdrawn hlen
    refine ih (by omega) (by omega) (h.add (hne i) hnew) fun j hj => ?_
    rcases Nat.lt_succ_iff_lt_or_eq.mp hj with hj | rfl
    · exact List.mem_append_left _ (hdrawn j hj)
    · exact List.mem_append_right _ (List.mem_singleton_self _)
  | case4 fuel i edges hlen => exact ⟨edges, rfl⟩

lemma kept_ring : Kept (edgesRing.map sortedPair) := ⟨by decide, by decide⟩

/-- A sampler that draws two different nodes each time, and every two of them sometime. -/
structure Samples (sample : ℕ → Node × Node) : Prop where
  ne : ∀ i, (sample i).1 ≠ (sample i).2
  all : ∀ e : Node × Node, e.1 < e.2 → ∃ i, sortedPair (sample i) = e

lemma Samples.bounded (h : Samples sample) :
    ∃ N, ∀ e : Node × Node, e.1 < e.2 → ∃ i < N, sortedPair (sample i) = e := by
  choose f hf using h.all
  refine ⟨Finset.univ.sup (fun e : Node × Node => if he : e.1 < e.2 then f e he + 1 else 0),
    fun e he => ⟨f e he, ?_, hf e he⟩⟩
  have hle := Finset.le_sup (f := fun e : Node × Node => if he : e.1 < e.2 then f e he + 1 else 0)
    (Finset.mem_univ e)
  rw [dif_pos he] at hle
  exact hle

lemma edgesMesh_some (hne : ∀ i, (sample i).1 ≠ (sample i).2) {fuel : ℕ}
    (h : edgesMesh sample target fuel = some es) :
    Canonical es ∧ edgesRing.map sortedPair ⊆ es ∧ (es.length : ℤ) = max 9 target := by
  obtain ⟨kept, hkept, rfl⟩ := Option.map_eq_some_iff.mp h
  obtain ⟨hk, hsub, hlen⟩ := addChords_some hne kept_ring hkept
  have hperm := perm_listed hk.lt
  refine ⟨canonical_listed hk.nodup hk.lt, fun e he => hperm.mem_iff.mpr (hsub he), ?_⟩
  rw [hperm.length_eq]
  exact hlen

lemma connected_of_ring (h : edgesRing.map sortedPair ⊆ es) : (edgeGraph es).Connected := by
  have hring : (edgeGraph (edgesRing.map sortedPair)).Connected :=
    connected_of_validate (by decide)
  refine hring.mono fun u v hadj => ?_
  obtain ⟨hne, hedge⟩ := graph_adj.mp hadj
  exact graph_adj.mpr ⟨hne, hedge.imp (fun he => h he) fun he => h he⟩

lemma edgesMesh_returns (hs : Samples sample) (htarget : target ≤ 36) :
    ∃ fuel es, edgesMesh sample target fuel = some es := by
  obtain ⟨N, hN⟩ := hs.bounded
  have hfuel : N < N + 1 + 0 := Nat.lt_succ_self N
  obtain ⟨es, hes⟩ := addChords_returns hs.ne hN htarget hfuel N.succ_pos kept_ring
    fun j hj => absurd hj (Nat.not_lt_zero j)
  exact ⟨N + 1, listed es, by rw [edgesMesh, hes]; rfl⟩

/-- **The mesh**: the loop ends if and only if so many chords can be had, and then the ring is in
what comes out, with as many edges as wanted. -/
theorem edgesMesh_iff (hs : Samples sample) (target : ℤ) :
    ((∃ fuel es, edgesMesh sample target fuel = some es) ↔ target ≤ 36) ∧
      ∀ fuel es, edgesMesh sample target fuel = some es →
        Canonical es ∧ edgesRing.map sortedPair ⊆ es ∧ (es.length : ℤ) = max 9 target ∧
          (edgeGraph es).Connected := by
  refine ⟨⟨?_, edgesMesh_returns hs⟩, fun fuel es h => ?_⟩
  · rintro ⟨fuel, es, h⟩
    obtain ⟨hcan, -, hlen⟩ := edgesMesh_some hs.ne h
    have hle := (Kept.mk hcan.nodup hcan.lt).length_le
    omega
  · obtain ⟨hcan, hsub, hlen⟩ := edgesMesh_some hs.ne h
    exact ⟨hcan, hsub, hlen, connected_of_ring hsub⟩

def pairList : List (Node × Node) := nodes.flatMap fun m => (nodes.filter (m < ·)).map (Prod.mk m)

/-- All pairs of nodes in turn, over and over. -/
def inTurn (i : ℕ) : Node × Node := pairList.getD (i % 36) (.A, .B)

lemma samples_inTurn : Samples inTurn where
  ne i := by
    have hall : ∀ i < 36, (inTurn i).1 ≠ (inTurn i).2 := by decide
    have hmod : inTurn i = inTurn (i % 36) := by simp [inTurn]
    rw [hmod]
    exact hall _ (Nat.mod_lt _ (by decide))
  all e he := by
    have hmem : e ∈ pairList := List.mem_flatMap.mpr ⟨e.1, mem_nodes e.1,
      List.mem_map.mpr ⟨e.2, List.mem_filter.mpr ⟨mem_nodes e.2, decide_eq_true he⟩, rfl⟩⟩
    obtain ⟨i, hi, rfl⟩ := List.mem_iff_getElem.mp hmem
    have hlen : pairList.length = 36 := by decide
    refine ⟨i, ?_⟩
    rw [inTurn, Nat.mod_eq_of_lt (hlen ▸ hi), List.getD_eq_getElem?_getD,
      List.getElem?_eq_getElem hi, Option.getD_some, sortedPair_of_lt he]

theorem edgesMesh_iff_inTurn :
    ((∃ fuel es, edgesMesh inTurn 13 fuel = some es) ↔ (13 : ℤ) ≤ 36) ∧
      ∀ fuel es, edgesMesh inTurn 13 fuel = some es →
        Canonical es ∧ edgesRing.map sortedPair ⊆ es ∧ (es.length : ℤ) = max 9 13 ∧
          (edgeGraph es).Connected :=
  edgesMesh_iff samples_inTurn 13

/-! ### The files -/

inductive Topo
  | star | tree | binaryTree | chain | ring | grid | mesh | randomK
  deriving DecidableEq

def Topo.name : Topo → String
  | star => "star" | tree => "tree" | binaryTree => "binary_tree" | chain => "chain"
  | ring => "ring" | grid => "grid" | mesh => "mesh" | randomK => "random_k"

/-- The names in `GENERATORS`. -/
def generators : List Topo := [.star, .tree, .binaryTree, .chain, .ring, .grid, .mesh]

/-- The command line; no topology stands for all. -/
structure Cli where
  topo : Option {t // t ∈ generators} := none
  hostH1 : String := "127.0.0.1"
  hostH2 : String := "127.0.0.1"
  simulateNetwork : Bool := false
  interHostLatencyMs : String := "0.0"
  intraHostLatencyMs : String := "0.0"
  randomK : ℤ := 4
  randomSeed : ℤ := 0xC0FFEE

def defaultImpl : Node → String
  | .D | .F | .H => "python"
  | _ => "cpp"

def defaultTeam : Node → String
  | .A | .B | .D | .H => "blue"
  | _ => "yellow"

def defaultHostSplit : Node → String
  | .A | .B | .C | .D | .E => "h1"
  | _ => "h2"

def Cli.args (cli : Cli) : Args where
  hostMap := defaultHostSplit
  implMap := defaultImpl
  teamMap := defaultTeam
  realHosts h := if h = "h1" then some cli.hostH1 else if h = "h2" then some cli.hostH2 else none
  interHostLatencyMs := cli.interHostLatencyMs
  intraHostLatencyMs := cli.intraHostLatencyMs
  simulateNetwork := cli.simulateNetwork

def Cli.targets (cli : Cli) : List Topo :=
  match cli.topo with
  | some t => [t.1]
  | none => generators ++ [.randomK]

/-- The edges; none as long as chords are still drawn. -/
def generate (shuffle : ℤ → List Node → List Node) (sample : ℕ → Node × Node) (fuel : ℕ)
    (cli : Cli) : Topo → Option (Except GenError (List (Node × Node)))
  | .star => some (.ok edgesStar)
  | .tree => some (.ok edgesTree)
  | .binaryTree => some (.ok edgesBinaryTree)
  | .chain => some (.ok edgesChain)
  | .ring => some (.ok edgesRing)
  | .grid => some (.ok edgesGrid)
  | .mesh => (edgesMesh sample 13 fuel).map .ok
  | .randomK => some (edgesRandomK shuffle cli.randomK cli.randomSeed)

/-- The files that have been written, in their order, and the error that ended the program. -/
structure Outcome where
  written : List (Topo × String)
  error : Option GenError

def writeAll (gen : Topo → Option (Except GenError (List (Node × Node)))) (args : Args) :
    List Topo → Option Outcome
  | [] => some ⟨[], none⟩
  | t :: ts => (gen t).bind fun
    | .error e => some ⟨[], some e⟩
    | .ok edges =>
      match emitYaml args t.name edges with
      | .error e => some ⟨[], some (.emit e)⟩
      | .ok text => (writeAll gen args ts).map fun o => ⟨(t, text) :: o.written, o.error⟩

/-- `main` -/
def generatorMain (shuffle : ℤ → List Node → List Node) (sample : ℕ → Node × Node) (fuel : ℕ)
    (cli : Cli) : Option Outcome :=
  writeAll (generate shuffle sample fuel cli) cli.args cli.targets

variable {gen : Topo → Option (Except GenError (List (Node × Node)))} {args : Args}

lemma writeAll_written {ts : List Topo} {o : Outcome} (h : writeAll gen args ts = some o)
    {p : Topo × String} (hp : p ∈ o.written) :
    ∃ edges, gen p.1 = some (.ok edges) ∧ emitYaml args p.1.name edges = .ok p.2 := by
  induction ts generalizing o with
  | nil =>
    obtain rfl := Option.some.inj h
    cases hp
  | cons t ts ih =>
    obtain ⟨out, hgen, h⟩ := Option.bind_eq_some_iff.mp h
    cases out with
    | error e =>
      obtain rfl := Option.some.inj h
      cases hp
    | ok edges =>
      dsimp only at h
      split at h
      · obtain rfl := Option.some.inj h
        cases hp
      next text htext =>
        obtain ⟨rest, hrest, rfl⟩ := Option.map_eq_some_iff.mp h
        rcases List.mem_cons.mp hp with rfl | hp
        · exact ⟨edges, hgen, htext⟩
        · exact ih hrest hp

lemma writeAll_nil (gen : Topo → Option (Except GenError (List (Node × Node)))) (args : Args) :
    writeAll gen args [] = some ⟨[], none⟩ := rfl

lemma writeAll_last (args : Args) {t : Topo} {out : Except GenError (List (Node × Node))}
    (h : gen t = some out) : ∃ o, writeAll gen args [t] = some o ∧
      (o.written.map Prod.fst = [t] ∧ o.error.isNone ∨ o.written.map Prod.fst = [] ∧
        o.error.isSome) := by
  unfold writeAll
  rw [h, Option.bind_some]
  cases out with
  | error e => exact ⟨_, rfl, .inr ⟨rfl, rfl⟩⟩
  | ok edges =>
    dsimp only
    split
    · exact ⟨_, rfl, .inr ⟨rfl, rfl⟩⟩
    · exact ⟨_, rfl, .inl ⟨rfl, rfl⟩⟩

/-- Topologies that are written one after the other, before what comes next. -/
lemma writeAll_append {ts ts' : List Topo}
    (hts : ∀ t ∈ ts, ∃ edges, gen t = some (.ok edges) ∧ (edgeGraph edges).Connected) {o : Outcome}
    (ho : writeAll gen args ts' = some o) :
    ∃ o', writeAll gen args (ts ++ ts') = some o' ∧
      o'.written.map Prod.fst = ts ++ o.written.map Prod.fst ∧ o'.error = o.error := by
  induction ts with
  | nil => exact ⟨o, ho, rfl, rfl⟩
  | cons t ts ih =>
    obtain ⟨edges, hgen, hconn⟩ := hts t List.mem_cons_self
    obtain ⟨o', ho', hw, he⟩ := ih fun t ht => hts t (List.mem_cons_of_mem _ ht)
    obtain ⟨text, htext⟩ : ∃ text, emitYaml args t.name edges = .ok text :=
      ⟨_, emitYaml_eq hconn t.name⟩
    refine ⟨⟨(t, text) :: o'.written, o'.error⟩, ?_, congrArg (t :: ·) hw, he⟩
    rw [List.cons_append, writeAll, hgen, Option.bind_some]
    simp only [htext, ho', Option.map_some]

lemma name_oneLine (t : Topo) : OneLine t.name := by
  unfold OneLine
  cases t <;> decide

lemma cli_tokens {cli : Cli} (h1 : Token cli.hostH1.toList) (h2 : Token cli.hostH2.toList)
    (hinter : OneLine cli.interHostLatencyMs) (hintra : OneLine cli.intraHostLatencyMs) :
    Tokens cli.args where
  hostMap n := show Token (defaultHostSplit n).toList by cases n <;> decide
  implMap n := show Token (defaultImpl n).toList by cases n <;> decide
  teamMap n := show Token (defaultTeam n).toList by cases n <;> decide
  realHosts h v hv := by
    dsimp only [Cli.args] at hv
    split at hv
    · exact Option.some.inj hv ▸ h1
    · split at hv
      · exact Option.some.inj hv ▸ h2
      · cases hv
  inter := hinter
  intra := hintra

/-- The topologies with a name come out, and are connected, once the chords have been drawn. -/
lemma generate_connected (hs : Samples sample) (shuffle : ℤ → List Node → List Node) (cli : Cli) :
    ∃ fuel, ∀ t ∈ generators, ∃ edges, generate shuffle sample fuel cli t = some (.ok edges) ∧
      (edgeGraph edges).Connected := by
  obtain ⟨fuel, es, hes⟩ := edgesMesh_returns hs (by decide : (13 : ℤ) ≤ 36)
  refine ⟨fuel, fun t ht => ?_⟩
  cases t with
  | star => exact ⟨_, rfl, connected_of_validate (by decide)⟩
  | tree => exact ⟨_, rfl, connected_of_validate (by decide)⟩
  | binaryTree => exact ⟨_, rfl, connected_of_validate (by decide)⟩
  | chain => exact ⟨_, rfl, connected_of_validate (by decide)⟩
  | ring => exact ⟨_, rfl, connected_of_validate (by decide)⟩
  | grid => exact ⟨_, rfl, connected_of_validate (by decide)⟩
  | mesh =>
    exact ⟨es, by rw [generate, hes]; rfl, connected_of_ring (edgesMesh_some hs.ne hes).2.1⟩
  | randomK => exact absurd ht (by decide)

/-- **The generator's files**: every named topology is written; only the random one can fail, after
the others. Over what is read back from any file, in any environment, each node reaches each. -/
theorem generatorMain_writes (hs : Samples sample) (shuffle : ℤ → List Node → List Node) {cli : Cli}
    (h1 : Token cli.hostH1.toList) (h2 : Token cli.hostH2.toList)
    (hinter : OneLine cli.interHostLatencyMs) (hintra : OneLine cli.intraHostLatencyMs) :
    ∃ fuel o, generatorMain shuffle sample fuel cli = some o ∧
      (o.written.map Prod.fst = cli.targets ∧ o.error.isNone ∨
        o.written.map Prod.fst = generators ∧ cli.topo = none ∧ o.error.isSome) ∧
      ∀ p ∈ o.written, ∀ getenv atof files path, files (resolve getenv path) = some p.2.toList →
        ∃ ov, loadOverlay getenv atof files path = .ok ov ∧
          ∀ src dst : Node, ∃ j ≤ 8, Routes (netOverlay ov) dst.name j src.name := by
  obtain ⟨fuel, hgen⟩ := generate_connected hs shuffle cli
  obtain ⟨o, ho, hwritten⟩ : ∃ o, generatorMain shuffle sample fuel cli = some o ∧
      (o.written.map Prod.fst = cli.targets ∧ o.error.isNone ∨
        o.written.map Prod.fst = generators ∧ cli.topo = none ∧ o.error.isSome) := by
    unfold generatorMain Cli.targets
    cases cli.topo with
    | some t =>
      have hts : ∀ u ∈ [t.1], _ := fun u hu => List.mem_singleton.mp hu ▸ hgen t.1 t.2
      obtain ⟨o, ho, hw, he⟩ := writeAll_append hts (writeAll_nil _ cli.args)
      exact ⟨o, ho, .inl ⟨hw, by rw [he]; rfl⟩⟩
    | none =>
      obtain ⟨last, hlast, hcases⟩ := writeAll_last cli.args
        (show generate shuffle sample fuel cli .randomK = some _ from rfl)
      obtain ⟨o, ho, hw, he⟩ := writeAll_append hgen hlast
      refine ⟨o, ho, ?_⟩
      rcases hcases with ⟨hfst, hnone⟩ | ⟨hfst, hsome⟩
      · exact .inl ⟨by rw [hw, hfst], by rw [he, hnone]⟩
      · exact .inr ⟨by rw [hw, hfst, List.append_nil], rfl, by rw [he, hsome]⟩
  refine ⟨fuel, o, ho, hwritten, fun p hp getenv atof files path hfile => ?_⟩
  obtain ⟨edges, -, htext⟩ := writeAll_written ho hp
  have hconn := connected_of_emitYaml htext
  obtain ⟨ov, hov, hmade⟩ := loadOverlay_made getenv (cli_tokens h1 h2 hinter hintra)
    (name_oneLine p.1) htext atof hfile
  refine ⟨ov, hov, fun src dst => ⟨_, dist_le hconn src dst, ?_⟩⟩
  rw [netOverlay_made hmade]
  exact routes_planned hconn dst _ src rfl

theorem generatorMain_writes_default : ∃ fuel o,
    generatorMain (fun _ l => l) inTurn fuel {} = some o ∧
      (o.written.map Prod.fst = generators ++ [.randomK] ∧ o.error.isNone ∨
        o.written.map Prod.fst = generators ∧ o.error.isSome) ∧
      ∀ p ∈ o.written, ∀ files path, files (resolve noEnv path) = some p.2.toList →
        ∃ ov, loadOverlay noEnv (fun _ => 0) files path = .ok ov ∧
          ∀ src dst : Node, ∃ j ≤ 8, Routes (netOverlay ov) dst.name j src.name := by
  have hlatency : OneLine "0.0" := by
    unfold OneLine
    decide
  obtain ⟨fuel, o, ho, hwritten, hload⟩ := generatorMain_writes samples_inTurn (fun _ l => l)
    (show Token (Cli.hostH1 {}).toList by decide) (by decide) hlatency hlatency
  exact ⟨fuel, o, ho, hwritten.imp_right fun h => ⟨h.1, h.2.2⟩, fun p hp => hload p hp noEnv _⟩

end Mini2.Generators
