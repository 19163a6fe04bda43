import Mathlib.Combinatorics.SimpleGraph.Finite
import Mathlib.Combinatorics.SimpleGraph.Metric

/-!
Graphs that are given as lists of edges: the degree of a node is how often it stands in the list.
Where the degrees are high, all nodes are close together.
-/

namespace Mini2.Degrees

variable {V : Type} {edges : List (V × V)}

/-- The graph of the edges; a loop is none. -/
def graph (edges : List (V × V)) : SimpleGraph V := SimpleGraph.fromRel fun u v => (u, v) ∈ edges

lemma graph_adj {u v : V} : (graph edges).Adj u v ↔ u ≠ v ∧ ((u, v) ∈ edges ∨ (v, u) ∈ edges) :=
  SimpleGraph.fromRel_adj _ u v

/-- Each edge is listed once, in one direction. -/
structure Simple (edges : List (V × V)) : Prop where
  nodup : edges.Nodup
  oneWay : ∀ e ∈ edges, e.swap ∉ edges

lemma Simple.ne (h : Simple edges) {e : V × V} (he : e ∈ edges) : e.1 ≠ e.2 := by
  intro heq
  refine h.oneWay e he ?_
  rwa [show e.swap = e from Prod.ext heq.symm heq]

/-- Both ends of all edges. -/
def ends (edges : List (V × V)) : List V := edges.flatMap fun e => [e.1, e.2]

/-! ### Degrees -/

variable [DecidableEq V]

instance : DecidableRel (graph edges).Adj := fun _ _ => decidable_of_iff _ graph_adj.symm

/-- What stands at the other ends of the edges of a node. -/
def others (edges : List (V × V)) (v : V) : List V :=
  edges.filterMap fun e => if e.1 = v then some e.2 else if e.2 = v then some e.1 else none

lemma mem_others {u v : V} : u ∈ others edges v ↔ (v, u) ∈ edges ∨ (u, v) ∈ edges := by
  unfold others
  rw [List.mem_filterMap]
  constructor
  · rintro ⟨⟨a, b⟩, he, hf⟩
    dsimp only at hf
    split at hf
    next ha =>
      obtain rfl := Option.some.inj hf
      exact .inl (ha ▸ he)
    next =>
      split at hf
      next hb =>
        obtain rfl := Option.some.inj hf
        exact .inr (hb ▸ he)
      next => cases hf
  · rintro (he | he)
    · exact ⟨_, he, if_pos rfl⟩
    · refine ⟨_, he, ?_⟩
      by_cases hu : u = v
      · rw [if_pos hu, hu]
      · rw [if_neg hu, if_pos rfl]

lemma Simple.nodup_others (h : Simple edges) (v : V) : (others edges v).Nodup := by
  refine List.pairwise_filterMap.mpr (h.nodup.imp_of_mem fun {d e} hd he hne b hb c hc hbc => ?_)
  subst hbc
  obtain ⟨d1, d2⟩ := d
  obtain ⟨e1, e2⟩ := e
  dsimp only at hb hc
  have hway := h.oneWay _ hd
  split at hb <;> split at hc <;> simp_all

lemma length_others (hne : ∀ e ∈ edges, e.1 ≠ e.2) (v : V) :
    (others edges v).length = (ends edges).count v := by
  induction edges with
  | nil => rfl
  | cons e edges ih =>
    have ih := ih fun e he => hne e (List.mem_cons_of_mem _ he)
    have he := hne e List.mem_cons_self
    unfold others ends at ih ⊢
    rw [List.flatMap_cons, List.count_append, ← ih, List.filterMap_cons]
    by_cases h1 : e.1 = v
    · subst h1
      simp [he.symm, Nat.add_comm]
    · by_cases h2 : e.2 = v
      · subst h2
        simp [he, Nat.add_comm]
      · simp [h1, h2]

variable [Fintype V]

/-- **A degree is a count.** -/
lemma Simple.degree_eq (h : Simple edges) [DecidableRel (graph edges).Adj] (v : V) :
    (graph edges).degree v = (ends edges).count v := by
  have hset : (graph edges).neighborFinset v = (others edges v).toFinset := by
    ext u
    rw [SimpleGraph.mem_neighborFinset, List.mem_toFinset, mem_others, graph_adj]
    refine and_iff_right_of_imp ?_
    rintro (he | he)
    · exact h.ne he
    · exact (h.ne he).symm
  rw [← SimpleGraph.card_neighborFinset_eq_degree, hset,
    List.toFinset_card_of_nodup (h.nodup_others v), length_others (fun e => h.ne) v]

/-! ### Dense graphs -/

variable {G : SimpleGraph V} [DecidableRel G.Adj]

/-- Two nodes that have many neighbours each have a common one, or are neighbours. -/
lemma exists_common {u v : V} (hne : u ≠ v) (hadj : ¬ G.Adj u v)
    (h : Fintype.card V ≤ G.degree u + G.degree v + 1) : ∃ w, G.Adj u w ∧ G.Adj w v := by
  by_contra hnone
  have hdisj : Disjoint (G.neighborFinset u) (G.neighborFinset v) := by
    refine Finset.disjoint_left.mpr fun w hu hv => hnone ⟨w, ?_, ?_⟩
    · exact (SimpleGraph.mem_neighborFinset _ _ _).mp hu
    · exact ((SimpleGraph.mem_neighborFinset _ _ _).mp hv).symm
  have hsub : G.neighborFinset u ∪ G.neighborFinset v ⊆ Finset.univ \ {u, v} := by
    intro w hw
    have hw : G.Adj u w ∨ G.Adj v w := by simpa using hw
    rw [Finset.mem_sdiff, Finset.mem_insert, Finset.mem_singleton]
    refine ⟨Finset.mem_univ w, ?_⟩
    rintro (rfl | rfl)
    · exact hw.elim (fun h => h.ne rfl) fun h => hadj h.symm
    · exact hw.elim hadj fun h => h.ne rfl
  have hcard := Finset.card_le_card hsub
  rw [Finset.card_union_of_disjoint hdisj, Finset.card_sdiff_of_subset (Finset.subset_univ _),
    Finset.card_univ, Finset.card_pair hne, SimpleGraph.card_neighborFinset_eq_degree,
    SimpleGraph.card_neighborFinset_eq_degree] at hcard
  have hpair : 2 ≤ Fintype.card V := by
    rw [← Finset.card_pair hne]
    exact Finset.card_le_univ _
  omega

/-- **Dense graphs are connected**, by walks of at most two edges. -/
lemma dense_walk (h : ∀ u v, Fintype.card V ≤ G.degree u + G.degree v + 1) (u v : V) :
    ∃ p : G.Walk u v, p.length ≤ 2 := by
  by_cases hne : u = v
  · subst hne
    exact ⟨.nil, Nat.zero_le 2⟩
  by_cases hadj : G.Adj u v
  · exact ⟨.cons hadj .nil, by simp⟩
  · obtain ⟨w, hu, hv⟩ := exists_common hne hadj (h u v)
    exact ⟨.cons hu (.cons hv .nil), by simp⟩

lemma dense_connected [Nonempty V] (h : ∀ u v, Fintype.card V ≤ G.degree u + G.degree v + 1) :
    G.Connected :=
  ⟨fun u v => ⟨(dense_walk h u v).choose⟩⟩

lemma dense_dist (h : ∀ u v, Fintype.card V ≤ G.degree u + G.degree v + 1) (u v : V) :
    G.dist u v ≤ 2 := by
  obtain ⟨p, hp⟩ := dense_walk h u v
  exact (SimpleGraph.dist_le p).trans hp

end Mini2.Degrees
