import Mathlib.Combinatorics.SimpleGraph.Metric
import Mathlib.Data.Finset.Card
import Mathlib.Logic.Function.Basic

/-!
Breadth-first search from a source that remembers, for every vertex it discovers, the
neighbour of the source its path begins with, and what following such first hops does.

Neighbours are visited in the order in which they are listed. While a vertex is expanded
the queue holds vertices of its level and of the next one, in that order; so a vertex is
discovered at its distance, and its first hop is one closer to it than the source.
-/

namespace Mini2.Bfs

variable {α : Type*} [DecidableEq α]

structure State (α : Type*) where
  visited : Finset α
  nextHop : α → Option α
  queue : List (α × α)

def init (src : α) : State α := ⟨{src}, Function.update (fun _ => none) src (some src), []⟩

/-- A vertex seen from the one being expanded; `first` is the first hop of the path to it. -/
def discover (st : State α) (v first : α) : State α :=
  if v ∈ st.visited then st
  else ⟨insert v st.visited, Function.update st.nextHop v (some first),
    st.queue ++ [(v, first)]⟩

/-- Every neighbour in turn. -/
def expand (first : α → α) (nbrs : List α) (st : State α) : State α :=
  nbrs.foldl (fun st v => discover st v (first v)) st

/-- The queue is worked off, `k` vertices at most. -/
def loop (nbrs : α → List α) : ℕ → State α → State α
  | 0, st => st
  | k + 1, st =>
    match st.queue with
    | [] => st
    | (u, first) :: q => loop nbrs k (expand (fun _ => first) (nbrs u) { st with queue := q })

def search (nbrs : α → List α) (fuel : ℕ) (src : α) : State α :=
  loop nbrs fuel (expand id (nbrs src) (init src))

/-! ### The invariant -/

/-- What holds while `u` is expanded, `done` vertices having been taken off the queue. -/
structure Expanding (G : SimpleGraph α) (src u : α) (done : ℕ) (st : State α) : Prop where
  src_mem : src ∈ st.visited
  mem : u ∈ st.visited
  reach : ∀ v ∈ st.visited, G.Reachable src v
  srcHop : st.nextHop src = some src
  hop : ∀ v ∈ st.visited, v ≠ src →
    ∃ f, st.nextHop v = some f ∧ G.Adj src f ∧ G.dist src v = G.dist f v + 1
  fresh : ∀ v, v ∉ st.visited → st.nextHop v = none
  queued : ∀ p ∈ st.queue, p.1 ∈ st.visited ∧ p.1 ≠ src ∧ st.nextHop p.1 = some p.2
  level : ∀ p ∈ st.queue, G.dist src u ≤ G.dist src p.1 ∧ G.dist src p.1 ≤ G.dist src u + 1
  sorted : st.queue.Pairwise fun p p' => G.dist src p.1 ≤ G.dist src p'.1
  closed : ∀ w ∈ st.visited, w ≠ u → (∀ p ∈ st.queue, p.1 ≠ w) →
    ∀ v, G.Adj w v → v ∈ st.visited
  count : st.visited.card = done + st.queue.length + 1

lemma exists_border {G : SimpleGraph α} {S : Finset α} {a w : α} (p : G.Walk a w)
    (ha : a ∈ S) (hw : w ∉ S) :
    ∃ x ∈ S, ∃ y, y ∉ S ∧ G.Adj x y ∧ G.Reachable a x ∧ G.dist a x + 1 ≤ p.length := by
  induction p with
  | nil => exact absurd ha hw
  | @cons a b w hab p ih =>
    by_cases hb : b ∈ S
    · obtain ⟨x, hx, y, hy, hxy, hr, hlen⟩ := ih hb hw
      refine ⟨x, hx, y, hy, hxy, hab.reachable.trans hr, ?_⟩
      obtain ⟨q, hq⟩ := hr.exists_walk_length_eq_dist
      have := SimpleGraph.dist_le (SimpleGraph.Walk.cons hab q)
      simp only [SimpleGraph.Walk.length_cons] at this ⊢
      omega
    · exact ⟨a, ha, b, hb, hab, SimpleGraph.Reachable.refl a, by
        simp [SimpleGraph.dist_self]⟩

/-- An undiscovered vertex is farther away than the one being expanded. -/
lemma Expanding.lt_dist {G : SimpleGraph α} {src u : α} {done : ℕ} {st : State α}
    (h : Expanding G src u done st) {v : α} (hr : G.Reachable src v) (hv : v ∉ st.visited) :
    G.dist src u + 1 ≤ G.dist src v := by
  obtain ⟨p, hp⟩ := hr.exists_walk_length_eq_dist
  obtain ⟨x, hx, y, hy, hxy, -, hlen⟩ := exists_border p h.src_mem hv
  rw [hp] at hlen
  -- the end of the border edge is expanded now, or still queued
  rcases eq_or_ne x u with rfl | hxu
  · exact hlen
  · by_cases hq : ∀ q ∈ st.queue, q.1 ≠ x
    · exact absurd (h.closed x hx hxu hq y hxy) hy
    · push Not at hq
      obtain ⟨q, hq, rfl⟩ := hq
      have := (h.level q hq).1
      omega

lemma Expanding.discover {G : SimpleGraph α} {src u : α} {done : ℕ} {st : State α}
    (h : Expanding G src u done st) {v f : α} (huv : u = v ∨ G.Adj u v) (hf : G.Adj src f)
    (hfv : G.dist f v ≤ G.dist src u) : Expanding G src u done (discover st v f) := by
  unfold Bfs.discover
  split
  · exact h
  next hv =>
    have hne : u ≠ v := fun e => hv (e ▸ h.mem)
    have hadj : G.Adj u v := huv.resolve_left hne
    have hru := h.reach u h.mem
    have hrv : G.Reachable src v := hru.trans hadj.reachable
    -- the distances are forced by the triangle inequality and the border
    have hle : G.dist src v ≤ G.dist src u + 1 := by
      obtain ⟨q, hq⟩ := hru.exists_walk_length_eq_dist
      have := SimpleGraph.dist_le (q.concat hadj)
      rwa [SimpleGraph.Walk.length_concat, hq] at this
    have hge := h.lt_dist hrv hv
    have hlef : G.dist src v ≤ G.dist f v + 1 := by
      obtain ⟨q, hq⟩ := (hf.symm.reachable.trans hrv).exists_walk_length_eq_dist
      have := SimpleGraph.dist_le (SimpleGraph.Walk.cons hf q)
      rwa [SimpleGraph.Walk.length_cons, hq] at this
    have hdist : G.dist src v = G.dist src u + 1 := le_antisymm hle hge
    have hhop : ∀ w ∈ st.visited, Function.update st.nextHop v (some f) w = st.nextHop w := by
      intro w hw
      exact Function.update_of_ne (fun e : w = v => hv (e ▸ hw)) _ _
    refine ⟨Finset.mem_insert_of_mem h.src_mem, Finset.mem_insert_of_mem h.mem, ?_, ?_, ?_, ?_,
      ?_, ?_, ?_, ?_, ?_⟩
    · intro w hw
      rcases Finset.mem_insert.mp hw with rfl | hw
      · exact hrv
      · exact h.reach w hw
    · exact (hhop src h.src_mem).trans h.srcHop
    · intro w hw hws
      rcases Finset.mem_insert.mp hw with rfl | hw
      · exact ⟨f, Function.update_self _ _ _, hf, by omega⟩
      · obtain ⟨g, hg, hadj', hd⟩ := h.hop w hw hws
        exact ⟨g, (hhop w hw).trans hg, hadj', hd⟩
    · intro w hw
      rw [Finset.mem_insert, not_or] at hw
      exact (Function.update_of_ne hw.1 _ _).trans (h.fresh w hw.2)
    · intro p hp
      rcases List.mem_append.mp hp with hp | hp
      · obtain ⟨h1, h2, h3⟩ := h.queued p hp
        exact ⟨Finset.mem_insert_of_mem h1, h2, (hhop p.1 h1).trans h3⟩
      · obtain rfl := List.mem_singleton.mp hp
        exact ⟨Finset.mem_insert_self _ _, fun e : v = src => hv (e ▸ h.src_mem),
          Function.update_self _ _ _⟩
    · intro p hp
      rcases List.mem_append.mp hp with hp | hp
      · exact h.level p hp
      · obtain rfl := List.mem_singleton.mp hp
        exact ⟨by simp only; omega, by simp only; omega⟩
    · refine List.pairwise_append.mpr ⟨h.sorted, List.pairwise_singleton _ _, ?_⟩
      intro p hp p' hp'
      obtain rfl := List.mem_singleton.mp hp'
      have := (h.level p hp).2
      simp only
      omega
    · intro w hw hwu hq x hwx
      rcases Finset.mem_insert.mp hw with rfl | hw
      · exact absurd rfl (hq (w, f) (by simp))
      · exact Finset.mem_insert_of_mem
          (h.closed w hw hwu (fun p hp => hq p (List.mem_append_left _ hp)) x hwx)
    · rw [Finset.card_insert_of_notMem hv, h.count, List.length_append, List.length_singleton]
      omega

lemma subset_discover (st : State α) (v f : α) : st.visited ⊆ (discover st v f).visited := by
  unfold discover
  split
  · exact Finset.Subset.refl _
  · exact Finset.subset_insert _ _

lemma mem_discover (st : State α) (v f : α) : v ∈ (discover st v f).visited := by
  unfold discover
  split
  · assumption
  · exact Finset.mem_insert_self _ _

lemma subset_expand (first : α → α) (l : List α) (st : State α) :
    st.visited ⊆ (expand first l st).visited := by
  induction l generalizing st with
  | nil => exact Finset.Subset.refl _
  | cons v l ih => exact (subset_discover st v (first v)).trans (ih _)

lemma mem_expand (first : α → α) (l : List α) (st : State α) {v : α} (hv : v ∈ l) :
    v ∈ (expand first l st).visited := by
  induction l generalizing st with
  | nil => simp at hv
  | cons w l ih =>
    rcases List.mem_cons.mp hv with rfl | hv
    · exact subset_expand first l _ (mem_discover st v (first v))
    · exact ih _ hv

lemma mem_queue_expand {first : α → α} {l : List α} {st : State α} {p : α × α}
    (h : p ∈ (expand first l st).queue) : p ∈ st.queue ∨ p.1 ∈ l := by
  induction l generalizing st with
  | nil => exact .inl h
  | cons v l ih =>
    have hrest : p ∈ (discover st v (first v)).queue ∨ p.1 ∈ l := ih h
    rcases hrest with hp | hp
    · unfold discover at hp
      split at hp
      · exact .inl hp
      · rcases List.mem_append.mp hp with hp | hp
        · exact .inl hp
        · rw [List.mem_singleton.mp hp]
          exact .inr List.mem_cons_self
    · exact .inr (List.mem_cons_of_mem v hp)

lemma Expanding.expand {G : SimpleGraph α} {src u : α} {done : ℕ} {st : State α}
    (h : Expanding G src u done st) {first : α → α} {l : List α}
    (hl : ∀ v ∈ l, (u = v ∨ G.Adj u v) ∧
      (u ≠ v → G.Adj src (first v) ∧ G.dist (first v) v ≤ G.dist src u)) :
    Expanding G src u done (expand first l st) := by
  induction l generalizing st with
  | nil => exact h
  | cons v l ih =>
    have hv := hl v (by simp)
    suffices h' : Expanding G src u done (Bfs.discover st v (first v)) from
      ih h' fun w hw => hl w (by simp [hw])
    by_cases huv : u = v
    · subst huv
      unfold Bfs.discover
      rw [if_pos h.mem]
      exact h
    · exact h.discover hv.1 (hv.2 huv).1 (hv.2 huv).2

/-! ### The search -/

/-- The neighbour lists are those of the graph, up to self-loops. -/
def Lists (G : SimpleGraph α) (nbrs : α → List α) : Prop :=
  ∀ u v, u ≠ v → (v ∈ nbrs u ↔ G.Adj u v)

variable {G : SimpleGraph α} {nbrs : α → List α} {src : α}

lemma Lists.or_adj (hG : Lists G nbrs) {u v : α} (hv : v ∈ nbrs u) : u = v ∨ G.Adj u v := by
  by_cases h : u = v
  · exact Or.inl h
  · exact Or.inr ((hG u v h).mp hv)

lemma expanding_init : Expanding G src src 0 (init src) where
  src_mem := by simp [init]
  mem := by simp [init]
  reach := by
    intro v hv
    obtain rfl : v = src := by simpa [init] using hv
    exact SimpleGraph.Reachable.refl _
  srcHop := by simp [init]
  hop := by simp [init]
  fresh := by
    intro v hv
    have : v ≠ src := by simpa [init] using hv
    simp [init, this]
  queued := by simp [init]
  level := by simp [init]
  sorted := by simp [init]
  closed := by simp [init]
  count := by simp [init]

lemma expanding_src (hG : Lists G nbrs) :
    Expanding G src src 0 (expand id (nbrs src) (init src)) := by
  refine expanding_init.expand fun v hv => ⟨hG.or_adj hv, fun hne => ?_⟩
  exact ⟨(hG src v hne).mp hv, by simp [SimpleGraph.dist_self]⟩

omit [DecidableEq α] in
lemma Expanding.start {u : α} {done : ℕ} {st : State α} (h : Expanding G src u done st)
    (hn : ∀ v, G.Adj u v → v ∈ st.visited) {w first : α} {q : List (α × α)}
    (hq : st.queue = (w, first) :: q) : Expanding G src w (done + 1) { st with queue := q } := by
  have hw : (w, first) ∈ st.queue := by rw [hq]; exact List.mem_cons_self
  have hsub : ∀ p ∈ q, p ∈ st.queue := fun p hp => by rw [hq]; exact List.mem_cons_of_mem _ hp
  have hsorted := h.sorted
  rw [hq] at hsorted
  exact
    { src_mem := h.src_mem
      mem := (h.queued _ hw).1
      reach := h.reach
      srcHop := h.srcHop
      hop := h.hop
      fresh := h.fresh
      queued := fun p hp => h.queued p (hsub p hp)
      level := by
        intro p hp
        have h1 := List.rel_of_pairwise_cons hsorted hp
        have h2 := (h.level p (hsub p hp)).2
        have h3 := (h.level _ hw).1
        exact ⟨h1, by simp only at h3; omega⟩
      sorted := hsorted.of_cons
      closed := by
        intro x hx hxw hxq y hxy
        rcases eq_or_ne x u with rfl | hxu
        · exact hn y hxy
        · refine h.closed x hx hxu (fun p hp => ?_) y hxy
          rw [hq] at hp
          rcases List.mem_cons.mp hp with rfl | hp
          · exact fun e => hxw e.symm
          · exact hxq p hp
      count := by
        have := h.count
        rw [hq, List.length_cons] at this
        simp only
        omega }

lemma Expanding.next (hG : Lists G nbrs) {u : α} {done : ℕ} {st : State α}
    (h : Expanding G src u done st) (hn : ∀ v, G.Adj u v → v ∈ st.visited)
    {w first : α} {q : List (α × α)} (hq : st.queue = (w, first) :: q) :
    Expanding G src w (done + 1)
      (Bfs.expand (fun _ => first) (nbrs w) { st with queue := q }) := by
  have hw : (w, first) ∈ st.queue := by rw [hq]; exact List.mem_cons_self
  obtain ⟨hwv, hws, hwhop⟩ := h.queued _ hw
  obtain ⟨f, hf, hadj, hdist⟩ := h.hop w hwv hws
  obtain rfl : first = f := Option.some.inj (hwhop.symm.trans hf)
  refine (h.start hn hq).expand fun v hv => ⟨hG.or_adj hv, fun hne => ⟨hadj, ?_⟩⟩
  -- one more step from `w`, which is one closer to the first hop
  have hwv' : G.Adj w v := (hG w v hne).mp hv
  obtain ⟨p, hp⟩ := (hadj.symm.reachable.trans (h.reach w hwv)).exists_walk_length_eq_dist
  have := SimpleGraph.dist_le (p.concat hwv')
  rw [SimpleGraph.Walk.length_concat, hp] at this
  omega

/-- What the search has found once the queue is empty. -/
structure Found (G : SimpleGraph α) (src : α) (nextHop : α → Option α) : Prop where
  self : nextHop src = some src
  hop : ∀ v, G.Reachable src v → v ≠ src →
    ∃ f, nextHop v = some f ∧ G.Adj src f ∧ G.dist src v = G.dist f v + 1
  unreached : ∀ v, ¬ G.Reachable src v → nextHop v = none

lemma Expanding.found {u : α} {done : ℕ} {st : State α} (h : Expanding G src u done st)
    (hn : ∀ v, G.Adj u v → v ∈ st.visited) (hq : st.queue = []) : Found G src st.nextHop := by
  have hall : ∀ v, G.Reachable src v → v ∈ st.visited := by
    intro v hv
    by_contra hc
    obtain ⟨p⟩ := hv
    obtain ⟨x, hx, y, hy, hxy, -, -⟩ := exists_border p h.src_mem hc
    rcases eq_or_ne x u with rfl | hxu
    · exact hy (hn y hxy)
    · exact hy (h.closed x hx hxu (by simp [hq]) y hxy)
  exact ⟨h.srcHop, fun v hv hvs => h.hop v (hall v hv) hvs,
    fun v hv => h.fresh v fun hm => hv (h.reach v hm)⟩

lemma loop_found (hG : Lists G nbrs) {U : Finset α} (hU : ∀ v, G.Reachable src v → v ∈ U)
    (k : ℕ) {u : α} {done : ℕ} {st : State α} (h : Expanding G src u done st)
    (hn : ∀ v, G.Adj u v → v ∈ st.visited) (hk : U.card ≤ done + k) :
    Found G src (loop nbrs k st).nextHop := by
  induction k generalizing u done st with
  | zero =>
    have hsub : st.visited ⊆ U := fun v hv => hU v (h.reach v hv)
    have h1 := Finset.card_le_card hsub
    have h2 := h.count
    omega
  | succ k ih =>
    cases hq : st.queue with
    | nil =>
      simp only [loop, hq]
      exact h.found hn hq
    | cons p q =>
      obtain ⟨w, first⟩ := p
      simp only [loop, hq]
      refine ih (h.next hG hn hq) (fun v hv => ?_) (by omega)
      exact mem_expand _ _ _ ((hG w v hv.ne).mpr hv)

/-- **The search finds first hops of shortest paths**: the neighbour it names for a vertex
is one step closer to it, and it names one for the reachable vertices and no other. -/
theorem search_found (hG : Lists G nbrs) {U : Finset α}
    (hU : ∀ v, G.Reachable src v → v ∈ U) {fuel : ℕ} (hf : U.card ≤ fuel) :
    Found G src (search nbrs fuel src).nextHop :=
  loop_found hG hU fuel (expanding_src hG)
    (fun v hv => mem_expand _ _ _ ((hG src v hv.ne).mpr hv)) (by omega)

/-! ### Least first hops

When the neighbours of every vertex are listed in order, the vertices of a level are queued in the
order of their first hops. A vertex is discovered from the first of those that lead to it, so its
first hop is the least. -/

section Least

variable [Preorder α]

/-- The first hops that have been found are least, and each level of the queue is in their
order. -/
structure Least (G : SimpleGraph α) (src : α) (st : State α) : Prop where
  least : ∀ v ∈ st.visited, v ≠ src → ∀ g, st.nextHop v = some g →
    ∀ n, G.Adj src n → G.dist src v = G.dist n v + 1 → g ≤ n
  order : st.queue.Pairwise fun p p' => G.dist src p.1 = G.dist src p'.1 → p.2 ≤ p'.2

/-- The same while `u` is expanded, a vertex with first hop `f`: what is queued on its level
comes after it, and what has been queued on the next one before it. -/
structure Ordered (G : SimpleGraph α) (src u f : α) (st : State α) : Prop
    extends Least G src st where
  hop : st.nextHop u = some f
  front : ∀ p ∈ st.queue, G.dist src p.1 = G.dist src u → f ≤ p.2
  back : ∀ p ∈ st.queue, G.dist src p.1 = G.dist src u + 1 → p.2 ≤ f

/-- The queue before its first vertex is expanded. -/
structure Ready (G : SimpleGraph α) (src : α) (st : State α) : Prop extends Least G src st where
  next : ∀ w first q, st.queue = (w, first) :: q →
    ∀ p ∈ q, G.dist src p.1 = G.dist src w + 1 → p.2 ≤ first

omit [DecidableEq α] [Preorder α] in
lemma exists_before {n v : α} {d : ℕ} (hr : G.Reachable n v) (hd : G.dist n v = d + 1) :
    ∃ w, G.Adj w v ∧ G.Reachable n w ∧ G.dist n w = d := by
  obtain ⟨p, hp⟩ := hr.symm.exists_walk_length_eq_dist
  rw [SimpleGraph.dist_comm, hd] at hp
  cases p with
  | nil => simp at hp
  | @cons _ w _ hvw p =>
    rw [SimpleGraph.Walk.length_cons] at hp
    have hle := SimpleGraph.dist_le p
    have hge := SimpleGraph.dist_le (SimpleGraph.Walk.cons hvw p)
    have htri : G.dist n v ≤ G.dist n w + 1 := by
      obtain ⟨q, hq⟩ := p.reverse.reachable.exists_walk_length_eq_dist
      have := SimpleGraph.dist_le (q.concat hvw.symm)
      rwa [SimpleGraph.Walk.length_concat, hq] at this
    rw [SimpleGraph.dist_comm] at hle
    exact ⟨w, hvw.symm, p.reverse.reachable, by omega⟩

/-- A vertex that is seen first from `u` has the first hop of `u`: whatever leads to it otherwise
is queued behind `u`. -/
lemma Ordered.discover {u v f : α} {done : ℕ} {st : State α} (ho : Ordered G src u f st)
    (h : Expanding G src u done st) (hus : u ≠ src) (huv : G.Adj u v) :
    Ordered G src u f (discover st v f) := by
  unfold Bfs.discover
  split
  · exact ho
  next hv =>
    have hru := h.reach u h.mem
    have hrv : G.Reachable src v := hru.trans huv.reachable
    have hle : G.dist src v ≤ G.dist src u + 1 := by
      obtain ⟨q, hq⟩ := hru.exists_walk_length_eq_dist
      have := SimpleGraph.dist_le (q.concat huv)
      rwa [SimpleGraph.Walk.length_concat, hq] at this
    have hdist : G.dist src v = G.dist src u + 1 := le_antisymm hle (h.lt_dist hrv hv)
    have hpos : 0 < G.dist src u := hru.pos_dist_of_ne (Ne.symm hus)
    have hhop : ∀ w ∈ st.visited, Function.update st.nextHop v (some f) w = st.nextHop w := by
      intro w hw
      exact Function.update_of_ne (fun e : w = v => hv (e ▸ hw)) _ _
    refine ⟨⟨?_, ?_⟩, (hhop u h.mem).trans ho.hop, ?_, ?_⟩
    · intro w hw hws g hg n hn hnd
      rcases Finset.mem_insert.mp hw with rfl | hw
      · have hself : Function.update st.nextHop w (some f) w = some f := Function.update_self _ _ _
        obtain rfl : f = g := Option.some.inj (hself.symm.trans hg)
        -- the vertex in front of `w` on a path through `n` is on the level of `u`
        obtain ⟨d, hd⟩ : ∃ d, G.dist n w = d + 1 := ⟨G.dist src u - 1, by omega⟩
        obtain ⟨x, hxw, hnx, hxd⟩ := exists_before (hn.symm.reachable.trans hrv) hd
        have hrx : G.Reachable src x := hn.reachable.trans hnx
        have hsx : G.dist src x = G.dist n x + 1 := by
          refine le_antisymm ?_ ?_
          · obtain ⟨q, hq⟩ := hnx.exists_walk_length_eq_dist
            have := SimpleGraph.dist_le (SimpleGraph.Walk.cons hn q)
            rwa [SimpleGraph.Walk.length_cons, hq] at this
          · obtain ⟨q, hq⟩ := hrx.exists_walk_length_eq_dist
            have := SimpleGraph.dist_le (q.concat hxw)
            rw [SimpleGraph.Walk.length_concat, hq] at this
            omega
        have hxs : x ≠ src := by
          rintro rfl
          rw [SimpleGraph.dist_self] at hsx
          omega
        have hxv : x ∈ st.visited := by
          by_contra hnot
          have := h.lt_dist hrx hnot
          omega
        rcases eq_or_ne x u with rfl | hxu
        · exact ho.least x hxv hxs f ho.hop n hn hsx
        · have hqueued : ∃ p ∈ st.queue, p.1 = x := by
            by_contra hnone
            push Not at hnone
            exact hv (h.closed x hxv hxu hnone w hxw)
          obtain ⟨p, hp, rfl⟩ := hqueued
          have hfront := ho.front p hp (by omega)
          exact hfront.trans (ho.least p.1 hxv hxs p.2 (h.queued p hp).2.2 n hn hsx)
      · exact ho.least w hw hws g ((hhop w hw).symm.trans hg) n hn hnd
    · refine List.pairwise_append.mpr ⟨ho.order, List.pairwise_singleton _ _, ?_⟩
      intro p hp p' hp' heq
      obtain rfl := List.mem_singleton.mp hp'
      exact ho.back p hp (heq.trans hdist)
    · intro p hp heq
      rcases List.mem_append.mp hp with hp | hp
      · exact ho.front p hp heq
      · obtain rfl := List.mem_singleton.mp hp
        exact le_refl f
    · intro p hp heq
      rcases List.mem_append.mp hp with hp | hp
      · exact ho.back p hp heq
      · obtain rfl := List.mem_singleton.mp hp
        exact le_refl f

lemma Ordered.expand {u f : α} {done : ℕ} {st : State α} (ho : Ordered G src u f st)
    (h : Expanding G src u done st) (hus : u ≠ src) (hf : G.Adj src f)
    (hfu : G.dist src u = G.dist f u + 1) {l : List α} (hl : ∀ v ∈ l, u = v ∨ G.Adj u v) :
    Ordered G src u f (Bfs.expand (fun _ => f) l st) := by
  induction l generalizing st with
  | nil => exact ho
  | cons v l ih =>
    have hrest : ∀ w ∈ l, u = w ∨ G.Adj u w := fun w hw => hl w (List.mem_cons_of_mem _ hw)
    rcases hl v List.mem_cons_self with rfl | huv
    · have hsame : Bfs.discover st u f = st := if_pos h.mem
      show Ordered G src u f (Bfs.expand (fun _ => f) l (Bfs.discover st u f))
      rw [hsame]
      exact ih ho h hrest
    · have hfv : G.dist f v ≤ G.dist src u := by
        obtain ⟨p, hp⟩ := (hf.symm.reachable.trans (h.reach u h.mem)).exists_walk_length_eq_dist
        have := SimpleGraph.dist_le (p.concat huv)
        rw [SimpleGraph.Walk.length_concat, hp] at this
        omega
      exact ih (ho.discover h hus huv) (h.discover (.inr huv) hf hfv) hrest

omit [DecidableEq α] in
lemma Ordered.ready {u f : α} {done : ℕ} {st : State α} (ho : Ordered G src u f st)
    (h : Expanding G src u done st) : Ready G src st := by
  refine ⟨ho.toLeast, fun w first q hq p hp hd => ?_⟩
  have hw : (w, first) ∈ st.queue := by rw [hq]; exact List.mem_cons_self
  have hpq : p ∈ st.queue := by rw [hq]; exact List.mem_cons_of_mem _ hp
  have hlow := (h.level _ hw).1
  have hhigh := (h.level p hpq).2
  simp only at hlow
  have hfirst := ho.front _ hw (by simp only; omega)
  exact (ho.back p hpq (by omega)).trans hfirst

lemma Ready.next_ordered (hG : Lists G nbrs) {u : α} {done : ℕ} {st : State α}
    (hr : Ready G src st) (h : Expanding G src u done st) (hn : ∀ v, G.Adj u v → v ∈ st.visited)
    {w first : α} {q : List (α × α)} (hq : st.queue = (w, first) :: q) :
    Ordered G src w first (Bfs.expand (fun _ => first) (nbrs w) { st with queue := q }) := by
  have hw : (w, first) ∈ st.queue := by rw [hq]; exact List.mem_cons_self
  obtain ⟨hwv, hws, hwhop⟩ := h.queued _ hw
  obtain ⟨f, hf, hadj, hdist⟩ := h.hop w hwv hws
  obtain rfl : first = f := Option.some.inj (hwhop.symm.trans hf)
  have horder := hr.order
  rw [hq] at horder
  have hstart : Ordered G src w first { st with queue := q } :=
    { least := hr.least
      order := horder.of_cons
      hop := hf
      front := fun p hp heq => List.rel_of_pairwise_cons horder hp heq.symm
      back := hr.next w first q hq }
  exact hstart.expand (h.start hn hq) hws hadj hdist fun v hv => hG.or_adj hv

lemma ready_src (hG : Lists G nbrs) (hsorted : (nbrs src).Pairwise (· ≤ ·)) :
    Ready G src (Bfs.expand id (nbrs src) (init src)) := by
  have hl : ∀ v ∈ nbrs src, src = v ∨ G.Adj src v := fun v hv => hG.or_adj hv
  suffices h : ∀ (l : List α) (st : State α), l.Pairwise (· ≤ ·) →
      (∀ v ∈ l, src = v ∨ G.Adj src v) → src ∈ st.visited → Least G src st →
      (∀ p ∈ st.queue, G.dist src p.1 = 1 ∧ ∀ v ∈ l, p.2 ≤ v) →
      Least G src (Bfs.expand id l st) ∧
        ∀ p ∈ (Bfs.expand id l st).queue, G.dist src p.1 = 1 by
    obtain ⟨hleast, hone⟩ := h (nbrs src) (init src) hsorted hl (by simp [init])
      ⟨fun v hv hne => absurd (by simpa [init] using hv) hne, List.Pairwise.nil⟩ (by simp [init])
    refine ⟨hleast, fun w first q hq p hp hd => ?_⟩
    have hw := hone (w, first) (by rw [hq]; exact List.mem_cons_self)
    have hp := hone p (by rw [hq]; exact List.mem_cons_of_mem _ hp)
    simp only at hw
    omega
  intro l
  induction l with
  | nil => exact fun st _ _ _ hleast hone => ⟨hleast, fun p hp => (hone p hp).1⟩
  | cons v l ih =>
    intro st hsorted hl hsrc hleast hone
    obtain ⟨hv, hsorted⟩ := List.pairwise_cons.mp hsorted
    have hrest : ∀ w ∈ l, src = w ∨ G.Adj src w := fun w hw => hl w (List.mem_cons_of_mem _ hw)
    have hold : ∀ p ∈ st.queue, G.dist src p.1 = 1 ∧ ∀ w ∈ l, p.2 ≤ w := fun p hp =>
      ⟨(hone p hp).1, fun w hw => (hone p hp).2 w (List.mem_cons_of_mem _ hw)⟩
    refine ih (Bfs.discover st v v) hsorted hrest (subset_discover st v v hsrc) ?_ ?_
    · unfold Bfs.discover
      split
      · exact hleast
      next hnot =>
        have hadj : G.Adj src v := (hl v List.mem_cons_self).resolve_left fun e => hnot (e ▸ hsrc)
        refine ⟨fun w hw hws g hg n hn hnd => ?_, ?_⟩
        · rcases Finset.mem_insert.mp hw with rfl | hw
          · have hself : Function.update st.nextHop w (some w) w = some w :=
              Function.update_self _ _ _
            obtain rfl : w = g := Option.some.inj (hself.symm.trans hg)
            -- no other neighbour is closer to this one
            rw [SimpleGraph.dist_eq_one_iff_adj.mpr hadj] at hnd
            have hnw : G.Reachable n w := hn.symm.reachable.trans hadj.reachable
            obtain rfl := hnw.dist_eq_zero_iff.mp (by omega)
            exact le_refl n
          · have hne : w ≠ v := fun e => hnot (e ▸ hw)
            have hkeep : Function.update st.nextHop v (some v) w = st.nextHop w :=
              Function.update_of_ne hne _ _
            exact hleast.least w hw hws g (hkeep.symm.trans hg) n hn hnd
        · refine List.pairwise_append.mpr ⟨hleast.order, List.pairwise_singleton _ _, ?_⟩
          intro p hp p' hp' _
          obtain rfl := List.mem_singleton.mp hp'
          exact (hone p hp).2 v List.mem_cons_self
    · unfold Bfs.discover
      split
      · exact hold
      next hnot =>
        have hadj : G.Adj src v := (hl v List.mem_cons_self).resolve_left fun e => hnot (e ▸ hsrc)
        intro p hp
        rcases List.mem_append.mp hp with hp | hp
        · exact hold p hp
        · obtain rfl := List.mem_singleton.mp hp
          exact ⟨SimpleGraph.dist_eq_one_iff_adj.mpr hadj, hv⟩

/-- The search works off its whole queue, and the first hops it finds are least. -/
lemma loop_least (hG : Lists G nbrs) {U : Finset α} (hU : ∀ v, G.Reachable src v → v ∈ U)
    (k : ℕ) {u : α} {done : ℕ} {st : State α} (h : Expanding G src u done st)
    (hr : Ready G src st) (hn : ∀ v, G.Adj u v → v ∈ st.visited) (hk : U.card ≤ done + k) :
    (loop nbrs k st).queue = [] ∧ ∀ v, G.Reachable src v → v ≠ src →
      ∀ g, (loop nbrs k st).nextHop v = some g →
        ∀ n, G.Adj src n → G.dist src v = G.dist n v + 1 → g ≤ n := by
  induction k generalizing u done st with
  | zero =>
    have hsub : st.visited ⊆ U := fun v hv => hU v (h.reach v hv)
    have h1 := Finset.card_le_card hsub
    have h2 := h.count
    omega
  | succ k ih =>
    cases hq : st.queue with
    | nil =>
      have hend : loop nbrs (k + 1) st = st := by simp only [loop, hq]
      rw [hend]
      refine ⟨hq, fun v hv hvs g hg => hr.least v ?_ hvs g hg⟩
      by_contra hnot
      rw [(h.fresh v hnot)] at hg
      cases hg
    | cons p q =>
      obtain ⟨w, first⟩ := p
      simp only [loop, hq]
      have hnext := h.next hG hn hq
      refine ih hnext ((hr.next_ordered hG h hn hq).ready hnext) (fun v hv => ?_) (by omega)
      exact mem_expand _ _ _ ((hG w v hv.ne).mpr hv)

/-- **With sorted neighbours the search finds the least first hops** of shortest paths. -/
theorem search_least (hG : Lists G nbrs) (hsorted : (nbrs src).Pairwise (· ≤ ·)) {U : Finset α}
    (hU : ∀ v, G.Reachable src v → v ∈ U) {fuel : ℕ} (hf : U.card ≤ fuel) :
    (search nbrs fuel src).queue = [] ∧ ∀ v, G.Reachable src v → v ≠ src →
      ∀ g, (search nbrs fuel src).nextHop v = some g →
        ∀ n, G.Adj src n → G.dist src v = G.dist n v + 1 → g ≤ n :=
  loop_least hG hU fuel (expanding_src hG) (ready_src hG hsorted)
    (fun v hv => mem_expand _ _ _ ((hG src v hv.ne).mpr hv)) (by omega)

end Least

/-! ### Soundness alone -/

/-- What is discovered from reachable vertices is reachable, whatever the search started from. -/
lemma loop_reachable {a : α} (hG : ∀ u v, v ∈ nbrs u → u = v ∨ G.Adj u v) (k : ℕ) (st : State α)
    (hv : ∀ v ∈ st.visited, G.Reachable a v) (hq : ∀ p ∈ st.queue, p.1 ∈ st.visited) :
    ∀ v ∈ (loop nbrs k st).visited, G.Reachable a v := by
  induction k generalizing st with
  | zero => exact hv
  | succ k ih =>
    unfold loop
    split
    · exact hv
    next u first q hst =>
      have hu : u ∈ st.visited := hq (u, first) (by rw [hst]; exact List.mem_cons_self)
      have hl : ∀ v ∈ nbrs u, G.Reachable a v := by
        intro v hvu
        rcases hG u v hvu with rfl | hadj
        · exact hv u hu
        · exact (hv u hu).trans hadj.reachable
      suffices h : ∀ l : List α, (∀ v ∈ l, G.Reachable a v) → ∀ st' : State α,
          (∀ v ∈ st'.visited, G.Reachable a v) → (∀ p ∈ st'.queue, p.1 ∈ st'.visited) →
          (∀ v ∈ (expand (fun _ => first) l st').visited, G.Reachable a v) ∧
            ∀ p ∈ (expand (fun _ => first) l st').queue,
              p.1 ∈ (expand (fun _ => first) l st').visited by
        obtain ⟨h1, h2⟩ := h (nbrs u) hl { st with queue := q } hv
          fun p hp => hq p (by rw [hst]; exact List.mem_cons_of_mem _ hp)
        exact ih _ h1 h2
      intro l hl
      induction l with
      | nil => exact fun st' h1 h2 => ⟨h1, h2⟩
      | cons w l ihl =>
        intro st' h1 h2
        refine ihl (fun v hv => hl v (List.mem_cons_of_mem _ hv)) (discover st' w first) ?_ ?_
        · intro v hv'
          unfold discover at hv'
          split at hv'
          · exact h1 v hv'
          · rcases Finset.mem_insert.mp hv' with rfl | hv'
            · exact hl v List.mem_cons_self
            · exact h1 v hv'
        · intro p hp
          unfold discover at hp ⊢
          split
          next hw =>
            rw [if_pos hw] at hp
            exact h2 p hp
          next hw =>
            rw [if_neg hw] at hp
            rcases List.mem_append.mp hp with hp | hp
            · exact Finset.mem_insert_of_mem (h2 p hp)
            · obtain rfl := List.mem_singleton.mp hp
              exact Finset.mem_insert_self _ _

/-! ### Completeness alone -/

section Complete

variable [Fintype α]

/-- The neighbours of what is visited and no longer queued are visited. -/
structure Working (nbrs : α → List α) (st : State α) : Prop where
  queued : ∀ p ∈ st.queue, p.1 ∈ st.visited
  closed : ∀ u ∈ st.visited, (∀ p ∈ st.queue, p.1 ≠ u) → ∀ v ∈ nbrs u, v ∈ st.visited

omit [Fintype α] in
lemma length_queue_expand (first : α → α) (l : List α) (st : State α) :
    (expand first l st).queue.length + st.visited.card =
      st.queue.length + (expand first l st).visited.card := by
  induction l generalizing st with
  | nil => rfl
  | cons v l ih =>
    have hstep : (discover st v (first v)).queue.length + st.visited.card =
        st.queue.length + (discover st v (first v)).visited.card := by
      unfold discover
      split
      · rfl
      · rename_i hv
        rw [Finset.card_insert_of_notMem hv, List.length_append, List.length_singleton]
        omega
    have hrest := ih (discover st v (first v))
    have hcons : expand first (v :: l) st = expand first l (discover st v (first v)) := rfl
    rw [hcons]
    omega

omit [Fintype α] in
lemma queue_subset_expand (first : α → α) (l : List α) (st : State α) :
    st.queue ⊆ (expand first l st).queue := by
  induction l generalizing st with
  | nil => exact List.Subset.refl _
  | cons v l ih =>
    refine List.Subset.trans ?_ (ih (discover st v (first v)))
    unfold discover
    split
    · exact List.Subset.refl _
    · exact List.subset_append_left _ _

omit [Fintype α] in
lemma queued_expand (first : α → α) (l : List α) (st : State α) {v : α}
    (hv : v ∈ (expand first l st).visited) :
    v ∈ st.visited ∨ ∃ p ∈ (expand first l st).queue, p.1 = v := by
  induction l generalizing st with
  | nil => exact .inl hv
  | cons w l ih =>
    rcases ih (discover st w (first w)) hv with hmem | hq
    · by_cases hw : w ∈ st.visited
      · rw [discover, if_pos hw] at hmem
        exact .inl hmem
      · have hdisc : discover st w (first w) = ⟨insert w st.visited,
            Function.update st.nextHop w (some (first w)), st.queue ++ [(w, first w)]⟩ := if_neg hw
        rw [hdisc] at hmem
        rcases Finset.mem_insert.mp hmem with rfl | hmem
        · have hlast : (v, first v) ∈ (discover st v (first v)).queue := by
            rw [hdisc]
            simp
          exact .inr ⟨(v, first v), queue_subset_expand first l _ hlast, rfl⟩
        · exact .inl hmem
    · exact .inr hq

omit [Fintype α] in
lemma Working.next {st : State α} (h : Working nbrs st) {u first : α} {q : List (α × α)}
    (hq : st.queue = (u, first) :: q) :
    Working nbrs (expand (fun _ => first) (nbrs u) { st with queue := q }) where
  queued p hp := by
    rcases mem_queue_expand hp with hp | hp
    · refine subset_expand _ _ _ (h.queued p ?_)
      rw [hq]
      exact List.mem_cons_of_mem _ hp
    · exact mem_expand _ _ _ hp
  closed w hw hnot v hv := by
    rcases queued_expand _ _ _ hw with hmem | ⟨p, hp, rfl⟩
    · by_cases hwu : w = u
      · rw [hwu] at hv
        exact mem_expand _ _ _ hv
      · refine subset_expand _ _ _ (h.closed w hmem (fun p hp => ?_) v hv)
        rw [hq] at hp
        rcases List.mem_cons.mp hp with rfl | hp
        · exact fun heq => hwu heq.symm
        · exact hnot p (queue_subset_expand _ _ _ hp)
    · exact absurd rfl (hnot p hp)

/-- With rounds for every vertex the loop ends on a set that no neighbour leads out of. -/
lemma Working.loop {k : ℕ} {st : State α} (h : Working nbrs st)
    (hk : st.queue.length + Fintype.card α ≤ k + st.visited.card) :
    ∀ u ∈ (Bfs.loop nbrs k st).visited, ∀ v ∈ nbrs u, v ∈ (Bfs.loop nbrs k st).visited := by
  induction k generalizing st with
  | zero =>
    have hcard := Finset.card_le_univ st.visited
    have hempty : st.queue = [] := List.length_eq_zero_iff.mp (by omega)
    exact fun u hu => h.closed u hu (by simp [hempty])
  | succ k ih =>
    cases hq : st.queue with
    | nil =>
      simp only [Bfs.loop, hq]
      exact fun u hu => h.closed u hu (by simp [hq])
    | cons p q =>
      obtain ⟨u, first⟩ := p
      simp only [Bfs.loop, hq]
      refine ih (h.next hq) ?_
      have hlen := length_queue_expand (fun _ => first) (nbrs u) { st with queue := q }
      rw [hq, List.length_cons] at hk
      simp only at hlen
      omega

omit [Fintype α] in
lemma subset_loop (k : ℕ) (st : State α) : st.visited ⊆ (Bfs.loop nbrs k st).visited := by
  induction k generalizing st with
  | zero => exact Finset.Subset.refl _
  | succ k ih =>
    unfold Bfs.loop
    split
    · exact Finset.Subset.refl _
    · rename_i u first q _
      have hexpand := subset_expand (fun _ => first) (nbrs u) { st with queue := q }
      exact hexpand.trans (ih _)

omit [Fintype α] [DecidableEq α] in
/-- A set that no edge leads out of has what can be reached from its members. -/
lemma mem_of_reachable {S : Finset α} (hS : ∀ u ∈ S, ∀ v, G.Adj u v → v ∈ S) {a b : α}
    (ha : a ∈ S) (h : G.Reachable a b) : b ∈ S := by
  obtain ⟨p⟩ := h
  induction p with
  | nil => exact ha
  | cons hadj p ih => exact ih (hS _ ha _ hadj)

end Complete

/-! ### Following first hops -/

/-- The vertices visited by following `hop` for `k` steps. -/
def follow (hop : α → Option α) : ℕ → α → List α
  | 0, u => [u]
  | k + 1, u =>
    match hop u with
    | none => [u]
    | some v => u :: follow hop k v

/-- `hop` leads every vertex but `dst` one step closer to `dst`. -/
def Closer (G : SimpleGraph α) (dst : α) (hop : α → Option α) : Prop :=
  ∀ u, u ≠ dst → ∃ v, hop u = some v ∧ G.Adj u v ∧ G.dist u dst = G.dist v dst + 1

omit [DecidableEq α] in
/-- **Following hops that lead closer is a shortest path**: it ends at its destination after
as many steps as the distance, and visits no vertex twice. -/
theorem follow_closer (hconn : G.Connected) {dst : α} {hop : α → Option α}
    (h : Closer G dst hop) (k : ℕ) (u : α) (hk : G.dist u dst = k) :
    (follow hop k u).length = k + 1 ∧ (follow hop k u).getLast? = some dst ∧
      (follow hop k u).Nodup ∧ ∀ w ∈ follow hop k u, G.dist w dst ≤ k := by
  induction k generalizing u with
  | zero =>
    obtain rfl : u = dst := (hconn.dist_eq_zero_iff).mp hk
    simp [follow]
  | succ k ih =>
    have hne : u ≠ dst := by
      rintro rfl
      simp [SimpleGraph.dist_self] at hk
    obtain ⟨v, hv, -, hd⟩ := h u hne
    obtain ⟨h1, h2, h3, h4⟩ := ih v (by omega)
    simp only [follow, hv]
    refine ⟨by simp [h1], ?_, ?_, ?_⟩
    · rw [List.getLast?_cons, h2]
      rfl
    · refine List.nodup_cons.mpr ⟨fun hm => ?_, h3⟩
      have := h4 u hm
      omega
    · intro w hw
      rcases List.mem_cons.mp hw with rfl | hw
      · omega
      · have := h4 w hw
        omega

end Mini2.Bfs
