import Mathlib.Data.Set.Finite.List
import Mini2.Lib.Orbit
import Mini2.Net

/-!
The relays of `ForwardQuery` and `PullChunk`: a node that is not the target sends the call on to
its next hop, with the same code in both implementations. A `ForwardQuery` counts its hops down,
a `PullChunk` carries no count. The tables of the nodes need not fit together.
-/

namespace Mini2.Relay

open Mini2.Net Mini2.Orbit

variable (ov : Overlay String) (target : String)

/-- The next hop toward the target, empty if there is none. -/
def nextHop (name : String) : String :=
  match ov.nextHop name target with
  | .ok nh => nh
  | .error _ => ""

/-- Where a node relays to: not to itself, and a hop that is no node has no stub. -/
def relay (name : String) : Option String :=
  let nh := nextHop ov target name
  if nh = "" ∨ nh = name then none
  else if ov.hasNode nh then some nh
  else none

/-- The `ForwardQuery` that a `ForwardQuery` at a node makes, with its ttl. -/
def forwardQuery (call : String × ℤ) : Option (String × ℤ) :=
  let (name, ttl) := call
  if ttl ≤ 0 then none
  else if target = name then none
  else (relay ov target name).map fun nh => (nh, ttl - 1)

/-- The `PullChunk` that a `PullChunk` at a node makes. -/
def pullChunk (name : String) : Option String :=
  if target ≠ "" ∧ target ≠ name then relay ov target name else none

/-- The table of a node that is not the target leads to another node. -/
def Hop (name nh : String) : Prop :=
  target ≠ "" ∧ name ≠ target ∧ ov.nextHop name target = .ok nh ∧ nh ≠ "" ∧ nh ≠ name ∧
    ov.hasNode nh = true

/-- The tables lead from `start` to a node from which they lead back to it. -/
def TablesCircle (start : String) : Prop :=
  ∃ n, Relation.ReflTransGen (Hop ov target) start n ∧ Relation.TransGen (Hop ov target) n n

variable {ov target}

lemma relay_eq_some {name nh : String} : relay ov target name = some nh ↔
    ov.nextHop name target = .ok nh ∧ nh ≠ "" ∧ nh ≠ name ∧ ov.hasNode nh = true := by
  unfold relay nextHop
  cases ov.nextHop name target with
  | error e => simp
  | ok hop =>
    by_cases h : hop = "" ∨ hop = name
    · simp only [if_pos h, reduceCtorEq, Except.ok.injEq, false_iff]
      rintro ⟨rfl, h1, h2, -⟩
      exact h.elim h1 h2
    · simp only [if_neg h, Except.ok.injEq]
      by_cases hn : ov.hasNode hop = true
      · rw [if_pos hn, Option.some.injEq]
        refine ⟨?_, fun h => h.1⟩
        rintro rfl
        exact ⟨rfl, fun he => h (.inl he), fun he => h (.inr he), hn⟩
      · rw [if_neg hn]
        simp only [reduceCtorEq, false_iff]
        rintro ⟨rfl, -, -, h4⟩
        exact hn h4

lemma pullChunk_eq_some {name nh : String} : pullChunk ov target name = some nh ↔
    Hop ov target name nh := by
  unfold pullChunk Hop
  by_cases h : target ≠ "" ∧ target ≠ name
  · rw [if_pos h, relay_eq_some]
    exact ⟨fun hr => ⟨h.1, h.2.symm, hr⟩, fun hr => hr.2.2⟩
  · rw [if_neg h]
    simp only [reduceCtorEq, false_iff]
    exact fun hr => h ⟨hr.1, hr.2.1.symm⟩

lemma hop_iff_toward {name nh : String} (ht : target ≠ "") (hnh : nh ≠ "") :
    Hop ov target name nh ↔ ov.toward target name = .hop nh := by
  rw [toward_hop_iff]
  exact ⟨fun ⟨_, h1, h2, _, h3⟩ => ⟨h1, h2, h3⟩, fun ⟨h1, h2, h3⟩ => ⟨ht, h1, h2, hnh, h3⟩⟩

lemma forwardQuery_ends (call : String × ℤ) : Ends (forwardQuery ov target) call := by
  refine ends_of_measure (fun c => c.2.toNat) ?_ call
  rintro ⟨name, ttl⟩ ⟨nh, ttl'⟩ h
  simp only [forwardQuery] at h
  split at h
  · cases h
  · split at h
    · cases h
    · obtain ⟨nh', -, heq⟩ := Option.map_eq_some_iff.mp h
      obtain ⟨-, rfl⟩ := Prod.mk.inj heq
      show (ttl - 1).toNat < ttl.toNat
      omega

lemma circles_iff (start : String) :
    Circles (pullChunk ov target) start ↔ TablesCircle ov target start := by
  have hnext : Next (pullChunk ov target) = Hop ov target := by
    funext name nh
    exact propext pullChunk_eq_some
  unfold Circles TablesCircle
  rw [hnext]

/-- A `PullChunk` hops on for ever exactly if it comes into a circle of the tables. -/
lemma pullChunk_ends_iff (start : String) :
    Ends (pullChunk ov target) start ↔ ¬ TablesCircle ov target start := by
  rw [← circles_iff]
  refine ends_iff (List.finite_toSet (ov.nodes.map Prod.fst)) fun name nh h => ?_
  obtain ⟨-, -, -, -, -, hnode⟩ := pullChunk_eq_some.mp h
  obtain ⟨spec, hspec⟩ := Option.isSome_iff_exists.mp hnode
  obtain ⟨l₁, l₂, hl, -⟩ := List.lookup_eq_some_iff.mp hspec
  show nh ∈ ov.nodes.map Prod.fst
  rw [hl]
  simp

/-- **When relaying ends.** The relays of a `ForwardQuery`, with any ttl, and those of a
`PullChunk` are finitely many exactly if the tables do not lead the call into a circle. -/
theorem relays_end_iff (ov : Overlay String) (target start : String) :
    ((∀ ttl, Ends (forwardQuery ov target) (start, ttl)) ∧ Ends (pullChunk ov target) start) ↔
      ¬ TablesCircle ov target start := by
  rw [pullChunk_ends_iff]
  exact ⟨fun h => h.2, fun h => ⟨fun ttl => forwardQuery_ends (start, ttl), h⟩⟩

/-- Nodes `B` and `C` that send what is for `D` to each other. -/
def twoNodeCircle : Overlay String where
  nodes := [("A", ⟨.gateway, .cpp⟩), ("B", ⟨.peer, .cpp⟩), ("C", ⟨.peer, .cpp⟩),
    ("D", ⟨.peer, .cpp⟩)]
  routing := [("A", [("D", "B")]), ("B", [("D", "C")]), ("C", [("D", "B")])]
  dataOwners := ["D"]
  maxRows := 4096

/-- A `PullChunk` of the gateway for `D` goes back and forth between `B` and `C`. -/
theorem relays_do_not_end : ¬ ∀ (ov : Overlay String) (target start : String),
    (∀ ttl, Ends (forwardQuery ov target) (start, ttl)) ∧ Ends (pullChunk ov target) start := by
  intro h
  have hpull := (h twoNodeCircle "D" "B").2
  have hBC : pullChunk twoNodeCircle "D" "B" = some "C" := by decide
  have hCB : pullChunk twoNodeCircle "D" "C" = some "B" := by decide
  exact not_transGen_self hpull (Relation.TransGen.head hBC (.single hCB))

end Mini2.Relay
