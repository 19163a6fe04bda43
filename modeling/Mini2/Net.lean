import Mathlib.Data.Int.Notation
import Mathlib.Data.List.Basic

/-!
The overlay: the nodes, the next-hop table of each of them, and the data owners. Nothing
about a table is checked when it is loaded, so a route need not exist.
-/

namespace Mini2.Net

inductive Role | gateway | peer
  deriving DecidableEq

inductive Impl | cpp | python
  deriving DecidableEq

structure NodeSpec where
  role : Role
  impl : Impl
  deriving DecidableEq

/-- The part of `overlay.yaml` the nodes route and produce by; `routing[src][dst]` is the next
hop. An empty next hop is no entry. -/
structure Overlay (N : Type) where
  nodes : List (N × NodeSpec)
  routing : List (N × List (N × N))
  dataOwners : List N
  maxRows : ℤ

inductive RouteError (N : Type)
  | noRouting (src : N)
  | noRoute (src dst : N)
  deriving DecidableEq

variable {N : Type} [DecidableEq N]

def Overlay.hasNode (ov : Overlay N) (n : N) : Bool := (ov.nodes.lookup n).isSome

def Overlay.impl (ov : Overlay N) (n : N) : Impl :=
  ((ov.nodes.lookup n).map NodeSpec.impl).getD .cpp

def Overlay.role (ov : Overlay N) (n : N) : Role :=
  ((ov.nodes.lookup n).map NodeSpec.role).getD .peer

def Overlay.nextHop (ov : Overlay N) (src dst : N) : Except (RouteError N) N :=
  match ov.routing.lookup src with
  | none => .error (.noRouting src)
  | some row =>
    match row.lookup dst with
    | none => .error (.noRoute src dst)
    | some hop => .ok hop

/-- A chain of `n` nodes, with the gateway at its near end. -/
def Overlay.chain (n : ℕ) (dataOwners : List ℕ) : Overlay ℕ where
  nodes := (List.range n).map fun i => (i, ⟨if i = 0 then .gateway else .peer, .cpp⟩)
  routing := (List.range n).map fun i =>
    (i, (List.range n).map fun j => (j, if j < i then i - 1 else if i < j then i + 1 else i))
  dataOwners := dataOwners
  maxRows := 4096

/-- What a node finds when it looks for the next hop toward `target`. -/
inductive Toward (N : Type)
  | here
  | nowhere
  | unknown (nh : N)
  | hop (nh : N)
  deriving DecidableEq

def Overlay.toward (ov : Overlay N) (target name : N) : Toward N :=
  if target = name then .here
  else
    match ov.nextHop name target with
    | .error _ => .nowhere
    | .ok nh => if nh = name then .nowhere else if ov.hasNode nh then .hop nh else .unknown nh

variable {ov : Overlay N} {target n nh : N}

lemma toward_here_iff : ov.toward target n = .here ↔ n = target := by
  unfold Overlay.toward
  split
  next h => simp [h]
  next h =>
    refine iff_of_false ?_ (Ne.symm h)
    split
    · simp
    · split
      · simp
      · split <;> simp

lemma toward_hop_iff : ov.toward target n = .hop nh ↔
    n ≠ target ∧ ov.nextHop n target = .ok nh ∧ nh ≠ n ∧ ov.hasNode nh = true := by
  unfold Overlay.toward
  by_cases ht : target = n
  · simp [ht]
  · cases hn : ov.nextHop n target with
    | error e => simp [ht]
    | ok m =>
      by_cases hm : m = n
      · subst hm
        simp only [if_neg ht, if_true, reduceCtorEq, Except.ok.injEq, false_iff]
        rintro ⟨-, rfl, h, -⟩
        exact h rfl
      · by_cases hh : ov.hasNode m = true
        · simp only [if_neg ht, if_neg hm, if_pos hh, Toward.hop.injEq, Except.ok.injEq]
          refine ⟨?_, fun h => h.2.1⟩
          rintro rfl
          exact ⟨Ne.symm ht, rfl, hm, hh⟩
        · simp only [if_neg ht, if_neg hm, if_neg hh, reduceCtorEq, Except.ok.injEq, false_iff]
          rintro ⟨-, rfl, -, h⟩
          exact hh h

/-- Following the tables from `n` leads to `target` after `k` hops, each to a node of the
overlay. -/
def Routes (ov : Overlay N) (target : N) : ℕ → N → Prop
  | 0, n => n = target
  | k + 1, n => ∃ nh, ov.toward target n = .hop nh ∧ Routes ov target k nh

/-- Following the tables from `n` leads to `target`. -/
def Leads (ov : Overlay N) (target n : N) : Prop := ∃ k, Routes ov target k n

lemma leads_self : Leads ov target target := ⟨0, rfl⟩

lemma leads_hop_iff (h : ov.toward target n = .hop nh) :
    Leads ov target n ↔ Leads ov target nh := by
  refine ⟨?_, fun ⟨k, hk⟩ => ⟨k + 1, nh, h, hk⟩⟩
  rintro ⟨k, hk⟩
  cases k with
  | zero => exact absurd hk (toward_hop_iff.mp h).1
  | succ k =>
    obtain ⟨m, hm, hr⟩ := hk
    obtain rfl : m = nh := by simpa using hm.symm.trans h
    exact ⟨k, hr⟩

lemma not_leads (hh : ov.toward target n ≠ .here) (h : ∀ nh, ov.toward target n ≠ .hop nh) :
    ¬ Leads ov target n := by
  rintro ⟨k, hk⟩
  cases k with
  | zero => exact hh (toward_here_iff.mpr hk)
  | succ k =>
    obtain ⟨m, hm, -⟩ := hk
    exact h m hm

end Mini2.Net
