import Mathlib.Data.List.Nodup
import Mathlib.Data.List.Perm.Basic
import Mini2.Lib.Runs

/-!
The request table of a Python node and the order in which its producer visits the requests.
`_register` changes both while it holds `req_lock`; `_drop` lets go of it in between, so that
other calls see an id that is listed and not registered, and may register it again.
-/

namespace Mini2.RrOrder

open Mini2.Runs

/-- `requests` are the keys of the table. `registering` is the id that a `_register`, which holds
`req_lock`, is about to append; `drops` are the ids of the `_drop`s that have popped their id
and not yet removed it from the order. -/
structure Node where
  requests : List String
  rrOrder : List String
  registering : Option String
  drops : List String
  deriving DecidableEq

def Node.start : Node := ⟨[], [], none, []⟩

/-- The steps of the calls, each from a lock to the next one. A call that is not in between has
nothing to remember. -/
inductive Act
  | register (rid : String)
  | append
  | pop (rid : String)
  | remove (k : ℕ)
  deriving DecidableEq

def step (s : Node) : Act → Option Node
  | .register rid =>
    if s.registering ≠ none then none
    else if rid ∈ s.requests then some s
    else some { s with requests := rid :: s.requests, registering := some rid }
  | .append =>
    s.registering.map fun rid => { s with rrOrder := s.rrOrder ++ [rid], registering := none }
  | .pop rid =>
    if s.registering ≠ none then none
    else some { s with requests := s.requests.erase rid, drops := s.drops ++ [rid] }
  | .remove k =>
    (s.drops[k]?).map fun rid =>
      { s with rrOrder := s.rrOrder.erase rid, drops := s.drops.eraseIdx k }

def Quiet (s : Node) : Prop := s.registering = none ∧ s.drops = []

/-- The order has every registered id once, and no other. -/
structure InOrder (s : Node) : Prop where
  nodup : s.requests.Nodup
  perm : s.rrOrder.Perm s.requests

/-- An id is appended only while it is still listed for every `_drop` that is going to remove
it. -/
def Timely (s : Node) : Act → Prop
  | .append => ∀ rid ∈ s.registering, s.drops.count rid ≤ s.rrOrder.count rid
  | _ => True

instance (s : Node) (a : Act) : Decidable (Timely s a) := by
  cases a with
  | append =>
    unfold Timely
    cases h : s.registering with
    | none => exact isTrue (by simp)
    | some rid => exact decidable_of_iff (s.drops.count rid ≤ s.rrOrder.count rid) (by simp)
  | register => exact instDecidableTrue
  | pop => exact instDecidableTrue
  | remove => exact instDecidableTrue

/-! ### The steps -/

variable {s s' : Node} {a : Act} {rid : String} {k : ℕ}

lemma step_cases (hs : step s a = some s') :
    (∃ rid, a = .register rid ∧ s.registering = none ∧ rid ∈ s.requests ∧ s' = s) ∨
    (∃ rid, a = .register rid ∧ s.registering = none ∧ rid ∉ s.requests ∧
      s' = { s with requests := rid :: s.requests, registering := some rid }) ∨
    (∃ rid, a = .append ∧ s.registering = some rid ∧
      s' = { s with rrOrder := s.rrOrder ++ [rid], registering := none }) ∨
    (∃ rid, a = .pop rid ∧ s.registering = none ∧
      s' = { s with requests := s.requests.erase rid, drops := s.drops ++ [rid] }) ∨
    (∃ k rid, a = .remove k ∧ s.drops[k]? = some rid ∧
      s' = { s with rrOrder := s.rrOrder.erase rid, drops := s.drops.eraseIdx k }) := by
  cases a with
  | register rid =>
    obtain ⟨hfree, hs⟩ := Option.ite_none_left_eq_some.mp hs
    have hnone := not_not.mp hfree
    split at hs
    next hmem => exact .inl ⟨rid, rfl, hnone, hmem, (Option.some.inj hs).symm⟩
    next hnot => exact .inr (.inl ⟨rid, rfl, hnone, hnot, (Option.some.inj hs).symm⟩)
  | append =>
    obtain ⟨rid, hrid, rfl⟩ := Option.map_eq_some_iff.mp hs
    exact .inr (.inr (.inl ⟨rid, rfl, hrid, rfl⟩))
  | pop rid =>
    obtain ⟨hfree, hs⟩ := Option.ite_none_left_eq_some.mp hs
    exact .inr (.inr (.inr (.inl ⟨rid, rfl, not_not.mp hfree, (Option.some.inj hs).symm⟩)))
  | remove k =>
    obtain ⟨rid, hrid, rfl⟩ := Option.map_eq_some_iff.mp hs
    exact .inr (.inr (.inr (.inr ⟨k, rid, rfl, hrid, rfl⟩)))

/-- The id is registered, and has been appended. -/
def Listed (s : Node) (rid : String) : Prop := rid ∈ s.requests ∧ s.registering ≠ some rid

/-- A listed id is in the order once more than it is going to be removed. Of an id that is not
listed nothing will be left. -/
structure Counts (s : Node) : Prop where
  nodup : s.requests.Nodup
  registered : ∀ rid ∈ s.registering, rid ∈ s.requests
  listed : ∀ rid, Listed s rid → s.rrOrder.count rid = s.drops.count rid + 1
  unlisted : ∀ rid, ¬ Listed s rid → s.rrOrder.count rid ≤ s.drops.count rid

lemma count_eraseIdx (hk : s.drops[k]? = some rid) (rid' : String) :
    (s.drops.eraseIdx k).count rid' = s.drops.count rid' - if rid = rid' then 1 else 0 := by
  have hperm : s.drops.Perm (rid :: s.drops.eraseIdx k) := by
    obtain ⟨hlt, rfl⟩ := List.getElem?_eq_some_iff.mp hk
    exact (List.getElem_cons_eraseIdx_perm hlt).symm
  rw [hperm.count_eq, List.count_cons]
  simp

lemma Counts.register (hc : Counts s) (hfree : s.registering = none) (hnot : rid ∉ s.requests) :
    Counts { s with requests := rid :: s.requests, registering := some rid } := by
  have hiff : ∀ rid', Listed { s with requests := rid :: s.requests, registering := some rid } rid'
      ↔ Listed s rid' := by
    intro rid'
    unfold Listed
    simp only [hfree, List.mem_cons, ne_eq, Option.some.injEq, reduceCtorEq, not_false_eq_true,
      and_true]
    constructor
    · rintro ⟨rfl | hmem, hne⟩
      · exact absurd rfl hne
      · exact hmem
    · intro hmem
      exact ⟨.inr hmem, fun heq => hnot (heq ▸ hmem)⟩
  refine ⟨List.nodup_cons.mpr ⟨hnot, hc.nodup⟩, ?_,
    fun rid' hl => hc.listed rid' ((hiff rid').mp hl),
    fun rid' hl => hc.unlisted rid' fun hl' => hl ((hiff rid').mpr hl')⟩
  rintro rid' hrid'
  obtain rfl := Option.some.inj hrid'
  exact List.mem_cons_self

/-- The id is appended in time: of what has been there before, nothing will be left. -/
lemma Counts.append (hc : Counts s) (hreg : s.registering = some rid)
    (htime : s.drops.count rid ≤ s.rrOrder.count rid) :
    Counts { s with rrOrder := s.rrOrder ++ [rid], registering := none } := by
  have hmem := hc.registered rid hreg
  have heq : s.rrOrder.count rid = s.drops.count rid :=
    Nat.le_antisymm (hc.unlisted rid fun hl => hl.2 hreg) htime
  have hiff : ∀ rid', rid' ≠ rid → (Listed s rid' ↔ rid' ∈ s.requests) := fun rid' hne => by
    unfold Listed
    rw [hreg]
    exact and_iff_left fun h => hne (Option.some.inj h).symm
  refine ⟨hc.nodup, nofun, fun rid' hl => ?_, fun rid' hl => ?_⟩
  · by_cases hne : rid' = rid
    · subst hne
      simp [heq]
    · rw [List.count_append, List.count_singleton, if_neg (by simpa using Ne.symm hne)]
      exact hc.listed rid' ((hiff rid' hne).mpr hl.1)
  · by_cases hne : rid' = rid
    · subst hne
      exact absurd ⟨hmem, by simp⟩ hl
    · rw [List.count_append, List.count_singleton, if_neg (by simpa using Ne.symm hne)]
      exact hc.unlisted rid' fun hl' => hl ⟨hl'.1, by simp⟩

/-- An id is popped, whether or not it is registered: there is one more to remove it. -/
lemma Counts.pop (hc : Counts s) (hfree : s.registering = none) (rid : String) :
    Counts { s with requests := s.requests.erase rid, drops := s.drops ++ [rid] } := by
  have hlisted : ∀ rid', Listed s rid' ↔ rid' ∈ s.requests := fun rid' => by
    simp [Listed, hfree]
  refine ⟨hc.nodup.erase rid, fun rid' hr => ?_, fun rid' hl => ?_, fun rid' hl => ?_⟩
  · rw [hfree] at hr
    cases hr
  · obtain ⟨hne, hmem⟩ := (hc.nodup.mem_erase_iff).mp hl.1
    rw [List.count_append, List.count_singleton, if_neg (by simpa using Ne.symm hne)]
    exact hc.listed rid' ((hlisted rid').mpr hmem)
  · by_cases hne : rid' = rid
    · subst hne
      have hle : s.rrOrder.count rid' ≤ s.drops.count rid' + 1 := by
        by_cases hl' : Listed s rid'
        · exact Nat.le_of_eq (hc.listed rid' hl')
        · exact Nat.le_succ_of_le (hc.unlisted rid' hl')
      simpa using hle
    · rw [List.count_append, List.count_singleton, if_neg (by simpa using Ne.symm hne)]
      refine hc.unlisted rid' fun hl' => hl ⟨?_, by simp [hfree]⟩
      exact hc.nodup.mem_erase_iff.mpr ⟨hne, hl'.1⟩

lemma Counts.remove (hc : Counts s) (hk : s.drops[k]? = some rid) :
    Counts { s with rrOrder := s.rrOrder.erase rid, drops := s.drops.eraseIdx k } := by
  have hpos : 0 < s.drops.count rid := List.count_pos_iff.mpr (List.mem_of_getElem? hk)
  have hcount := count_eraseIdx hk
  refine ⟨hc.nodup, hc.registered, fun rid' hl => ?_, fun rid' hl => ?_⟩
  · have hbefore := hc.listed rid' hl
    rw [hcount]
    by_cases hne : rid = rid'
    · subst hne
      rw [List.count_erase_self, if_pos rfl]
      omega
    · rw [List.count_erase_of_ne (Ne.symm hne), if_neg hne]
      exact hbefore
  · have hbefore := hc.unlisted rid' hl
    rw [hcount]
    by_cases hne : rid = rid'
    · subst hne
      rw [List.count_erase_self, if_pos rfl]
      omega
    · rw [List.count_erase_of_ne (Ne.symm hne), if_neg hne]
      exact hbefore

lemma Counts.step (hc : Counts s) (hg : Timely s a) (hs : step s a = some s') : Counts s' := by
  rcases step_cases hs with ⟨rid, -, -, -, rfl⟩ | ⟨rid, -, hfree, hnot, rfl⟩ |
    ⟨rid, rfl, hreg, rfl⟩ | ⟨rid, -, hfree, rfl⟩ | ⟨k, rid, -, hk, rfl⟩
  · exact hc
  · exact hc.register hfree hnot
  · exact hc.append hreg (hg rid hreg)
  · exact hc.pop hfree rid
  · exact hc.remove hk

lemma counts_start : Counts .start :=
  ⟨List.nodup_nil, nofun, fun _ hl => absurd hl.1 List.not_mem_nil, fun _ _ => Nat.le_refl 0⟩

/-- Once no call is in progress, an id is listed as often as it is registered. -/
lemma Counts.inOrder (hc : Counts s) (hq : Quiet s) : InOrder s := by
  obtain ⟨hfree, hdrops⟩ := hq
  refine ⟨hc.nodup, List.perm_iff_count.mpr fun rid => ?_⟩
  by_cases hmem : rid ∈ s.requests
  · have hlisted := hc.listed rid ⟨hmem, by simp [hfree]⟩
    rw [hdrops] at hlisted
    rw [hlisted, List.count_eq_one_of_mem hc.nodup hmem]
    rfl
  · have hunlisted := hc.unlisted rid fun hl => hmem hl.1
    rw [hdrops] at hunlisted
    rw [List.count_eq_zero.mpr hmem]
    exact Nat.le_zero.mp hunlisted

/-- **The request table and the order of production agree** in every run in which ids are
appended in time. -/
theorem order_agrees (hr : Reach step Timely .start s) (hq : Quiet s) : InOrder s := by
  have hc : Counts s := hr.invariant counts_start fun _ _ _ _ hc hg hs => hc.step hg hs
  exact hc.inOrder hq

theorem order_agrees_again : InOrder ⟨["q"], ["q"], none, []⟩ := by
  have hs : run step Timely .start [.register "q", .append, .pop "q", .register "q", .append,
      .remove 0] = some ⟨["q"], ["q"], none, []⟩ := by decide
  exact order_agrees (reach_of_run .init hs) ⟨rfl, rfl⟩

/-- Two calls drop an id. Before they remove it, it is registered again, and so they leave a
request behind that the producer does not visit. -/
theorem not_order_agrees :
    ¬ ∀ s, Reach step (fun _ _ => True) .start s → Quiet s → InOrder s := by
  intro hall
  have hs : run step (fun _ _ => True) .start [.register "q", .append, .pop "q", .pop "q",
      .register "q", .append, .remove 0, .remove 0] = some ⟨["q"], [], none, []⟩ := by decide
  have horder := hall _ (reach_of_run .init hs) ⟨rfl, rfl⟩
  exact absurd horder.perm.length_eq (by decide)

end Mini2.RrOrder
