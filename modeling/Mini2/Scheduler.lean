import Mathlib.Data.List.Rotate
import Mathlib.Algebra.BigOperators.Group.List.Basic
import Mathlib.Algebra.Ring.Int.Defs
import Mini2.Lib.Rotation

/-!
The scheduler that shares the production slots of a node among its requests: a vector of
entries and a cursor into it. A call of `next` serves the entry at the cursor; with weights it
stays there until the credits of the entry are used up.
-/

namespace Mini2.Scheduler

open Mini2.Rotation

/-! ### The scheduler -/

/-- The scheduler compares its mode with `fifo` and `round_robin`; any other text is weighted. -/
inductive Mode where
  | fifo | roundRobin | weightedRoundRobin
  deriving DecidableEq

structure Entry where
  rid : String
  weight : ℤ
  credits : ℤ
  deriving DecidableEq

structure FairScheduler where
  mode : Mode
  q : List Entry
  cursor : ℕ
  deriving DecidableEq

def empty (mode : Mode) : FairScheduler := ⟨mode, [], 0⟩

def find (s : FairScheduler) (rid : String) : Option ℕ := s.q.findIdx? fun e => e.rid = rid

def add (s : FairScheduler) (rid : String) (weight : ℤ) : FairScheduler :=
  match find s rid with
  | some i => { s with q := s.q.modify i fun e => { e with weight := weight } }
  | none => { s with q := s.q ++ [⟨rid, weight, weight⟩] }

def remove (s : FairScheduler) (rid : String) : FairScheduler :=
  match find s rid with
  | some i =>
    let q := s.q.eraseIdx i
    { s with q := q, cursor := if s.cursor ≥ q.length then 0 else s.cursor }
  | none => s

def front (s : FairScheduler) : String :=
  match s.q with
  | [] => ""
  | e :: _ => e.rid

def advance (s : FairScheduler) : FairScheduler :=
  { s with cursor := (s.cursor + 1) % s.q.length }

/-- The entry at the cursor becomes `e`. -/
def put (s : FairScheduler) (e : Entry) : FairScheduler := { s with q := s.q.set s.cursor e }

/-- The loop of `next`, with at most `tries` rounds. -/
def scan : ℕ → FairScheduler → String × FairScheduler
  | 0, s => (front s, s)
  | tries + 1, s =>
    match s.q[s.cursor]? with
    | none => ("", s)  -- the cursor is outside the vector, which no call leads to
    | some e =>
      match s.mode with
      | .fifo => (front s, s)
      | .roundRobin => (e.rid, advance s)
      | .weightedRoundRobin =>
        if e.credits > 0 then
          if e.credits - 1 = 0 then (e.rid, advance (put s { e with credits := e.weight }))
          else (e.rid, put s { e with credits := e.credits - 1 })
        else scan tries (advance (put s { e with credits := e.weight }))

/-- The request that gets the next slot, `""` if there is none. -/
def next (s : FairScheduler) : String × FairScheduler :=
  if s.q = [] then ("", s) else scan (s.q.length + 1) s

def size (s : FairScheduler) : ℕ := s.q.length

/-! ### What a call changes -/

@[simp] lemma put_mode (s : FairScheduler) (e : Entry) : (put s e).mode = s.mode := rfl
@[simp] lemma put_cursor (s : FairScheduler) (e : Entry) : (put s e).cursor = s.cursor := rfl
@[simp] lemma put_q (s : FairScheduler) (e : Entry) : (put s e).q = s.q.set s.cursor e := rfl
@[simp] lemma advance_mode (s : FairScheduler) : (advance s).mode = s.mode := rfl
@[simp] lemma advance_q (s : FairScheduler) : (advance s).q = s.q := rfl
@[simp] lemma advance_cursor (s : FairScheduler) :
    (advance s).cursor = (s.cursor + 1) % s.q.length := rfl

/-- The entries from the cursor on, and around to it. -/
def ring (s : FairScheduler) : List Entry := s.q.rotate s.cursor

lemma ring_eq {s : FairScheduler} (h : s.cursor < s.q.length) :
    ring s = s.q.drop s.cursor ++ s.q.take s.cursor :=
  List.rotate_eq_drop_append_take h.le

lemma ring_getElem {s : FairScheduler} (h : s.cursor < s.q.length) {e : Entry}
    {rest : List Entry} (hring : ring s = e :: rest) : s.q[s.cursor]? = some e := by
  rw [ring_eq h, List.drop_eq_getElem_cons h, List.cons_append] at hring
  rw [List.getElem?_eq_getElem h, (List.cons.inj hring).1]

lemma ring_put {s : FairScheduler} (h : s.cursor < s.q.length) {e e' : Entry}
    {rest : List Entry} (hring : ring s = e :: rest) : ring (put s e') = e' :: rest := by
  have hlen : s.cursor < (s.q.set s.cursor e').length := by simpa using h
  rw [ring_eq h, List.drop_eq_getElem_cons h, List.cons_append] at hring
  rw [ring_eq (by simpa using h), put_q, put_cursor, List.drop_eq_getElem_cons hlen,
    List.getElem_set_self, List.drop_set_of_lt (by omega), List.take_set_of_le (by omega),
    List.cons_append, (List.cons.inj hring).2]

lemma ring_advance {s : FairScheduler} {e : Entry} {rest : List Entry}
    (hring : ring s = e :: rest) : ring (advance s) = rest ++ [e] := by
  have hrot : ring (advance s) = (ring s).rotate 1 := by
    unfold ring
    rw [advance_q, advance_cursor, List.rotate_mod, List.rotate_rotate]
  rw [hrot, hring, List.rotate_cons_succ, List.rotate_zero]

lemma next_of_roundRobin {s : FairScheduler} {e : Entry} (hm : s.mode = .roundRobin)
    (he : s.q[s.cursor]? = some e) : next s = (e.rid, advance s) := by
  have hne : s.q ≠ [] := by
    intro h
    simp [h] at he
  unfold next
  rw [if_neg hne, scan, he]
  simp [hm]

lemma next_of_credits {s : FairScheduler} {e : Entry} (hm : s.mode = .weightedRoundRobin)
    (he : s.q[s.cursor]? = some e) (hc : 0 < e.credits) :
    next s = if e.credits = 1 then (e.rid, advance (put s { e with credits := e.weight }))
      else (e.rid, put s { e with credits := e.credits - 1 }) := by
  have hne : s.q ≠ [] := by
    intro h
    simp [h] at he
  unfold next
  rw [if_neg hne, scan, he]
  simp only [hm, gt_iff_lt, if_pos hc]
  by_cases h1 : e.credits = 1
  · rw [if_pos (by omega), if_pos h1]
  · rw [if_neg (by omega), if_neg h1]

/-! ### Shares -/

/-- The scheduler after `k` calls of `next`. -/
def after (k : ℕ) (s : FairScheduler) : FairScheduler := (fun s => (next s).2)^[k] s

def calls (k : ℕ) (s : FairScheduler) : List String :=
  turns (fun s => (next s).1) (fun s => (next s).2) k s

def addAll (mode : Mode) (entries : List (String × ℤ)) : FairScheduler :=
  entries.foldl (fun s p => add s p.1 p.2) (empty mode)

def Entry.slots (e : Entry) : List String := List.replicate e.weight.toNat e.rid

/-- The calls of `next` from here until the cursor and the credits are back where they are. -/
def plan (s : FairScheduler) : List String :=
  match s.mode with
  | .weightedRoundRobin =>
    match ring s with
    | [] => []
    | e :: rest => List.replicate e.credits.toNat e.rid ++ rest.flatMap Entry.slots ++
        List.replicate (e.weight - e.credits).toNat e.rid
  | _ => (ring s).map Entry.rid

/-- Only the entry at the cursor has used credits. -/
structure Primed (s : FairScheduler) : Prop where
  mode : s.mode = .weightedRoundRobin
  bound : s.cursor < s.q.length
  credits : ∃ e rest, ring s = e :: rest ∧ 1 ≤ e.credits ∧ e.credits ≤ e.weight ∧
    ∀ e' ∈ rest, 1 ≤ e'.credits ∧ e'.credits = e'.weight

/-- No entry has used credits. -/
structure Full (s : FairScheduler) : Prop where
  mode : s.mode = .weightedRoundRobin
  bound : s.cursor < s.q.length
  credits : ∀ e ∈ ring s, 1 ≤ e.credits ∧ e.credits = e.weight

variable {s : FairScheduler}

lemma replicate_pred {α : Type} {n : ℤ} (h : 1 ≤ n) (a : α) :
    List.replicate n.toNat a = a :: List.replicate (n - 1).toNat a := by
  have hn : n.toNat = (n - 1).toNat + 1 := by omega
  rw [hn, List.replicate_succ]

lemma replicate_succ {α : Type} {n : ℤ} (h : 0 ≤ n) (a : α) :
    List.replicate (n + 1).toNat a = List.replicate n.toNat a ++ [a] := by
  have hn : (n + 1).toNat = n.toNat + 1 := by omega
  rw [hn, List.replicate_succ']

lemma advance_bound (h : s.cursor < s.q.length) :
    (advance s).cursor < (advance s).q.length := by
  rw [advance_cursor, advance_q]
  exact Nat.mod_lt _ (by omega)

lemma ring_cons (h : s.cursor < s.q.length) : ∃ e rest, ring s = e :: rest := by
  cases hr : ring s with
  | nil =>
    have hnil := List.rotate_eq_nil_iff.mp hr
    rw [hnil] at h
    exact absurd h (Nat.not_lt_zero _)
  | cons e rest => exact ⟨e, rest, rfl⟩

lemma Full.primed (h : Full s) : Primed s := by
  obtain ⟨e, rest, hring⟩ := ring_cons h.bound
  have hc := h.credits
  rw [hring] at hc
  obtain ⟨h1, hw⟩ := hc e List.mem_cons_self
  refine ⟨h.mode, h.bound, e, rest, hring, h1, by omega, ?_⟩
  exact fun e' he' => hc e' (List.mem_cons_of_mem _ he')

lemma Full.plan_eq (h : Full s) : plan s = (ring s).flatMap Entry.slots := by
  obtain ⟨e, rest, hring⟩ := ring_cons h.bound
  obtain ⟨-, hw⟩ := h.credits e (by rw [hring]; exact List.mem_cons_self)
  simp [plan, h.mode, hring, hw, Entry.slots]

/-- A call serves the first of the plan and puts it last. -/
def Turn (s : FairScheduler) : Prop :=
  ∃ tail, plan s = (next s).1 :: tail ∧ plan (next s).2 = tail ++ [(next s).1]

section Credits

variable {e : Entry} {rest : List Entry} (hm : s.mode = .weightedRoundRobin)
  (hb : s.cursor < s.q.length) (hring : ring s = e :: rest) (hle : e.credits ≤ e.weight)
  (hrest : ∀ e' ∈ rest, 1 ≤ e'.credits ∧ e'.credits = e'.weight)

include hm hb hring hle hrest

lemma Primed.spend (h1 : 1 < e.credits) : Primed (next s).2 ∧ Turn s := by
  have hnext := next_of_credits hm (ring_getElem hb hring) (by omega)
  rw [if_neg (by omega)] at hnext
  have hput : ring (put s { e with credits := e.credits - 1 }) =
      { e with credits := e.credits - 1 } :: rest := ring_put hb hring
  unfold Turn
  rw [hnext]
  refine ⟨⟨hm, by simpa using hb, _, _, hput, by simp; omega, by simp; omega, hrest⟩, ?_⟩
  refine ⟨List.replicate (e.credits - 1).toNat e.rid ++ rest.flatMap Entry.slots ++
    List.replicate (e.weight - e.credits).toNat e.rid, ?_, ?_⟩
  · simp [plan, hm, hring, replicate_pred (by omega : 1 ≤ e.credits)]
  · have heq : e.weight - (e.credits - 1) = e.weight - e.credits + 1 := by omega
    have hrep := replicate_succ (by omega : 0 ≤ e.weight - e.credits) e.rid
    simp [plan, hm, hput, heq, hrep]

/-- A call that takes the last credit serves the entry and passes the turn on. -/
lemma Primed.pass (h1 : e.credits = 1) : Primed (next s).2 ∧ Turn s := by
  have hnext := next_of_credits hm (ring_getElem hb hring) (by omega)
  rw [if_pos h1] at hnext
  have hput : ring (put s { e with credits := e.weight }) =
      { e with credits := e.weight } :: rest := ring_put hb hring
  have hring' := ring_advance hput
  have hfull : Full (advance (put s { e with credits := e.weight })) := by
    refine ⟨hm, advance_bound (by simpa using hb), ?_⟩
    rw [hring']
    intro e' he'
    rcases List.mem_append.mp he' with he' | he'
    · exact hrest e' he'
    · rw [List.mem_singleton.mp he']
      exact ⟨by simp; omega, rfl⟩
  unfold Turn
  rw [hnext]
  refine ⟨hfull.primed, rest.flatMap Entry.slots ++ List.replicate (e.weight - 1).toNat e.rid,
    ?_, ?_⟩
  · simp [plan, hm, hring, h1]
  · have hrep := replicate_succ (by omega : 0 ≤ e.weight - 1) e.rid
    rw [Int.sub_add_cancel] at hrep
    rw [hfull.plan_eq, hring']
    simp [Entry.slots, hrep]

end Credits

/-- Weighted: the entry at the cursor is served until its credits are used up. -/
lemma primed_rotates : Rotates (fun s => (next s).1) (fun s => (next s).2) Primed plan := by
  have key : ∀ s, Primed s → Primed (next s).2 ∧ Turn s := by
    rintro s ⟨hm, hb, e, rest, hring, h1, hle, hrest⟩
    rcases Int.lt_or_eq_of_le h1 with hlt | heq
    · exact Primed.spend hm hb hring hle hrest hlt
    · exact Primed.pass hm hb hring hle hrest heq.symm
  exact ⟨fun s hs => (key s hs).1, fun s hs => (key s hs).2⟩

lemma roundRobin_rotates : Rotates (fun s => (next s).1) (fun s => (next s).2)
    (fun s => s.mode = .roundRobin ∧ s.cursor < s.q.length) plan := by
  have key : ∀ s, s.mode = .roundRobin → s.cursor < s.q.length → ∃ e rest,
      ring s = e :: rest ∧ next s = (e.rid, advance s) := by
    intro s hm hb
    obtain ⟨e, rest, hring⟩ := ring_cons hb
    exact ⟨e, rest, hring, next_of_roundRobin hm (ring_getElem hb hring)⟩
  constructor
  · rintro s ⟨hm, hb⟩
    obtain ⟨e, rest, -, hnext⟩ := key s hm hb
    rw [hnext]
    exact ⟨hm, advance_bound hb⟩
  · rintro s ⟨hm, hb⟩
    obtain ⟨e, rest, hring, hnext⟩ := key s hm hb
    rw [hnext]
    refine ⟨rest.map Entry.rid, ?_, ?_⟩
    · simp [plan, hm, hring]
    · simp [plan, hm, ring_advance hring]

/-! ### What the adds build -/

lemma find_eq_none {rid : String} (h : ∀ e ∈ s.q, e.rid ≠ rid) : find s rid = none := by
  unfold find
  rw [List.findIdx?_eq_none_iff]
  intro e he
  simpa using h e he

lemma addAll_eq (mode : Mode) {entries : List (String × ℤ)}
    (hids : (entries.map Prod.fst).Nodup) :
    addAll mode entries = ⟨mode, entries.map fun p => ⟨p.1, p.2, p.2⟩, 0⟩ := by
  induction entries using List.reverseRecOn with
  | nil => rfl
  | append_singleton entries p ih =>
    rw [List.map_append, List.nodup_append] at hids
    obtain ⟨hids, -, hdisj⟩ := hids
    have hstep : addAll mode (entries ++ [p]) = add (addAll mode entries) p.1 p.2 := by
      simp [addAll]
    have hnone : find ⟨mode, entries.map fun p => ⟨p.1, p.2, p.2⟩, 0⟩ p.1 = none := by
      refine find_eq_none fun e he => ?_
      obtain ⟨p', hp', rfl⟩ := List.mem_map.mp he
      exact hdisj p'.1 (List.mem_map_of_mem hp') p.1 (by simp)
    rw [hstep, ih hids, add, hnone]
    simp

variable {entries : List (String × ℤ)}

lemma addAll_ring (mode : Mode) (hids : (entries.map Prod.fst).Nodup) :
    ring (addAll mode entries) = entries.map fun p => ⟨p.1, p.2, p.2⟩ := by
  rw [addAll_eq mode hids, ring, List.rotate_zero]

lemma addAll_bound (mode : Mode) (hids : (entries.map Prod.fst).Nodup) (hne : entries ≠ []) :
    (addAll mode entries).cursor < (addAll mode entries).q.length := by
  rw [addAll_eq mode hids, List.length_map]
  exact List.length_pos_iff.mpr hne

lemma addAll_full (hids : (entries.map Prod.fst).Nodup) (hw : ∀ p ∈ entries, 1 ≤ p.2)
    (hne : entries ≠ []) : Full (addAll .weightedRoundRobin entries) := by
  refine ⟨by rw [addAll_eq _ hids], addAll_bound _ hids hne, ?_⟩
  rw [addAll_ring _ hids]
  intro e he
  obtain ⟨p, hp, rfl⟩ := List.mem_map.mp he
  exact ⟨hw p hp, rfl⟩

lemma count_slots (hids : (entries.map Prod.fst).Nodup) {p : String × ℤ} (hp : p ∈ entries) :
    (entries.flatMap fun p => List.replicate p.2.toNat p.1).count p.1 = p.2.toNat := by
  induction entries with
  | nil => cases hp
  | cons p' entries ih =>
    obtain ⟨hnot, hids⟩ := List.nodup_cons.mp hids
    rw [List.flatMap_cons, List.count_append]
    rcases List.mem_cons.mp hp with rfl | hp
    · have hzero : (entries.flatMap fun p => List.replicate p.2.toNat p.1).count p.1 = 0 := by
        refine List.count_eq_zero_of_not_mem fun hmem => hnot ?_
        obtain ⟨p', hp', hrep⟩ := List.mem_flatMap.mp hmem
        rw [List.eq_of_mem_replicate hrep]
        exact List.mem_map_of_mem hp'
      rw [hzero, List.count_replicate_self, Nat.add_zero]
    · have hne : p'.1 ≠ p.1 := by
        intro h
        exact hnot (h ▸ List.mem_map_of_mem hp)
      rw [ih hids hp, List.count_replicate, if_neg (by simpa using hne), Nat.zero_add]

def weightSum (entries : List (String × ℤ)) : ℤ := (entries.map Prod.snd).sum

lemma length_slots (hw : ∀ p ∈ entries, 1 ≤ p.2) :
    ((entries.flatMap fun p => List.replicate p.2.toNat p.1).length : ℤ) = weightSum entries := by
  induction entries with
  | nil => rfl
  | cons p entries ih =>
    have hp := hw p List.mem_cons_self
    have hrest := ih fun p hp => hw p (List.mem_cons_of_mem _ hp)
    unfold weightSum at hrest ⊢
    rw [List.flatMap_cons, List.length_append, List.length_replicate, List.map_cons,
      List.sum_cons, ← hrest]
    push_cast
    omega

lemma addAll_plan (hids : (entries.map Prod.fst).Nodup) (hw : ∀ p ∈ entries, 1 ≤ p.2)
    (hne : entries ≠ []) : plan (addAll .weightedRoundRobin entries) =
      entries.flatMap fun p => List.replicate p.2.toNat p.1 := by
  rw [(addAll_full hids hw hne).plan_eq, addAll_ring _ hids, List.flatMap_map]
  rfl

lemma addAll_plan_roundRobin (hids : (entries.map Prod.fst).Nodup) :
    plan (addAll .roundRobin entries) = entries.map Prod.fst := by
  have hm : (addAll .roundRobin entries).mode = .roundRobin := by rw [addAll_eq _ hids]
  simp [plan, hm, addAll_ring _ hids]

/-- In a window of as many calls as the weights add up to, every id has its weight of them, and
between two services of an id lie no more calls than the other weights add up to. -/
def SharesByWeight (entries : List (String × ℤ)) (s : FairScheduler) : Prop :=
  ∀ p ∈ entries, ((calls (weightSum entries).toNat s).count p.1 : ℤ) = p.2 ∧
    ∀ m before others rest, calls m s = before ++ p.1 :: (others ++ p.1 :: rest) →
      p.1 ∉ others → (others.length : ℤ) ≤ weightSum entries - p.2

/-- In a window of as many calls as there are ids, every id has one. -/
def SharesEqually (entries : List (String × ℤ)) (s : FairScheduler) : Prop :=
  ∀ p ∈ entries, (calls entries.length s).count p.1 = 1

lemma after_after (m k : ℕ) (s : FairScheduler) : after m (after k s) = after (m + k) s := by
  unfold after
  rw [Function.iterate_add_apply]

lemma weighted_shares (hids : (entries.map Prod.fst).Nodup) (hw : ∀ p ∈ entries, 1 ≤ p.2)
    (k : ℕ) : SharesByWeight entries (after k (addAll .weightedRoundRobin entries)) := by
  intro p hp
  have hne : entries ≠ [] := List.ne_nil_of_mem hp
  have hprimed := (addAll_full hids hw hne).primed
  have hplan := addAll_plan hids hw hne
  have hlen := length_slots hw
  have hcount := count_slots hids hp
  have hp1 := hw p hp
  rw [← hplan] at hlen hcount
  constructor
  · have hperm := primed_rotates.window hprimed k
    rw [show (weightSum entries).toNat = (plan (addAll .weightedRoundRobin entries)).length by
      omega]
    have hc : (calls (plan (addAll .weightedRoundRobin entries)).length
        (after k (addAll .weightedRoundRobin entries))).count p.1 = p.2.toNat := by
      rw [← hcount]
      exact hperm.count_eq p.1
    omega
  · intro m before others rest hcalls hnot
    -- the calls between the two services are a window that leaves the id out
    have hsplit : calls m (after k (addAll .weightedRoundRobin entries)) =
        (before ++ [p.1]) ++ (others ++ p.1 :: rest) := by simpa using hcalls
    have hothers : calls others.length (after (before ++ [p.1]).length
        (after k (addAll .weightedRoundRobin entries))) = others := turns_infix hsplit
    rw [after_after] at hothers
    obtain ⟨hgood, hperm⟩ := primed_rotates.iterate hprimed ((before ++ [p.1]).length + k)
    have hmem : p.1 ∈ plan (addAll .weightedRoundRobin entries) := by
      rw [← List.count_pos_iff]
      omega
    have hgap := primed_rotates.gap hgood (hperm.mem_iff.mpr hmem) (m := others.length)
      (by unfold calls after at hothers; rw [hothers]; exact hnot)
    rw [hperm.count_eq, hperm.length_eq, hcount] at hgap
    omega

lemma roundRobin_shares (hids : (entries.map Prod.fst).Nodup) (k : ℕ) :
    SharesEqually entries (after k (addAll .roundRobin entries)) := by
  intro p hp
  have hne : entries ≠ [] := List.ne_nil_of_mem hp
  have hm : (addAll .roundRobin entries).mode = .roundRobin := by rw [addAll_eq _ hids]
  have hperm := roundRobin_rotates.window ⟨hm, addAll_bound _ hids hne⟩ k
  rw [addAll_plan_roundRobin hids, List.length_map] at hperm
  have hcount : (calls entries.length (after k (addAll .roundRobin entries))).count p.1 =
      (entries.map Prod.fst).count p.1 := hperm.count_eq p.1
  rw [hcount]
  exact List.count_eq_one_of_mem hids (List.mem_map_of_mem hp)

/-- **Slots are shared by weight.** After any number of calls, with the weights as shares or
without them. -/
theorem fair_shares (hids : (entries.map Prod.fst).Nodup) (hw : ∀ p ∈ entries, 1 ≤ p.2) (k : ℕ) :
    SharesByWeight entries (after k (addAll .weightedRoundRobin entries)) ∧
      SharesEqually entries (after k (addAll .roundRobin entries)) :=
  ⟨weighted_shares hids hw k, roundRobin_shares hids k⟩

/-- Three requests with weights 2, 1 and 3, from the middle of the first one's credits. -/
theorem fair_shares_three :
    SharesByWeight [("a", 2), ("b", 1), ("c", 3)]
        (after 1 (addAll .weightedRoundRobin [("a", 2), ("b", 1), ("c", 3)])) ∧
      SharesEqually [("a", 2), ("b", 1), ("c", 3)]
        (after 1 (addAll .roundRobin [("a", 2), ("b", 1), ("c", 3)])) :=
  fair_shares (by simp) (by simp) 1

example : calls 6 (after 1 (addAll .weightedRoundRobin [("a", 2), ("b", 1), ("c", 3)])) =
    ["a", "b", "c", "c", "c", "a"] := by decide

/-! ### Ids and cursor -/

lemma find_eq_some {rid : String} {i : ℕ} (h : find s rid = some i) :
    ∃ e, s.q[i]? = some e ∧ e.rid = rid := by
  obtain ⟨hlt, hrid, -⟩ := List.findIdx?_eq_some_iff_getElem.mp h
  exact ⟨s.q[i], List.getElem?_eq_getElem hlt, by simpa using hrid⟩

lemma forall_of_find_eq_none {rid : String} (h : find s rid = none) : ∀ e ∈ s.q, e.rid ≠ rid := by
  intro e he
  simpa using List.findIdx?_eq_none_iff.mp h e he

lemma rids_set {i : ℕ} {e e' : Entry} (he : s.q[i]? = some e) (hrid : e'.rid = e.rid) :
    (s.q.set i e').map Entry.rid = s.q.map Entry.rid := by
  rw [List.map_set, hrid]
  obtain ⟨hlt, hget⟩ := List.getElem?_eq_some_iff.mp he
  have hi : i < (s.q.map Entry.rid).length := by simpa using hlt
  have hkeep := List.set_getElem_self hi
  rw [List.getElem_map, hget] at hkeep
  exact hkeep

lemma rids_add_of_not_mem {rid : String} (h : rid ∉ s.q.map Entry.rid) (weight : ℤ) :
    (add s rid weight).q.map Entry.rid = s.q.map Entry.rid ++ [rid] := by
  have hnone : find s rid = none :=
    find_eq_none fun e he heq => h (heq ▸ List.mem_map_of_mem he)
  unfold add
  rw [hnone, List.map_append]
  rfl

lemma rids_add_of_mem {rid : String} (h : rid ∈ s.q.map Entry.rid) (weight : ℤ) :
    (add s rid weight).q.map Entry.rid = s.q.map Entry.rid := by
  unfold add
  cases hf : find s rid with
  | none =>
    obtain ⟨e, he, heq⟩ := List.mem_map.mp h
    exact absurd heq (forall_of_find_eq_none hf e he)
  | some i =>
    obtain ⟨e, he, -⟩ := find_eq_some hf
    have hset := List.modify_eq_set_getElem? (fun e => { e with weight := weight }) i s.q
    rw [he] at hset
    simp only [hset]
    exact rids_set he rfl

lemma rids_remove (s : FairScheduler) (rid : String) :
    (remove s rid).q.map Entry.rid = (s.q.map Entry.rid).erase rid := by
  unfold remove
  cases hf : find s rid with
  | none =>
    have hnot : rid ∉ s.q.map Entry.rid := fun hmem => by
      obtain ⟨e, he, heq⟩ := List.mem_map.mp hmem
      exact forall_of_find_eq_none hf e he heq
    rw [List.erase_of_not_mem hnot]
  | some i =>
    have hidx : (s.q.map Entry.rid).idxOf? rid = some i := by
      rw [List.idxOf?, List.findIdx?_map]
      exact hf
    rw [List.erase_eq_eraseIdx, hidx]
    exact (List.eraseIdx_map ..).symm

lemma rids_scan (tries : ℕ) (s : FairScheduler) :
    (scan tries s).2.q.map Entry.rid = s.q.map Entry.rid := by
  induction tries generalizing s with
  | zero => rfl
  | succ tries ih =>
    unfold scan
    split
    · rfl
    next e he =>
      split
      · rfl
      · rfl
      · split
        · split
          · exact rids_set he rfl
          · exact rids_set he rfl
        · rw [ih]
          exact rids_set he rfl

lemma rids_next (s : FairScheduler) : (next s).2.q.map Entry.rid = s.q.map Entry.rid := by
  unfold next
  split
  · rfl
  · exact rids_scan _ s

def ids (s : FairScheduler) : List String := s.q.map Entry.rid

lemma ids_add_of_not_mem {rid : String} (h : rid ∉ ids s) (weight : ℤ) :
    ids (add s rid weight) = ids s ++ [rid] := rids_add_of_not_mem h weight

lemma ids_remove (s : FairScheduler) (rid : String) : ids (remove s rid) = (ids s).erase rid :=
  rids_remove s rid

lemma ids_next (s : FairScheduler) : ids (next s).2 = ids s := rids_next s

/-- The ids are distinct, and the cursor is at one of them, if there is one. -/
structure Sound (s : FairScheduler) : Prop where
  nodup : (s.q.map Entry.rid).Nodup
  bound : s.cursor < s.q.length ∨ s.q = [] ∧ s.cursor = 0

lemma Sound.cursor_lt (h : Sound s) (hne : s.q ≠ []) : s.cursor < s.q.length :=
  h.bound.resolve_right fun hnil => hne hnil.1

lemma Sound.add (h : Sound s) (rid : String) (weight : ℤ) : Sound (add s rid weight) := by
  constructor
  · by_cases hmem : rid ∈ s.q.map Entry.rid
    · rw [rids_add_of_mem hmem]
      exact h.nodup
    · rw [rids_add_of_not_mem hmem, ← List.concat_eq_append]
      exact h.nodup.concat hmem
  · left
    unfold Scheduler.add
    cases hf : find s rid with
    | some i =>
      obtain ⟨e, he, -⟩ := find_eq_some hf
      have hlt := h.cursor_lt (List.ne_nil_of_mem (List.mem_of_getElem? he))
      simpa using hlt
    | none =>
      rw [List.length_append, List.length_singleton]
      rcases h.bound with hlt | ⟨-, hzero⟩
      · exact Nat.lt_succ_of_lt hlt
      · simp [hzero]

lemma Sound.remove (h : Sound s) (rid : String) : Sound (remove s rid) := by
  constructor
  · rw [rids_remove]
    exact h.nodup.erase rid
  · unfold Scheduler.remove
    cases hf : find s rid with
    | none => exact h.bound
    | some i =>
      simp only
      split
      · rcases List.eq_nil_or_concat (s.q.eraseIdx i) with hnil | ⟨q, e, hq⟩
        · exact .inr ⟨hnil, rfl⟩
        · left
          simp [hq]
      · left
        omega

/-- From a state in which the cursor is at an entry the loop returns one of the ids, and the cursor
is at an entry again. -/
lemma scan_spec (tries : ℕ) (hb : s.cursor < s.q.length) :
    (scan tries s).1 ∈ s.q.map Entry.rid ∧ (scan tries s).2.cursor < (scan tries s).2.q.length := by
  have hfront : ∀ s : FairScheduler, s.cursor < s.q.length → front s ∈ s.q.map Entry.rid := by
    rintro ⟨mode, q, cursor⟩ hb
    cases q with
    | nil => exact absurd hb (Nat.not_lt_zero _)
    | cons e q => exact List.mem_map_of_mem List.mem_cons_self
  induction tries generalizing s with
  | zero => exact ⟨hfront s hb, hb⟩
  | succ tries ih =>
    have he := List.getElem?_eq_getElem hb
    have hmem : s.q[s.cursor].rid ∈ s.q.map Entry.rid := List.mem_map_of_mem (List.getElem_mem hb)
    rw [scan, he]
    cases hm : s.mode with
    | fifo => exact ⟨hfront s hb, hb⟩
    | roundRobin => exact ⟨hmem, advance_bound hb⟩
    | weightedRoundRobin =>
      have hput : ∀ e, (put s e).cursor < (put s e).q.length := fun e => by simpa using hb
      -- a round without credits passes the turn on
      have hpass : ∀ e, e.rid = s.q[s.cursor].rid →
          (scan tries (advance (put s e))).1 ∈ s.q.map Entry.rid ∧
          (scan tries (advance (put s e))).2.cursor <
            (scan tries (advance (put s e))).2.q.length := by
        intro e hrid
        have hrest := ih (advance_bound (hput e))
        rw [advance_q, put_q, rids_set he hrid] at hrest
        exact hrest
      simp only
      split
      · split
        · exact ⟨hmem, advance_bound (hput _)⟩
        · exact ⟨hmem, hput _⟩
      · exact hpass _ rfl

lemma Sound.next (h : Sound s) : Sound (next s).2 := by
  constructor
  · rw [rids_next]
    exact h.nodup
  · unfold Scheduler.next
    split
    · exact h.bound
    next hne => exact .inl (scan_spec _ (h.cursor_lt hne)).2

/-! ### Removing a request -/

/-- What calls of `add`, `remove` and `next` lead to. -/
inductive Reachable : FairScheduler → Prop where
  | empty (mode : Mode) : Reachable (empty mode)
  | add {s : FairScheduler} (rid : String) {weight : ℤ} (h : Reachable s) (hw : 1 ≤ weight) :
      Reachable (add s rid weight)
  | remove {s : FairScheduler} (rid : String) (h : Reachable s) : Reachable (remove s rid)
  | next {s : FairScheduler} (h : Reachable s) : Reachable (next s).2

/-- The ids are distinct, no entry is without credits and the cursor is at an entry, if there
is one. -/
structure WellFormed (s : FairScheduler) : Prop where
  ids : (s.q.map Entry.rid).Nodup
  credits : ∀ e ∈ s.q, 1 ≤ e.weight ∧ 1 ≤ e.credits
  bound : s.cursor = 0 ∨ s.cursor < s.q.length

lemma WellFormed.sound (h : WellFormed s) : Sound s := by
  refine ⟨h.ids, ?_⟩
  rcases h.bound with hzero | hlt
  · by_cases hnil : s.q = []
    · exact .inr ⟨hnil, hzero⟩
    · left
      rw [hzero]
      exact List.length_pos_iff.mpr hnil
  · exact .inl hlt

lemma Sound.wellFormed (h : Sound s) (hc : ∀ e ∈ s.q, 1 ≤ e.weight ∧ 1 ≤ e.credits) :
    WellFormed s :=
  ⟨h.nodup, hc, h.bound.elim .inr fun hnil => .inl hnil.2⟩

lemma WellFormed.cursor_lt (h : WellFormed s) (hne : s.q ≠ []) : s.cursor < s.q.length :=
  h.sound.cursor_lt hne

lemma WellFormed.empty (mode : Mode) : WellFormed (empty mode) :=
  ⟨List.nodup_nil, fun _ h => absurd h List.not_mem_nil, .inl rfl⟩

lemma WellFormed.credits_set (h : WellFormed s) {i : ℕ} {e' : Entry}
    (hc : 1 ≤ e'.weight ∧ 1 ≤ e'.credits) :
    ∀ e ∈ s.q.set i e', 1 ≤ e.weight ∧ 1 ≤ e.credits := by
  intro e he
  rcases List.mem_or_eq_of_mem_set he with hold | rfl
  · exact h.credits e hold
  · exact hc

lemma WellFormed.add (h : WellFormed s) (rid : String) {weight : ℤ} (hw : 1 ≤ weight) :
    WellFormed (add s rid weight) := by
  apply (h.sound.add rid weight).wellFormed
  unfold Scheduler.add
  cases hf : find s rid with
  | some i =>
    obtain ⟨e, he, -⟩ := find_eq_some hf
    have hset := List.modify_eq_set_getElem? (fun e => { e with weight := weight }) i s.q
    rw [he] at hset
    simp only [hset]
    exact h.credits_set ⟨hw, (h.credits e (List.mem_of_getElem? he)).2⟩
  | none =>
    intro e he
    rcases List.mem_append.mp he with he | he
    · exact h.credits e he
    · rw [List.mem_singleton.mp he]
      exact ⟨hw, hw⟩

lemma WellFormed.remove (h : WellFormed s) (rid : String) : WellFormed (remove s rid) := by
  apply (h.sound.remove rid).wellFormed
  unfold Scheduler.remove
  cases find s rid with
  | none => exact h.credits
  | some i => exact fun e he => h.credits e ((List.eraseIdx_sublist s.q i).subset he)

lemma next_of_fifo (hm : s.mode = .fifo) (hb : s.cursor < s.q.length) :
    next s = (front s, s) := by
  have hne : s.q ≠ [] := List.ne_nil_of_length_pos (by omega)
  unfold next
  rw [if_neg hne, scan, List.getElem?_eq_getElem hb]
  simp [hm]

lemma WellFormed.next (h : WellFormed s) : WellFormed (Scheduler.next s).2 := by
  apply h.sound.next.wellFormed
  by_cases hne : s.q = []
  · rw [Scheduler.next, if_pos hne]
    exact h.credits
  have hb := h.cursor_lt hne
  have he := List.getElem?_eq_getElem hb
  obtain ⟨hw, hc⟩ := h.credits _ (List.getElem_mem hb)
  cases hm : s.mode with
  | fifo =>
    rw [next_of_fifo hm hb]
    exact h.credits
  | roundRobin =>
    rw [next_of_roundRobin hm he]
    exact h.credits
  | weightedRoundRobin =>
    rw [next_of_credits hm he hc]
    split
    · exact h.credits_set ⟨hw, hw⟩
    · exact h.credits_set ⟨hw, by simp; omega⟩

theorem Reachable.wellFormed (h : Reachable s) : WellFormed s := by
  induction h with
  | empty mode => exact .empty mode
  | add rid _ hw ih => exact ih.add rid hw
  | remove rid _ ih => exact ih.remove rid
  | next _ ih => exact ih.next

lemma WellFormed.next_rid (h : WellFormed s) (hm : s.mode ≠ .fifo) {e : Entry}
    (he : s.q[s.cursor]? = some e) : (Scheduler.next s).1 = e.rid := by
  cases hmode : s.mode with
  | fifo => exact absurd hmode hm
  | roundRobin => rw [next_of_roundRobin hmode he]
  | weightedRoundRobin =>
    rw [next_of_credits hmode he (h.credits e (List.mem_of_getElem? he)).2]
    split <;> rfl

lemma WellFormed.rid_inj (h : WellFormed s) {i j : ℕ} {e e' : Entry} (hi : s.q[i]? = some e)
    (hj : s.q[j]? = some e') (hrid : e.rid = e'.rid) : i = j := by
  have hi' : (s.q.map Entry.rid)[i]? = some e.rid := by rw [List.getElem?_map, hi]; rfl
  have hj' : (s.q.map Entry.rid)[j]? = some e.rid := by rw [List.getElem?_map, hj, hrid]; rfl
  have hlt := (List.getElem?_eq_some_iff.mp hi').1
  exact (List.getElem?_inj hlt h.ids).mp (hi'.trans hj'.symm)

/-- The entry is behind the cursor, or only one other is left. -/
def OutOfTheWay (s : FairScheduler) (x : String) : Prop :=
  ∀ i, find s x = some i → s.cursor < i ∨ s.q.length = 2

instance (s : FairScheduler) (x : String) : Decidable (OutOfTheWay s x) :=
  match h : find s x with
  | none => .isTrue fun i hi => by rw [h] at hi; cases hi
  | some i => decidable_of_iff (s.cursor < i ∨ s.q.length = 2)
      ⟨fun hi j hj => by rw [h] at hj; cases hj; exact hi, fun hall => hall i h⟩

lemma remove_eq {x : String} {i : ℕ} (hf : find s x = some i) (hi : i < s.q.length) :
    remove s x = { s with
      q := s.q.eraseIdx i
      cursor := if s.cursor ≥ s.q.length - 1 then 0 else s.cursor } := by
  simp only [remove, hf, List.length_eraseIdx_of_lt hi]

lemma remove_behind {x : String} {i : ℕ} (hf : find s x = some i) (hi : i < s.q.length)
    (hlt : s.cursor < i) : (remove s x).q[(remove s x).cursor]? = s.q[s.cursor]? := by
  rw [remove_eq hf hi]
  simp only
  rw [if_neg (by omega), List.getElem?_eraseIdx_of_lt hlt]

/-- With two entries, the removal of the one before the cursor wraps it to the other. -/
lemma remove_of_two {x : String} {i : ℕ} (hf : find s x = some i) (hi : i < s.cursor)
    (hc : s.cursor < s.q.length) (h2 : s.q.length = 2) :
    (remove s x).q[(remove s x).cursor]? = s.q[s.cursor]? := by
  rw [remove_eq hf (by omega)]
  simp only
  rw [if_pos (by omega), List.getElem?_eraseIdx_of_ge (by omega)]
  congr 1
  omega

/-- Before the cursor, the entries move and the cursor does not: it skips an entry. -/
lemma remove_before {x : String} {i : ℕ} (hf : find s x = some i) (hi : i < s.cursor)
    (hc : s.cursor < s.q.length) (h2 : s.q.length ≠ 2) :
    ∃ j e, j ≠ s.cursor ∧ s.q[j]? = some e ∧ (remove s x).q[(remove s x).cursor]? = some e := by
  rw [remove_eq hf (by omega)]
  simp only
  by_cases hlast : s.cursor ≥ s.q.length - 1
  · rw [if_pos hlast]
    by_cases h0 : 0 < i
    · have hget := List.getElem?_eq_getElem (by omega : 0 < s.q.length)
      exact ⟨0, _, by omega, hget, by rw [List.getElem?_eraseIdx_of_lt h0, hget]⟩
    · have hget := List.getElem?_eq_getElem (by omega : 0 + 1 < s.q.length)
      exact ⟨0 + 1, _, by omega, hget, by rw [List.getElem?_eraseIdx_of_ge (by omega), hget]⟩
  · rw [if_neg hlast]
    have hget := List.getElem?_eq_getElem (by omega : s.cursor + 1 < s.q.length)
    exact ⟨s.cursor + 1, _, by omega, hget,
      by rw [List.getElem?_eraseIdx_of_ge (by omega), hget]⟩

/-- **A removal leaves the turn with its request** in every reachable state exactly if the
removed entry is not before the cursor, or only two are queued. -/
theorem turn_after_remove (h : Reachable s) (hm : s.mode ≠ .fifo) {x : String}
    (hx : x ≠ (next s).1) : (next (remove s x)).1 = (next s).1 ↔ OutOfTheWay s x := by
  cases hf : find s x with
  | none =>
    have hsame : remove s x = s := by simp [remove, hf]
    rw [hsame]
    refine ⟨fun _ i hi => ?_, fun _ => rfl⟩
    rw [hf] at hi
    cases hi
  | some i =>
    have hwf := h.wellFormed
    have hwf' := hwf.remove x
    have hm' : (remove s x).mode ≠ .fifo := by simpa [remove, hf] using hm
    obtain ⟨ex, hex, hrid⟩ := find_eq_some hf
    have hi := (List.getElem?_eq_some_iff.mp hex).1
    have hc := hwf.cursor_lt (List.ne_nil_of_length_pos (by omega))
    have he := List.getElem?_eq_getElem hc
    have hnext := hwf.next_rid hm he
    -- the request that has the turn is another one
    have hne : i ≠ s.cursor := by
      rintro rfl
      rw [he, Option.some.injEq] at hex
      exact hx (by rw [hnext, hex, hrid])
    constructor
    · intro hturn j hj
      rw [hf, Option.some.injEq] at hj
      subst hj
      by_contra hnot
      obtain ⟨j, e, hj, hget, hcur⟩ := remove_before hf (by omega) hc (by omega)
      rw [hwf'.next_rid hm' hcur, hnext] at hturn
      exact hj (hwf.rid_inj hget he hturn)
    · intro hout
      have hcur : (remove s x).q[(remove s x).cursor]? = s.q[s.cursor]? := by
        rcases Nat.lt_or_gt_of_ne hne with hlt | hgt
        · exact remove_of_two hf hlt hc ((hout i hf).resolve_left (by omega))
        · exact remove_behind hf hi hgt
      rw [hwf'.next_rid hm' (hcur.trans he), hnext]

/-- Three requests `a`, `b` and `c`, and the turn is `c`'s. -/
def atThird : FairScheduler := after 2 (addAll .roundRobin [("a", 1), ("b", 1), ("c", 1)])

lemma atThird_reachable : Reachable atThird :=
  .next (.next (.add "c" (.add "b" (.add "a" (.empty .roundRobin) (by decide)) (by decide))
    (by decide)))

theorem turn_after_remove_first :
    (next (remove (after 1 atThird) "b")).1 = (next (after 1 atThird)).1 ↔
      OutOfTheWay (after 1 atThird) "b" :=
  turn_after_remove atThird_reachable.next (by decide) (by decide)

/-- When `a` goes, `b` has the turn that was `c`'s. -/
theorem turn_not_kept : ¬ ∀ s, Reachable s → s.mode ≠ .fifo → ∀ x, x ≠ (next s).1 →
    (next (remove s x)).1 = (next s).1 := by
  intro h
  exact absurd (h atThird atThird_reachable (by decide) "a" (by decide)) (by decide)

end Mini2.Scheduler
