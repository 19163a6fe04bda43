import Mathlib.Logic.Function.Basic
import Mini2.Store

/-!
What one node keeps for one request: its place in the request table and in the scheduler,
and every `RequestState` made for it. A state is shared with the threads that hold it, so
it outlives its entry in the table; the states of a request are numbered in the order in
which they were made.
-/

namespace Mini2.Request

open Mini2.Proto Mini2.Store

variable {Query Row : Type}

/-- A node's data as its handlers use it. -/
structure Shard (Query Row : Type) where
  loaded : Bool
  size : ℕ
  predicateCanMatch : Query → Bool
  rangeSearch : Query → List ℕ
  fill : ℕ → Row
  size_of_not_loaded : loaded = false → size = 0

/-- The rows the node lists for a query when it registers it, in order. -/
def Shard.matchRows (sh : Shard Query Row) (q : Query) : List Row :=
  if sh.size = 0 then []
  else if sh.predicateCanMatch q then (sh.rangeSearch q).map sh.fill else []

def Shard.none (r : Row) : Shard Query Row where
  loaded := false
  size := 0
  predicateCanMatch _ := true
  rangeSearch _ := []
  fill _ := r
  size_of_not_loaded _ := rfl

def shardOf (ld : Loaded) : Shard Proto.Query TaxiRow where
  loaded := true
  size := ld.store.size
  predicateCanMatch := ld.store.predicateCanMatch
  rangeSearch := ld.store.rangeSearch ld.split
  fill := ld.store.fill
  size_of_not_loaded h := absurd h (by decide)

/-- The filter in front of the scan leaves nothing out, whatever the rows are filled with. -/
lemma matchRows_filled (ld : Loaded) (fill : ℕ → TaxiRow) (q : Proto.Query) :
    ({ shardOf ld with fill := fill } : Shard Proto.Query TaxiRow).matchRows q =
      (ld.store.rangeSearch ld.split q).map fill := by
  unfold Shard.matchRows shardOf
  simp only
  split
  case isTrue h0 =>
    have : ld.store.rangeSearch ld.split q = [] := by
      rw [PartitionStore.rangeSearch_eq, h0]
      rfl
    rw [this]
    rfl
  case isFalse =>
    split
    · rfl
    · next hc =>
      have : ld.store.rangeSearch ld.split q = [] := by
        rw [PartitionStore.rangeSearch_eq, List.filter_eq_nil_iff]
        intro i _
        rw [ld.store.predicateCanMatch_sound ld.ranges (by simpa using hc) i]
        simp
      rw [this]
      rfl

/-- A loaded store lists exactly its valid rows that satisfy the query. -/
theorem matchRows_shardOf (ld : Loaded) (q : Proto.Query) :
    (shardOf ld).matchRows q = ld.store.rows.filter (satisfies q) := by
  rw [← ld.store.map_fill_rangeSearch ld.split q]
  exact matchRows_filled ld ld.store.fill q

/-- The part of a `RequestState` that the data of the node is served from. -/
structure RequestState (Row : Type) where
  matched : List Row
  matchedIndices : List ℕ
  matchedCursor : ℕ
  cancelled : Bool
  doneProducing : Bool
  weight : ℤ

/-- The state `register_request` makes. -/
def newState (sh : Shard Query Row) (q : Query) (weight : ℤ) : RequestState Row :=
  let st : RequestState Row := ⟨[], [], 0, false, false, weight⟩
  if sh.size = 0 then st
  else if sh.predicateCanMatch q then
    let idxs := sh.rangeSearch q
    { st with matchedIndices := idxs, doneProducing := idxs.isEmpty }
  else { st with doneProducing := true }

/-- The producer thread of a node, as far as it works on this request: it has taken the id
from the scheduler, has the state `g`, has seen that there is work, or is at index `i` of a
batch that ends at `limit`, which it leaves with its cursor to store. -/
inductive Producer
  | idle
  | picked
  | got (g : ℕ)
  | checked (g : ℕ)
  | batch (g i limit : ℕ)
  | filling (g i limit : ℕ)
  | ending (g i : ℕ)
  deriving DecidableEq

/-- What one node keeps for one request; `scheduled` is how often its scheduler lists the id. -/
structure Entry (Row : Type) where
  table : Option ℕ
  scheduled : ℕ
  gens : ℕ
  obj : ℕ → RequestState Row
  producer : Producer

def Entry.empty : Entry Row := ⟨none, 0, 0, fun _ => ⟨[], [], 0, false, false, 1⟩, .idle⟩

def Entry.setObj (e : Entry Row) (g : ℕ) (st : RequestState Row) : Entry Row :=
  { e with obj := Function.update e.obj g st }

/-- `register_request`: the id enters the table and the scheduler, unless it is there. -/
def registerRequest (sh : Shard Query Row) (q : Query) (weight : ℤ) (e : Entry Row) : Entry Row :=
  match e.table with
  | some _ => e
  | none => { e with
      table := some e.gens
      scheduled := e.scheduled + 1
      gens := e.gens + 1
      obj := Function.update e.obj e.gens (newState sh q weight) }

/-- The id leaves the table. -/
def Entry.erase (e : Entry Row) : Entry Row := { e with table := none }

/-- The id leaves the scheduler, if it is there. -/
def Entry.unschedule (e : Entry Row) : Entry Row := { e with scheduled := e.scheduled - 1 }

/-- The locked part of `drop_request`. The `_drop` of a Python node takes two locks in turn, and
others can step between them. -/
def dropRequest (e : Entry Row) : Entry Row := e.erase.unschedule

inductive Removes (e : Entry Row) : Entry Row → Prop
  | erase : Removes e e.erase
  | unschedule : Removes e e.unschedule
  | drop : Removes e (dropRequest e)

def Entry.pop (e : Entry Row) (g n : ℕ) : Entry Row :=
  e.setObj g { e.obj g with matched := (e.obj g).matched.drop n }

def Entry.flag (e : Entry Row) (g : ℕ) : Entry Row :=
  e.setObj g { e.obj g with cancelled := true }

def Entry.clear (e : Entry Row) (g : ℕ) : Entry Row :=
  e.setObj g { e.obj g with matched := [] }

lemma registerRequest_table (sh : Shard Query Row) (q : Query) (weight : ℤ) (e : Entry Row) :
    (registerRequest sh q weight e).table ≠ none := by
  unfold registerRequest
  split
  next h => simp [h]
  next => simp

end Mini2.Request
