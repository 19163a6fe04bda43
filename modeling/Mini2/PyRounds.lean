import Mathlib.Logic.Relation
import Mini2.PyOwner

/-!
Rounds of a full tick of the producer and a call, at a Python node: the tick as the loop runs
through it without interruption, and how many rounds a request needs.
-/

namespace Mini2.PyRounds

open Mini2.Proto Mini2.Store Mini2.PyPartition Mini2.Request Mini2.Producer Mini2.PyOwner

/-! ### A tick and a call without interruption -/

section Functions

variable (p : Partition) (chunkMax : ℤ)

/-- The loop over a batch, `n` indices before its end. -/
def fillLoop (idxs : List ℕ) : ℕ → ℕ → List TaxiRow → ℕ × List TaxiRow
  | 0, i, matched => (i, matched)
  | n + 1, i, matched =>
    let matched := matched ++ [p.rowToProto (idxs.getD i 0)]
    if maxBuffered ≤ matched.length then (i + 1, matched) else fillLoop idxs n (i + 1) matched

/-- What the producer makes of a state it has found. -/
def produceState (st : RequestState TaxiRow) : RequestState TaxiRow :=
  if st.cancelled || st.doneProducing then st
  else if p.n = 0 then st
  else if maxBuffered ≤ st.matched.length then st
  else
    let idxs := st.matchedIndices
    let i := st.matchedCursor
    let stop := min idxs.length (i + batchSize .python chunkMax st.weight)
    let batch := fillLoop p idxs (stop - i) i st.matched
    { st with
      matched := batch.2
      matchedCursor := batch.1
      doneProducing := st.doneProducing || decide (idxs.length ≤ batch.1) }

/-- The body of the loop over the ids. -/
def produceFor (requests : String → Option ℕ) (obj : ℕ → RequestState TaxiRow) (rid : String) :
    ℕ → RequestState TaxiRow :=
  match requests rid with
  | none => obj
  | some g => Function.update obj g (produceState p chunkMax (obj g))

def tick (o : Owner) : Owner :=
  { o with
    obj := o.rrOrder.foldl (produceFor p chunkMax o.requests) o.obj
    rid := o.rrOrder.getLastD o.rid }

inductive Reply
  | notFound
  | chunk (rows : List TaxiRow) (isLast : Bool)
  deriving DecidableEq

/-- The reply ends the pulling. -/
def Reply.ends : Reply → Bool
  | .notFound => true
  | .chunk _ isLast => isLast

/-- A call has been added to those that took rows. -/
def serving (o : Owner) (c : Call) : Owner := { o with calls := o.calls ++ [c] }

def pullChunk (rid : String) (maxRows : ℤ) (o : Owner) : Reply × Owner :=
  match o.requests rid with
  | none => (.notFound, o)
  | some g =>
    let st := o.obj g
    let out := st.matched.take maxRows.toNat
    let matched := st.matched.drop maxRows.toNat
    let isLast := st.doneProducing && matched.isEmpty && out.isEmpty
    let o' := o.setObj g { st with matched := matched }
    let o' := if isLast then (o'.erase rid).unlist rid else o'
    (.chunk out isLast, serving o' ⟨rid, g, out, .replied isLast⟩)

def round (rid : String) (maxRows : ℤ) (o : Owner) : Reply × Owner :=
  pullChunk rid maxRows (tick p chunkMax o)

/-- The reply of round `k`, when round `j` pulls at most `sizes j` rows. -/
def reply (rid : String) : ℕ → (ℕ → ℤ) → Owner → Reply
  | 0, sizes, o => (round p chunkMax rid (sizes 0) o).1
  | k + 1, sizes, o => reply rid k (fun j => sizes (j + 1)) (round p chunkMax rid (sizes 0) o).2

/-- The matches that no call has taken yet. -/
def undelivered (o : Owner) (g : ℕ) : ℕ :=
  (searchRows p (o.query g)).length - (o.served g).length

end Functions

/-! ### They are runs of the node -/

section Runs

variable (p : Partition) (chunkMax : ℤ)

/-- A step of the producer. -/
def ProducerStep (o o' : Owner) : Prop :=
  snapshot o = some o' ∨ next o = some o' ∨ ∃ a, produce p chunkMax a o = some o'

abbrev Produced : Owner → Owner → Prop := Relation.ReflTransGen (ProducerStep p chunkMax)

/-- The node with the producer at a place in state `g`, which it has brought to `st`. -/
def busy (o : Owner) (g : ℕ) (st : RequestState TaxiRow) (producer : Request.Producer) : Owner :=
  { o with obj := Function.update o.obj g st, producer := producer }

/-- The producer is between two ticks. -/
def BetweenTicks (o : Owner) : Prop := o.producer = .idle ∧ o.order = []

variable {p chunkMax} {rs : List CsvRow} {o o' : Owner} {g : ℕ}

lemma reachable_producerStep (hr : Reachable p chunkMax o) (hs : ProducerStep p chunkMax o o') :
    Reachable p chunkMax o' := by
  rcases hs with hs | hs | ⟨a, hs⟩
  · exact .step (a := .snapshot) hr trivial hs
  · exact .step (a := .next) hr trivial hs
  · exact .step (a := .produce a) hr trivial hs

lemma reachable_produced (hr : Reachable p chunkMax o) (hs : Produced p chunkMax o o') :
    Reachable p chunkMax o' := by
  induction hs with
  | refl => exact hr
  | tail _ hstep ih => exact reachable_producerStep ih hstep

lemma busy_self (o : Owner) (g : ℕ) (producer : Request.Producer) :
    busy o g (o.obj g) producer = { o with producer := producer } := by
  unfold busy
  rw [Function.update_eq_self]

lemma step_busy (a : ProdAct) {st st' : RequestState TaxiRow} {here there : Request.Producer}
    (ha : a ≠ .pick)
    (hs : prodStep (shard p fun _ => []) .python chunkMax (busy o g st here).entry a =
      some (busy o g st' there).entry) :
    ProducerStep p chunkMax (busy o g st here) (busy o g st' there) := by
  refine .inr (.inr ⟨a, ?_⟩)
  unfold produce
  rw [if_neg ha, hs]
  rfl

section Places

variable (o) (g) (st : RequestState TaxiRow)

lemma step_finish (i : ℕ) : ProducerStep p chunkMax (busy o g st (.ending g i))
    (busy o g { st with
      matchedCursor := i
      doneProducing := st.doneProducing || decide (st.matchedIndices.length ≤ i) } .idle) :=
  step_busy .finish (by simp) (by simp [prodStep, finish, busy, Owner.entry, Entry.setObj])

variable {st}

lemma step_test (hc : st.cancelled = false) {i stop : ℕ} (hi : i < stop) :
    ProducerStep p chunkMax (busy o g st (.batch g i stop)) (busy o g st (.filling g i stop)) :=
  step_busy .test (by simp) (by simp [prodStep, test, busy, Owner.entry, hc, hi])

lemma step_leave {i stop : ℕ} (h : st.cancelled = true ∨ stop ≤ i) :
    ProducerStep p chunkMax (busy o g st (.batch g i stop)) (busy o g st (.ending g i)) := by
  refine step_busy .test (by simp) ?_
  rcases h with hc | hi
  · simp [prodStep, test, busy, Owner.entry, hc]
  · simp [prodStep, test, busy, Owner.entry, Nat.not_lt.mpr hi]

lemma step_push {i : ℕ} (stop : ℕ) (hi : i < st.matchedIndices.length) :
    ProducerStep p chunkMax (busy o g st (.filling g i stop)) (busy o g { st with
      matched := st.matched ++ [p.rowToProto (st.matchedIndices.getD i 0)] }
      (if maxBuffered ≤ (st.matched ++ [p.rowToProto (st.matchedIndices.getD i 0)]).length
        then .ending g (i + 1) else .batch g (i + 1) stop)) := by
  have hidx : st.matchedIndices[i]? = some (st.matchedIndices.getD i 0) := by
    rw [List.getD_eq_getElem?_getD, List.getElem?_eq_getElem hi]
    rfl
  refine step_busy .push (by simp) ?_
  simp only [prodStep, push, busy, Owner.entry, Entry.setObj, Function.update_self, hidx,
    Option.map_some, Function.update_idem]
  rfl

lemma produced_batch (hc : st.cancelled = false) {i n : ℕ}
    (hn : i + n ≤ st.matchedIndices.length) :
    Produced p chunkMax (busy o g st (.batch g i (i + n)))
      (busy o g { st with matched := (fillLoop p st.matchedIndices n i st.matched).2 }
        (.ending g (fillLoop p st.matchedIndices n i st.matched).1)) := by
  induction n generalizing i st with
  | zero => exact .single (step_leave o g (.inr le_rfl))
  | succ n ih =>
    refine .head (step_test o g hc (by omega)) (.head (step_push o g _ (by omega)) ?_)
    unfold fillLoop
    simp only
    split
    next => exact .refl
    next =>
      have hstop : i + (n + 1) = i + 1 + n := by omega
      rw [hstop]
      refine ih ?_ ?_
      · exact hc
      show i + 1 + n ≤ st.matchedIndices.length
      omega

lemma step_full (hfull : maxBuffered ≤ st.matched.length) :
    ProducerStep p chunkMax (busy o g st (.checked g)) (busy o g st .idle) := by
  refine step_busy .room (by simp) ?_
  simp only [prodStep, room, busy, Owner.entry, Function.update_self, hfull, if_true]

lemma step_room (hfull : ¬ maxBuffered ≤ st.matched.length) :
    ProducerStep p chunkMax (busy o g st (.checked g)) (busy o g st
      (.batch g st.matchedCursor (min st.matchedIndices.length
        (st.matchedCursor + batchSize .python chunkMax st.weight)))) := by
  refine step_busy .room (by simp) ?_
  simp only [prodStep, room, busy, Owner.entry, Function.update_self, hfull, if_false]

lemma produced_got (hcur : st.matchedCursor ≤ st.matchedIndices.length) :
    Produced p chunkMax (busy o g st (.got g)) (busy o g (produceState p chunkMax st) .idle) := by
  unfold produceState
  split
  next hflag =>
    refine .single (step_busy .check (by simp) ?_)
    simp only [prodStep, check, busy, Owner.entry, Function.update_self, hflag, if_true]
  next hflag =>
    split
    next h0 =>
      refine .single (step_busy .check (by simp) ?_)
      have hsize : (shard p fun _ => []).size = 0 := h0
      simp only [prodStep, check, busy, Owner.entry, Function.update_self, hflag, hsize, if_true]
      rfl
    next h0 =>
      have hcheck : ProducerStep p chunkMax (busy o g st (.got g)) (busy o g st (.checked g)) := by
        refine step_busy .check (by simp) ?_
        have hsize : ¬ (shard p fun _ => []).size = 0 := h0
        simp only [prodStep, check, busy, Owner.entry, Function.update_self, hflag, hsize,
          if_false]
        rfl
      refine .head hcheck ?_
      split
      next hfull => exact .single (step_full o g hfull)
      next hfull =>
        simp only [Bool.or_eq_true, not_or, Bool.not_eq_true] at hflag
        refine .head (step_room o g hfull) ?_
        have hle := min_le_left st.matchedIndices.length
          (st.matchedCursor + batchSize .python chunkMax st.weight)
        obtain ⟨n, hn⟩ := Nat.exists_eq_add_of_le (le_min hcur
          (Nat.le_add_right st.matchedCursor (batchSize .python chunkMax st.weight)))
        simp only [hn, Nat.add_sub_cancel_left] at hle ⊢
        exact (produced_batch o g hflag.1 hle).tail (step_finish o g _ _)

end Places

lemma produced_picked (h : OwnerOk p o) (hp : o.producer = .picked) :
    Produced p chunkMax o
      { o with obj := produceFor p chunkMax o.requests o.obj o.rid, producer := .idle } := by
  unfold produceFor
  have hget : ∀ {there : Request.Producer},
      Producer.get o.entry = some { o.entry with producer := there } →
        ProducerStep p chunkMax o { o with producer := there } := by
    intro there hs
    refine .inr (.inr ⟨.get, ?_⟩)
    simp only [produce, reduceCtorEq, if_false, prodStep, hs]
    rfl
  have hp' : o.entry.producer = .picked := hp
  cases hreq : o.requests o.rid with
  | none =>
    have ht : o.entry.table = none := hreq
    exact .single (hget (by simp only [Producer.get, hp', ht]))
  | some g =>
    have ht : o.entry.table = some g := hreq
    have hgot : ProducerStep p chunkMax o { o with producer := .got g } :=
      hget (by simp only [Producer.get, hp', ht])
    refine .head hgot ?_
    have hg := h.states.table g ht
    rw [← busy_self]
    exact produced_got o g (h.states.obj g hg).cursor

lemma produced_order (hh : p.Holds rs) (hr : Reachable p chunkMax o) (hp : o.producer = .idle) :
    Produced p chunkMax o { o with
      order := []
      obj := o.order.foldl (produceFor p chunkMax o.requests) o.obj
      rid := o.order.getLastD o.rid
      producer := .idle } := by
  generalize hids : o.order = ids
  induction ids generalizing o with
  | nil =>
    have hsame : { o with order := [], obj := o.obj, rid := o.rid, producer := .idle } = o := by
      rw [← hids, ← hp]
    exact hsame ▸ .refl
  | cons rid ids ih =>
    have hnext : ProducerStep p chunkMax o
        { o with order := ids, rid := rid, producer := .picked } := by
      refine .inr (.inl ?_)
      unfold next
      rw [hids]
      exact if_pos hp
    have hr' := reachable_producerStep hr hnext
    have hbody : Produced p chunkMax _ _ := produced_picked (ownerOk hh hr') rfl
    rw [List.getLastD_cons]
    exact .head hnext (hbody.trans (ih (reachable_produced hr' hbody) rfl rfl))

lemma produced_tick (hh : p.Holds rs) (hr : Reachable p chunkMax o) (hb : BetweenTicks o) :
    Produced p chunkMax o (tick p chunkMax o) := by
  have hsnap : ProducerStep p chunkMax o { o with order := o.rrOrder } := .inl (if_pos hb)
  have hall := produced_order hh (reachable_producerStep hr hsnap) hb.1
  have hsame : { o with
      order := []
      obj := o.rrOrder.foldl (produceFor p chunkMax o.requests) o.obj
      rid := o.rrOrder.getLastD o.rid
      producer := .idle } = tick p chunkMax o := by
    unfold tick
    rw [← hb.2, ← hb.1]
  exact .head hsnap (hsame ▸ hall)

/-! A tick that is under way comes to its end. -/

section Settling

variable (o) (g) {st : RequestState TaxiRow} {i stop : ℕ}

lemma idle_of_batch (hi : i ≤ stop) (hl : stop ≤ st.matchedIndices.length) :
    ∃ o', Produced p chunkMax (busy o g st (.batch g i stop)) o' ∧ o'.producer = .idle := by
  cases hc : st.cancelled with
  | true =>
    have hleave : ProducerStep p chunkMax (busy o g st (.batch g i stop))
        (busy o g st (.ending g i)) := step_leave o g (.inl hc)
    exact ⟨_, .head hleave (.single (step_finish o g st i)), rfl⟩
  | false =>
    obtain ⟨n, rfl⟩ := Nat.exists_eq_add_of_le hi
    exact ⟨_, (produced_batch o g hc hl).tail (step_finish o g _ _), rfl⟩

lemma idle_of_filling (hi : i < stop) (hl : stop ≤ st.matchedIndices.length) :
    ∃ o', Produced p chunkMax (busy o g st (.filling g i stop)) o' ∧ o'.producer = .idle := by
  have hpush : ProducerStep p chunkMax _ _ := step_push o g stop (hi.trans_le hl)
  split at hpush
  next => exact ⟨_, .head hpush (.single (step_finish o g _ _)), rfl⟩
  next =>
    obtain ⟨o', ho', hidle⟩ : ∃ o', Produced p chunkMax (busy o g { st with
        matched := st.matched ++ [p.rowToProto (st.matchedIndices.getD i 0)] }
        (.batch g (i + 1) stop)) o' ∧ o'.producer = .idle := idle_of_batch o g hi hl
    exact ⟨o', .head hpush ho', hidle⟩

lemma idle_of_checked (hcur : st.matchedCursor ≤ st.matchedIndices.length) :
    ∃ o', Produced p chunkMax (busy o g st (.checked g)) o' ∧ o'.producer = .idle := by
  by_cases hfull : maxBuffered ≤ st.matched.length
  · exact ⟨_, .single (step_full o g hfull), rfl⟩
  · obtain ⟨o', ho', hidle⟩ := idle_of_batch o g (le_min hcur (Nat.le_add_right _ _))
      (min_le_left st.matchedIndices.length
        (st.matchedCursor + batchSize .python chunkMax st.weight))
    exact ⟨o', .head (step_room o g hfull) ho', hidle⟩

lemma settles (hh : p.Holds rs) (hr : Reachable p chunkMax o) :
    ∃ o', Produced p chunkMax o o' ∧ BetweenTicks o' := by
  have h := ownerOk hh hr
  have hidle : ∃ o', Produced p chunkMax o o' ∧ o'.producer = .idle := by
    have hok := h.states.producer
    unfold ProducerOk at hok
    have hbusy : ∀ g, o = busy o g (o.obj g) o.producer := fun g => (busy_self o g _).symm
    cases hp : o.producer with
    | idle => exact ⟨o, .refl, hp⟩
    | picked => exact ⟨_, produced_picked h hp, rfl⟩
    | got g =>
      simp only [Owner.entry, hp] at hok
      rw [hbusy g, hp]
      exact ⟨_, produced_got o g (h.states.obj g hok).cursor, rfl⟩
    | checked g =>
      simp only [Owner.entry, hp] at hok
      rw [hbusy g, hp]
      exact idle_of_checked o g (h.states.obj g hok.1).cursor
    | batch g i stop =>
      simp only [Owner.entry, hp] at hok
      rw [hbusy g, hp]
      exact idle_of_batch o g hok.2.2.1 hok.2.2.2
    | filling g i stop =>
      simp only [Owner.entry, hp] at hok
      rw [hbusy g, hp]
      exact idle_of_filling o g hok.2.2.1 hok.2.2.2
    | ending g i =>
      rw [hbusy g, hp]
      exact ⟨_, .single (step_finish o g _ i), rfl⟩
  obtain ⟨o', ho', hp⟩ := hidle
  exact ⟨_, ho'.trans (produced_order hh (reachable_produced hr ho') hp), rfl, rfl⟩

end Settling

structure Kept (o o' : Owner) : Prop where
  requests : o'.requests = o.requests
  gens : o'.gens = o.gens
  query : o'.query = o.query
  calls : o'.calls = o.calls
  cancelled : ∀ g, (o'.obj g).cancelled = (o.obj g).cancelled

lemma kept_producerStep (h : OwnerOk p o) (hs : ProducerStep p chunkMax o o') : Kept o o' := by
  rcases hs with hs | hs | ⟨a, hs⟩
  · unfold snapshot at hs
    split at hs
    next =>
      obtain rfl := Option.some.inj hs
      exact ⟨rfl, rfl, rfl, rfl, fun _ => rfl⟩
    next => cases hs
  · unfold next at hs
    split at hs
    next =>
      split at hs
      next =>
        obtain rfl := Option.some.inj hs
        exact ⟨rfl, rfl, rfl, rfl, fun _ => rfl⟩
      next => cases hs
    next => cases hs
  · unfold produce at hs
    split at hs
    next => cases hs
    next =>
      obtain ⟨e, he, rfl⟩ := Option.map_eq_some_iff.mp hs
      exact ⟨rfl, rfl, rfl, rfl, (prodStep_each h.states he).2.cancelled⟩

lemma kept_produced (hh : p.Holds rs) (hr : Reachable p chunkMax o)
    (hs : Produced p chunkMax o o') : Kept o o' := by
  induction hs with
  | refl => exact ⟨rfl, rfl, rfl, rfl, fun _ => rfl⟩
  | tail hrun hstep ih =>
    have hlast := kept_producerStep (ownerOk hh (reachable_produced hr hrun)) hstep
    exact ⟨hlast.requests.trans ih.requests, hlast.gens.trans ih.gens,
      hlast.query.trans ih.query, hlast.calls.trans ih.calls,
      fun g => (hlast.cancelled g).trans (ih.cancelled g)⟩

section Calls

variable (o) {c : Call}

lemma step_load (hc : c.stage = .popped) :
    step p chunkMax (serving o c) (.call o.calls.length .load) =
      some (serving o { c with stage := .loaded (o.obj c.state).doneProducing }) := by
  simp [step, callStep, serving, Owner.setStage, hc]

lemma step_decide {done : Bool} (hc : c.stage = .loaded done) :
    step p chunkMax (serving o c) (.call o.calls.length .decide) = some (serving o { c with
      stage := .decided (done && (o.obj c.state).matched.isEmpty && c.rows.isEmpty) }) := by
  simp [step, callStep, serving, Owner.setStage, hc]

lemma step_reply (hc : c.stage = .decided false) :
    step p chunkMax (serving o c) (.call o.calls.length .reply) =
      some (serving o { c with stage := .replied false }) := by
  simp [step, callStep, serving, Owner.setStage, hc]

lemma step_drop (hc : c.stage = .decided true) :
    step p chunkMax (serving o c) (.call o.calls.length .reply) =
      some (serving (o.erase c.rid) { c with stage := .dropping }) := by
  simp [step, callStep, serving, Owner.setStage, Owner.erase, hc]

lemma step_unlist (hc : c.stage = .dropping) :
    step p chunkMax (serving o c) (.call o.calls.length .unlist) =
      some (serving (o.unlist c.rid) { c with stage := .replied true }) := by
  simp [step, callStep, serving, Owner.setStage, Owner.unlist, hc]

end Calls

lemma reachable_pullChunk (hr : Reachable p chunkMax o) (rid : String) (maxRows : ℤ) :
    Reachable p chunkMax (pullChunk rid maxRows o).2 := by
  unfold pullChunk
  cases hreq : o.requests rid with
  | none => exact hr
  | some g =>
    simp only
    set b := o.setObj g { o.obj g with matched := (o.obj g).matched.drop maxRows.toNat } with hb
    have hfind : step p chunkMax o (.find rid maxRows) =
        some { o with found := o.found ++ [(rid, g, maxRows)] } := by
      simp [step, find, hreq]
    have hpop : step p chunkMax { o with found := o.found ++ [(rid, g, maxRows)] }
        (.pop o.found.length) =
          some (serving b ⟨rid, g, (o.obj g).matched.take maxRows.toNat, .popped⟩) := by
      simp [step, pop, serving, hb, Owner.setObj, List.eraseIdx_append_of_length_le]
    have hpopped := (Runs.Reach.step hr trivial hfind).step trivial hpop
    have hloaded := hpopped.step trivial (step_load b rfl)
    have hdecided := hloaded.step trivial (step_decide b rfl)
    have hobj : b.obj g = { o.obj g with matched := (o.obj g).matched.drop maxRows.toNat } :=
      Function.update_self ..
    simp only [hobj] at hdecided
    split
    next hlast =>
      rw [hlast] at hdecided ⊢
      exact (hdecided.step trivial (step_drop b rfl)).step trivial (step_unlist (b.erase rid) rfl)
    next hlast =>
      rw [Bool.eq_false_iff.mpr hlast] at hdecided ⊢
      exact hdecided.step trivial (step_reply b rfl)

end Runs

/-! ### What a tick does for a request -/

section Ticks

variable {p : Partition} {rs : List CsvRow} {chunkMax : ℤ} {o : Owner} {g : ℕ}
  {st : RequestState TaxiRow} {requests : String → Option ℕ} {obj : ℕ → RequestState TaxiRow}
  {rid : String}

/-- There is something for the next call: rows, or the end. -/
def Supplied (st : RequestState TaxiRow) : Prop := st.doneProducing = true ∨ st.matched ≠ []

lemma fillLoop_ne_nil (idxs : List ℕ) (n i : ℕ) {matched : List TaxiRow} (h : matched ≠ []) :
    (fillLoop p idxs n i matched).2 ≠ [] := by
  induction n generalizing i matched with
  | zero => exact h
  | succ n ih =>
    unfold fillLoop
    simp only
    split
    next => simp
    next => exact ih (i + 1) (by simp)

lemma fillLoop_succ_ne_nil (idxs : List ℕ) (n i : ℕ) (matched : List TaxiRow) :
    (fillLoop p idxs (n + 1) i matched).2 ≠ [] := by
  unfold fillLoop
  simp only
  split
  next => simp
  next => exact fillLoop_ne_nil idxs n (i + 1) (by simp)

lemma batchSize_pos (hmax : 1 ≤ chunkMax) (weight : ℤ) : 0 < batchSize .python chunkMax weight := by
  unfold batchSize
  simp only
  omega

lemma cancelled_produceState : (produceState p chunkMax st).cancelled = st.cancelled := by
  unfold produceState
  split
  next => rfl
  next =>
    split
    next => rfl
    next => split <;> rfl

lemma Supplied.produceState (h : Supplied st) : Supplied (produceState p chunkMax st) := by
  unfold PyRounds.produceState
  split
  next => exact h
  next hflag =>
    have hne : st.matched ≠ [] := by
      rcases h with hd | hne
      · simp [hd] at hflag
      · exact hne
    split
    next => exact h
    next =>
      split
      next => exact h
      next => exact .inr (fillLoop_ne_nil _ _ _ hne)

lemma supplied_produceState (hn : 0 < p.n) (hmax : 1 ≤ chunkMax) (hc : st.cancelled = false) :
    Supplied (produceState p chunkMax st) := by
  unfold produceState
  split
  next hflag => exact .inl (by simpa [hc] using hflag)
  next =>
    rw [if_neg (by omega)]
    split
    next hfull =>
      refine .inr fun hnil => ?_
      rw [hnil] at hfull
      exact absurd hfull (by decide)
    next =>
      have hpos := batchSize_pos hmax st.weight
      simp only
      generalize hrest : min st.matchedIndices.length
        (st.matchedCursor + batchSize .python chunkMax st.weight) - st.matchedCursor = rest
      cases rest with
      | zero =>
        -- no index is left: the tick says so
        refine .inl ?_
        have hlast : st.matchedIndices.length ≤ st.matchedCursor := by omega
        simp [fillLoop, hlast]
      | succ rest => exact .inr (fillLoop_succ_ne_nil _ _ _ _)

lemma produceFor_eq (h : requests rid = some g) :
    produceFor p chunkMax requests obj rid g = produceState p chunkMax (obj g) := by
  unfold produceFor
  rw [h]
  exact Function.update_self ..

lemma produceFor_ne (h : requests rid ≠ some g) :
    produceFor p chunkMax requests obj rid g = obj g := by
  unfold produceFor
  cases hr : requests rid with
  | none => rfl
  | some g' =>
    have hgg : g ≠ g' := by
      rintro rfl
      exact h hr
    exact Function.update_of_ne hgg _ _

lemma cancelled_produceFor :
    (produceFor p chunkMax requests obj rid g).cancelled = (obj g).cancelled := by
  by_cases h : requests rid = some g
  · rw [produceFor_eq h, cancelled_produceState]
  · rw [produceFor_ne h]

lemma Supplied.foldl (order : List String) (h : Supplied (obj g)) :
    Supplied (order.foldl (produceFor p chunkMax requests) obj g) := by
  induction order generalizing obj with
  | nil => exact h
  | cons rid order ih =>
    refine ih ?_
    by_cases hr : requests rid = some g
    · rw [produceFor_eq hr]
      exact h.produceState
    · rw [produceFor_ne hr]
      exact h

lemma supplied_foldl (hn : 0 < p.n) (hmax : 1 ≤ chunkMax) (hreq : requests rid = some g)
    {order : List String} (hrid : rid ∈ order) (hc : (obj g).cancelled = false) :
    Supplied (order.foldl (produceFor p chunkMax requests) obj g) := by
  induction order generalizing obj with
  | nil => cases hrid
  | cons rid' order ih =>
    rcases List.mem_cons.mp hrid with rfl | hrid
    · refine Supplied.foldl order ?_
      rw [produceFor_eq hreq]
      exact supplied_produceState hn hmax hc
    · exact ih hrid (cancelled_produceFor.trans hc)

lemma cancelled_foldl (order : List String) :
    (order.foldl (produceFor p chunkMax requests) obj g).cancelled = (obj g).cancelled := by
  induction order generalizing obj with
  | nil => rfl
  | cons rid order ih => exact ih.trans cancelled_produceFor

lemma produceState_of_done (hd : st.doneProducing = true) : produceState p chunkMax st = st := by
  unfold produceState
  rw [if_pos (by simp [hd])]

lemma produceState_of_empty (hn : p.n = 0) : produceState p chunkMax st = st := by
  unfold produceState
  rw [if_pos hn]
  split <;> rfl

/-- A tick passes over a request that is not listed, or that it makes nothing of. -/
lemma foldl_same {order : List String}
    (h : ∀ rid ∈ order, requests rid = some g → produceState p chunkMax (obj g) = obj g) :
    order.foldl (produceFor p chunkMax requests) obj g = obj g := by
  induction order generalizing obj with
  | nil => rfl
  | cons rid order ih =>
    have hsame : produceFor p chunkMax requests obj rid g = obj g := by
      by_cases hr : requests rid = some g
      · rw [produceFor_eq hr]
        exact h rid List.mem_cons_self hr
      · exact produceFor_ne hr
    have hrest := @ih (produceFor p chunkMax requests obj rid) fun rid' hm hr => by
      rw [hsame]
      exact h rid' (List.mem_cons_of_mem _ hm) hr
    exact hrest.trans hsame

end Ticks

/-! ### The rounds of a request -/

section Rounds

variable (p : Partition) (chunkMax : ℤ)

/-- A registered request that is not cancelled, between two ticks. -/
structure Live (o : Owner) (rid : String) (g : ℕ) : Prop where
  reachable : Reachable p chunkMax o
  between : BetweenTicks o
  request : o.requests rid = some g
  cancelled : (o.obj g).cancelled = false

/-- The request has been produced, or the producer can get at it and at a row. -/
def CanFinish (o : Owner) (rid : String) (g : ℕ) : Prop :=
  (o.obj g).doneProducing = true ∨ 0 < p.n ∧ rid ∈ o.rrOrder

variable {p chunkMax} {rs : List CsvRow} {o : Owner} {rid : String} {g : ℕ}

lemma round_of_request (maxRows : ℤ) (hreq : o.requests rid = some g) :
    (round p chunkMax rid maxRows o).1.ends = false →
      (round p chunkMax rid maxRows o).2 = serving ((tick p chunkMax o).setObj g
        { (tick p chunkMax o).obj g with
          matched := ((tick p chunkMax o).obj g).matched.drop maxRows.toNat })
        ⟨rid, g, ((tick p chunkMax o).obj g).matched.take maxRows.toNat, .replied false⟩ := by
  have hreq' : (tick p chunkMax o).requests rid = some g := hreq
  unfold round pullChunk
  rw [hreq']
  intro hends
  simp only [Reply.ends] at hends ⊢
  rw [hends]
  rfl

lemma served_serving (o : Owner) (c : Call) (g : ℕ) :
    (serving o c).served g = o.served g ++ if c.state = g then c.rows else [] :=
  served_append o c o.found o.obj g

variable (p chunkMax) in
/-- A round that does not end the request leaves it there, and takes the first rows that are
buffered after the tick. -/
structure GoesOn (o o' : Owner) (rid : String) (g : ℕ) (maxRows : ℤ) : Prop where
  live : Live p chunkMax o' rid g
  done : (o'.obj g).doneProducing = ((tick p chunkMax o).obj g).doneProducing
  rrOrder : o'.rrOrder = o.rrOrder
  query : o'.query = o.query
  served : o'.served g =
    o.served g ++ ((tick p chunkMax o).obj g).matched.take maxRows.toNat

lemma Live.goesOn (hh : p.Holds rs) (h : Live p chunkMax o rid g) {maxRows : ℤ}
    (hends : (round p chunkMax rid maxRows o).1.ends = false) :
    GoesOn p chunkMax o (round p chunkMax rid maxRows o).2 rid g maxRows := by
  have hticked := reachable_produced h.reachable (produced_tick hh h.reachable h.between)
  have hreach : Reachable p chunkMax (round p chunkMax rid maxRows o).2 :=
    reachable_pullChunk hticked rid maxRows
  have hround := round_of_request maxRows h.request hends
  rw [hround] at hreach ⊢
  have hcancel : ((tick p chunkMax o).obj g).cancelled = false :=
    (cancelled_foldl o.rrOrder).trans h.cancelled
  refine ⟨⟨hreach, h.between, h.request, ?_⟩, ?_, rfl, rfl, ?_⟩
  · simpa [serving, Owner.setObj] using hcancel
  · simp [serving, Owner.setObj]
  · rw [served_serving, if_pos rfl]
    rfl

lemma ends_round (maxRows : ℤ) (hreq : o.requests rid = some g) :
    (round p chunkMax rid maxRows o).1.ends =
      (((tick p chunkMax o).obj g).doneProducing &&
        (((tick p chunkMax o).obj g).matched.drop maxRows.toNat).isEmpty &&
        (((tick p chunkMax o).obj g).matched.take maxRows.toNat).isEmpty) := by
  have hreq' : (tick p chunkMax o).requests rid = some g := hreq
  unfold round pullChunk
  rw [hreq']
  rfl

lemma supplied_tick (hmax : 1 ≤ chunkMax) (h : Live p chunkMax o rid g)
    (hfin : CanFinish p o rid g) : Supplied ((tick p chunkMax o).obj g) := by
  rcases hfin with hdone | ⟨hn, hrid⟩
  · exact Supplied.foldl o.rrOrder (.inl hdone)
  · exact supplied_foldl hn hmax h.request hrid h.cancelled

/-- A request that can finish has a row less to deliver after a round that does not end it. -/
lemma Live.progress (hh : p.Holds rs) (hmax : 1 ≤ chunkMax) (h : Live p chunkMax o rid g)
    (hfin : CanFinish p o rid g) {maxRows : ℤ} (hrows : 1 ≤ maxRows)
    (hends : (round p chunkMax rid maxRows o).1.ends = false) :
    CanFinish p (round p chunkMax rid maxRows o).2 rid g ∧
      undelivered p (round p chunkMax rid maxRows o).2 g < undelivered p o g := by
  obtain ⟨hlive, hdone, horder, hquery, hserved⟩ := h.goesOn hh hends
  have hsupplied := supplied_tick hmax h hfin
  have hne : ((tick p chunkMax o).obj g).matched ≠ [] := by
    intro hnil
    rw [ends_round maxRows h.request, hnil] at hends
    rcases hsupplied with hd | hne
    · simp [hd] at hends
    · exact hne hnil
  constructor
  · rcases hfin with hd | ⟨hn, hrid⟩
    · have hsame : (tick p chunkMax o).obj g = o.obj g :=
        foldl_same fun _ _ _ => produceState_of_done hd
      exact .inl (hdone.trans (by rw [hsame]; exact hd))
    · exact .inr ⟨hn, horder ▸ hrid⟩
  · have hok := ownerOk hh hlive.reachable
    have hg := (hok.requests rid g hlive.request).1
    have hall := congrArg List.length (hok.served g hg hlive.cancelled)
    rw [List.length_append, List.length_take] at hall
    have hlen := congrArg List.length hserved
    rw [List.length_append, List.length_take] at hlen
    have hpos := List.length_pos_iff.mpr hne
    unfold undelivered
    rw [hquery] at hall ⊢
    omega

/-- A request that cannot finish is not changed by a round, and is not ended by it. -/
lemma Live.stuck (hh : p.Holds rs) (h : Live p chunkMax o rid g) (hfin : ¬ CanFinish p o rid g)
    (maxRows : ℤ) : (round p chunkMax rid maxRows o).1.ends = false ∧
      Live p chunkMax (round p chunkMax rid maxRows o).2 rid g ∧
      ¬ CanFinish p (round p chunkMax rid maxRows o).2 rid g := by
  have hok := ownerOk hh h.reachable
  have hnot : (o.obj g).doneProducing = false := Bool.eq_false_iff.mpr fun hd => hfin (.inl hd)
  have hsame : (tick p chunkMax o).obj g = o.obj g := by
    refine foldl_same fun rid' hm hr => produceState_of_empty ?_
    have hid := (hok.requests rid' g hr).2.symm.trans (hok.requests rid g h.request).2
    subst hid
    by_contra hn
    exact hfin (.inr ⟨Nat.pos_of_ne_zero hn, hm⟩)
  have hends : (round p chunkMax rid maxRows o).1.ends = false := by
    rw [ends_round maxRows h.request, hsame, hnot]
    rfl
  obtain ⟨hlive, hdone, horder, -, -⟩ := h.goesOn hh hends
  refine ⟨hends, hlive, ?_⟩
  rintro (hd | ⟨hn, hrid⟩)
  · rw [hdone, hsame, hnot] at hd
    cases hd
  · exact hfin (.inr ⟨hn, horder ▸ hrid⟩)

lemma Live.finishes (hh : p.Holds rs) (hmax : 1 ≤ chunkMax) (h : Live p chunkMax o rid g)
    (hfin : CanFinish p o rid g) {sizes : ℕ → ℤ} (hsizes : ∀ k, 1 ≤ sizes k) {u : ℕ}
    (hu : undelivered p o g ≤ u) : ∃ k ≤ u, (reply p chunkMax rid k sizes o).ends = true := by
  induction u generalizing o sizes with
  | zero =>
    cases hends : (round p chunkMax rid (sizes 0) o).1.ends with
    | true => exact ⟨0, le_rfl, hends⟩
    | false =>
      have := (h.progress hh hmax hfin (hsizes 0) hends).2
      omega
  | succ u ih =>
    cases hends : (round p chunkMax rid (sizes 0) o).1.ends with
    | true => exact ⟨0, Nat.zero_le _, hends⟩
    | false =>
      obtain ⟨hfin', hlt⟩ := h.progress hh hmax hfin (hsizes 0) hends
      obtain ⟨k, hk, hlast⟩ :=
        ih (h.goesOn hh hends).live hfin' (fun j => hsizes (j + 1)) (by omega)
      exact ⟨k + 1, Nat.succ_le_succ hk, hlast⟩

lemma Live.never (hh : p.Holds rs) (h : Live p chunkMax o rid g) (hfin : ¬ CanFinish p o rid g)
    (k : ℕ) (sizes : ℕ → ℤ) : (reply p chunkMax rid k sizes o).ends = false := by
  induction k generalizing o sizes with
  | zero => exact (h.stuck hh hfin (sizes 0)).1
  | succ k ih =>
    obtain ⟨-, hlive, hfin'⟩ := h.stuck hh hfin (sizes 0)
    exact ih hlive hfin' _

/-- **When an owner finishes a request.** Whatever state a registered request is in, the producer
comes to the end of the tick it is in; and from there, rounds of a full tick and a call end it
within two more than it has undelivered matches exactly if it can finish. -/
theorem finishes_iff (rows : List CsvRow) (sortColumn : Option String) (chunkMax : ℤ)
    (hmax : 1 ≤ chunkMax) (o : Owner) (hr : Reachable (.load rows sortColumn) chunkMax o)
    (rid : String) (g : ℕ) (hreq : o.requests rid = some g)
    (hc : (o.obj g).cancelled = false) (sizes : ℕ → ℤ) (hsizes : ∀ k, 1 ≤ sizes k) :
    (∃ o', Produced (.load rows sortColumn) chunkMax o o' ∧ BetweenTicks o') ∧
      ∀ o', Produced (.load rows sortColumn) chunkMax o o' → BetweenTicks o' →
        ((∃ k < undelivered (.load rows sortColumn) o g + 2,
            (reply (.load rows sortColumn) chunkMax rid k sizes o').ends = true) ↔
          CanFinish (.load rows sortColumn) o' rid g) := by
  obtain ⟨rs, -, hh⟩ := Partition.load_spec rows sortColumn
  refine ⟨settles o hh hr, fun o' ho' hb => ?_⟩
  have hkept := kept_produced hh hr ho'
  have hlive : Live (.load rows sortColumn) chunkMax o' rid g :=
    ⟨reachable_produced hr ho', hb, hkept.requests ▸ hreq, (hkept.cancelled g).trans hc⟩
  have hsame : undelivered (.load rows sortColumn) o' g =
      undelivered (.load rows sortColumn) o g := by
    unfold undelivered Owner.served
    rw [hkept.query, hkept.calls]
  constructor
  · rintro ⟨k, -, hends⟩
    by_contra hfin
    rw [hlive.never hh hfin k sizes] at hends
    cases hends
  · intro hfin
    obtain ⟨k, hk, hends⟩ := hlive.finishes hh hmax hfin hsizes (Nat.le_of_eq hsame)
    exact ⟨k, by omega, hends⟩

lemma reachable_registered (rows : List CsvRow) :
    Reachable (.load rows none) 500
      (register (.load rows none) "r" ⟨[]⟩ 1 (fun _ => []) Owner.start) :=
  .step (a := .register "r" ⟨[]⟩ 1 fun _ => []) .init trivial rfl

theorem finishes_iff_trip : ∃ k < 3, (reply (.load [RangeTable.shortTrip] none) 500 "r" k
    (fun _ => 10) (register (.load [RangeTable.shortTrip] none) "r" ⟨[]⟩ 1 (fun _ => [])
      Owner.start)).ends = true := by
  have hiff := (finishes_iff [RangeTable.shortTrip] none 500 (by decide) _
    (reachable_registered [RangeTable.shortTrip]) "r" 0 rfl rfl (fun _ => 10)
    (fun _ => by decide)).2 _ .refl ⟨rfl, rfl⟩
  have hrows : undelivered (.load [RangeTable.shortTrip] none) (register
      (.load [RangeTable.shortTrip] none) "r" ⟨[]⟩ 1 (fun _ => []) Owner.start) 0 = 1 := by
    decide +kernel
  rw [hrows] at hiff
  exact hiff.mpr (.inr ⟨by decide +kernel, by decide +kernel⟩)

/-- At an owner without rows a request does not end. -/
theorem does_not_finish : ¬ ∀ (rows : List CsvRow) (sortColumn : Option String) (chunkMax : ℤ)
    (o : Owner) (rid : String) (g : ℕ) (sizes : ℕ → ℤ), 1 ≤ chunkMax →
    Reachable (.load rows sortColumn) chunkMax o → o.requests rid = some g →
    (o.obj g).cancelled = false → BetweenTicks o → (∀ k, 1 ≤ sizes k) →
    ∃ k < undelivered (.load rows sortColumn) o g + 2,
      (reply (.load rows sortColumn) chunkMax rid k sizes o).ends = true := by
  intro h
  obtain ⟨k, -, hends⟩ := h [] none 500 _ "r" 0 (fun _ => 10) (by decide)
    (reachable_registered []) rfl rfl ⟨rfl, rfl⟩ (fun _ => by decide)
  obtain ⟨rs, -, hh⟩ := Partition.load_spec [] none
  have hlive : Live (.load [] none) 500
      (register (.load [] none) "r" ⟨[]⟩ 1 (fun _ => []) Owner.start) "r" 0 :=
    ⟨reachable_registered [], ⟨rfl, rfl⟩, rfl, rfl⟩
  have hfin : ¬ CanFinish (.load [] none)
      (register (.load [] none) "r" ⟨[]⟩ 1 (fun _ => []) Owner.start) "r" 0 := by
    rintro (hd | ⟨hn, -⟩)
    · cases hd
    · cases hn
  rw [hlive.never hh hfin k] at hends
  cases hends

end Rounds

end Mini2.PyRounds
