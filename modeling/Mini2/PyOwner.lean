import Mini2.Lib.Runs
import Mini2.Producer
import Mini2.RangeTable

/-!
A Python node that owns data: the thread that makes rows, which goes over all requests in turn,
and the calls that are answered beside it, each of them interrupted at every access to what
they share.
-/

namespace Mini2.PyOwner

open Mini2.Net Mini2.Proto Mini2.Store Mini2.PyPartition Mini2.Request Mini2.Producer

/-- The partition as the handlers use it. The table of column ranges is still being built: the
`k`-th access finds the columns `done k`. -/
def shard (p : Partition) (done : ℕ → List Column) : Shard Query TaxiRow where
  loaded := true
  size := p.n
  predicateCanMatch q :=
    RangeTable.predicateCanMatch (fun k => RangeTable.computeColumnRanges p (done k)) q.predicates
  rangeSearch q := p.rangeSearch q.predicates
  fill := p.rowToProto
  size_of_not_loaded h := absurd h (by decide)

def searchRows (p : Partition) (q : Query) : List TaxiRow :=
  (p.rangeSearch q.predicates).map p.rowToProto

/-! ### The node -/

inductive Stage
  | popped
  | loaded (done : Bool)
  | decided (isLast : Bool)
  | dropping
  | replied (isLast : Bool)
  deriving DecidableEq

structure Call where
  rid : String
  state : ℕ
  rows : List TaxiRow
  stage : Stage

/-- The states are numbered in the order in which they were made. `order` is what is left of
the producer's copy of `rr_order`, and `rid` the id it is at; `found` are the calls that have
looked their state up, `calls` those that have taken their rows, in the order they took them,
and `drops` those that are between the two locks of `_drop`. -/
structure Owner where
  requests : String → Option ℕ
  rrOrder : List String
  gens : ℕ
  requestId : ℕ → String
  query : ℕ → Query
  obj : ℕ → RequestState TaxiRow
  order : List String
  rid : String
  producer : Request.Producer
  found : List (String × ℕ × ℤ)
  calls : List Call
  drops : List String

def Owner.start : Owner where
  requests _ := none
  rrOrder := []
  gens := 0
  requestId _ := ""
  query _ := ⟨[]⟩
  obj _ := ⟨[], [], 0, false, false, 1⟩
  order := []
  rid := ""
  producer := .idle
  found := []
  calls := []
  drops := []

namespace Owner

def setObj (o : Owner) (g : ℕ) (st : RequestState TaxiRow) : Owner :=
  { o with obj := Function.update o.obj g st }

/-- A state that is made enters `requests` and `rr_order`. -/
def add (o : Owner) (rid : String) (q : Query) (st : RequestState TaxiRow) : Owner :=
  { o with
    requests := Function.update o.requests rid (some o.gens)
    rrOrder := o.rrOrder ++ [rid]
    gens := o.gens + 1
    requestId := Function.update o.requestId o.gens rid
    query := Function.update o.query o.gens q
    obj := Function.update o.obj o.gens st }

def setStage (o : Owner) (i : ℕ) (c : Call) (stage : Stage) : Owner :=
  { o with calls := o.calls.set i { c with stage := stage } }

/-- The id leaves `requests`. -/
def erase (o : Owner) (rid : String) : Owner :=
  { o with requests := Function.update o.requests rid none }

/-- The id leaves `rr_order`, if it is there. -/
def unlist (o : Owner) (rid : String) : Owner := { o with rrOrder := o.rrOrder.erase rid }

/-- The node as the producer sees it at the id it is at. -/
def entry (o : Owner) : Entry TaxiRow :=
  ⟨o.requests o.rid, o.rrOrder.count o.rid, o.gens, o.obj, o.producer⟩

/-- The rows of the calls for a state, in the order in which they were popped. -/
def served (o : Owner) (g : ℕ) : List TaxiRow :=
  (o.calls.filter fun c => c.state == g).flatMap Call.rows

end Owner

/-! ### Its steps -/

section Steps

variable (p : Partition) (chunkMax : ℤ)

def register (rid : String) (q : Query) (weight : ℤ) (done : ℕ → List Column) (o : Owner) :
    Owner :=
  match o.requests rid with
  | some _ => o
  | none => o.add rid q (newState (shard p done) q weight)

/-- The producer copies `rr_order`. -/
def snapshot (o : Owner) : Option Owner :=
  if o.producer = .idle ∧ o.order = [] then some { o with order := o.rrOrder } else none

/-- The producer goes on to the next id of its copy. -/
def next (o : Owner) : Option Owner :=
  match o.order with
  | rid :: rest =>
    if o.producer = .idle then some { o with order := rest, rid := rid, producer := .picked }
    else none
  | [] => none

def produce (a : ProdAct) (o : Owner) : Option Owner :=
  if a = .pick then none
  else (prodStep (shard p fun _ => []) .python chunkMax o.entry a).map fun e =>
    { o with obj := e.obj, producer := e.producer }

/-- A `PullChunk` looks its id up; for an id that is not there it ends with `NOT_FOUND`. -/
def find (rid : String) (maxRows : ℤ) (o : Owner) : Option Owner :=
  (o.requests rid).map fun g => { o with found := o.found ++ [(rid, g, maxRows)] }

/-- The call that is `k`-th in `found` takes its rows. -/
def pop (k : ℕ) (o : Owner) : Option Owner :=
  (o.found[k]?).map fun (rid, g, maxRows) =>
    let st := o.obj g
    { o.setObj g { st with matched := st.matched.drop maxRows.toNat } with
      found := o.found.eraseIdx k
      calls := o.calls ++ [⟨rid, g, st.matched.take maxRows.toNat, .popped⟩] }

inductive CallAct | load | decide | reply | unlist
  deriving DecidableEq

/-- The rest of a `PullChunk`, with the `_drop` of the last one. -/
def callStep (i : ℕ) (a : CallAct) (o : Owner) : Option Owner :=
  match o.calls[i]? with
  | none => none
  | some c =>
    match c.stage, a with
    | .popped, .load => some (o.setStage i c (.loaded (o.obj c.state).doneProducing))
    | .loaded done, .decide => some (o.setStage i c
        (.decided (done && (o.obj c.state).matched.isEmpty && c.rows.isEmpty)))
    | .decided isLast, .reply =>
      if isLast then some ((o.erase c.rid).setStage i c .dropping)
      else some (o.setStage i c (.replied false))
    | .dropping, .unlist => some ((o.unlist c.rid).setStage i c (.replied true))
    | _, _ => none

/-- What happens on the node. `mark` and `clear` are steps of a `CancelQuery` that has looked up
state `g`; `drop` and `unlist` are the two halves of the `_drop` of another call than a
`PullChunk`. -/
inductive Act
  | register (rid : String) (q : Query) (weight : ℤ) (done : ℕ → List Column)
  | snapshot
  | next
  | produce (a : ProdAct)
  | find (rid : String) (maxRows : ℤ)
  | pop (k : ℕ)
  | call (i : ℕ) (a : CallAct)
  | mark (g : ℕ)
  | clear (g : ℕ)
  | drop (rid : String)
  | unlist (k : ℕ)

def step (o : Owner) : Act → Option Owner
  | .register rid q weight done => some (register p rid q weight done o)
  | .snapshot => snapshot o
  | .next => next o
  | .produce a => produce p chunkMax a o
  | .find rid maxRows => find rid maxRows o
  | .pop k => pop k o
  | .call i a => callStep i a o
  | .mark g => if g < o.gens then some (o.setObj g { o.obj g with cancelled := true }) else none
  | .clear g =>
    if g < o.gens ∧ (o.obj g).cancelled = true then
      some (o.setObj g { o.obj g with matched := [] })
    else none
  | .drop rid => some { o.erase rid with drops := o.drops ++ [rid] }
  | .unlist k => (o.drops[k]?).map fun rid => { o.unlist rid with drops := o.drops.eraseIdx k }

/-- The states of the node, whatever calls it gets and however they and the producer take turns. -/
abbrev Reachable (o : Owner) : Prop :=
  Runs.Reach (step p chunkMax) (fun _ _ => True) Owner.start o

end Steps

/-! ### What holds in every state -/

/-- A state that is not cancelled has been served all its rows. -/
def Complete (p : Partition) (o : Owner) (g : ℕ) : Prop :=
  (o.obj g).cancelled = false → o.served g = searchRows p (o.query g)

/-- The call says, or is about to say, that it is the last. -/
def Stage.saysLast : Stage → Bool
  | .decided isLast => isLast
  | .dropping => true
  | .replied isLast => isLast
  | _ => false

structure CallOk (p : Partition) (o : Owner) (c : Call) : Prop where
  state : c.state < o.gens
  loaded : c.stage = .loaded true → (o.obj c.state).doneProducing = true
  last : c.stage.saysLast = true → Complete p o c.state

/-- What has been served of a state that is not cancelled, and then what is buffered, are the
first rows of its search, as far as they have been made. -/
structure OwnerOk (p : Partition) (o : Owner) : Prop where
  states : StatesOk (shard p fun _ => []) o.query o.entry
  requests : ∀ rid g, o.requests rid = some g → g < o.gens ∧ o.requestId g = rid
  found : ∀ f ∈ o.found, f.2.1 < o.gens
  served : ∀ g < o.gens, (o.obj g).cancelled = false →
    o.served g ++ (o.obj g).matched = (searchRows p (o.query g)).take (made o.entry g)
  calls : ∀ c ∈ o.calls, CallOk p o c

variable {p : Partition} {rs : List CsvRow} {chunkMax : ℤ} {o o' : Owner} {g : ℕ}

lemma matchRows_shard (h : p.Holds rs) (done : ℕ → List Column) (q : Query) :
    (shard p done).matchRows q = searchRows p q := by
  unfold Shard.matchRows searchRows
  split
  next h0 =>
    have hn : p.n = 0 := h0
    simp [Partition.rangeSearch, hn]
  next =>
    split
    next => rfl
    next hc =>
      have hf := Bool.eq_false_iff.mpr hc
      rw [RangeTable.predicateCanMatch_rows h hf]
      rfl

lemma objOk_register (h : p.Holds rs) (done : ℕ → List Column) (q : Query) (w : ℤ) :
    ObjOk (shard p fun _ => []) q (newState (shard p done) q w) := by
  obtain ⟨hrows, hcursor, hdone⟩ := objOk_new (shard p done) q w
  refine ⟨?_, hcursor, hdone⟩
  rw [matchRows_shard h] at hrows ⊢
  exact hrows

lemma ownerOk_start (p : Partition) : OwnerOk p Owner.start where
  states := ⟨nofun, fun g hg => absurd hg (Nat.not_lt_zero g), trivial⟩
  requests := nofun
  found := nofun
  served g hg := absurd hg (Nat.not_lt_zero g)
  calls := nofun

structure Frame (o o' : Owner) : Prop where
  gens : o'.gens = o.gens
  requestId : o'.requestId = o.requestId
  query : o'.query = o.query
  calls : o'.calls = o.calls

lemma Frame.served (h : Frame o o') (g : ℕ) : o'.served g = o.served g := by
  unfold Owner.served
  rw [h.calls]

/-- A call stays as good as it was, when its state stays as far on as it was. -/
lemma CallOk.frame {c : Call} (h : CallOk p o c) (hgens : o.gens ≤ o'.gens)
    (hquery : o'.query c.state = o.query c.state) (hserved : o'.served c.state = o.served c.state)
    (hcancel : (o'.obj c.state).cancelled = false → (o.obj c.state).cancelled = false)
    (hdone : (o.obj c.state).doneProducing = true → (o'.obj c.state).doneProducing = true) :
    CallOk p o' c where
  state := h.state.trans_le hgens
  loaded hl := hdone (h.loaded hl)
  last hl hc := by
    rw [hserved, hquery]
    exact h.last hl (hcancel hc)

lemma OwnerOk.move (h : OwnerOk p o) (hf : Frame o o') (hobj : o'.obj = o.obj)
    (hp : StatesOk (shard p fun _ => []) o'.query o'.entry)
    (hmade : ∀ g, made o'.entry g = made o.entry g)
    (hreq : ∀ rid g, o'.requests rid = some g → o.requests rid = some g)
    (hfound : ∀ f ∈ o'.found, f.2.1 < o.gens) : OwnerOk p o' where
  states := hp
  requests rid g hg := by
    rw [hf.gens, hf.requestId]
    exact h.requests rid g (hreq rid g hg)
  found f hm := by
    rw [hf.gens]
    exact hfound f hm
  served g hg hc := by
    rw [hf.served, hobj, hf.query, hmade]
    rw [hobj] at hc
    exact h.served g (hf.gens ▸ hg) hc
  calls c hc := by
    rw [hf.calls] at hc
    exact (h.calls c hc).frame (Nat.le_of_eq hf.gens.symm) (by rw [hf.query]) (hf.served _)
      (by rw [hobj]; exact id) (by rw [hobj]; exact id)

lemma OwnerOk.erase (h : OwnerOk p o) (rid : String) : OwnerOk p (o.erase rid) := by
  have hreq : ∀ rid' g, (o.erase rid).requests rid' = some g → o.requests rid' = some g := by
    intro rid' g hg
    by_cases hrr : rid' = rid
    · subst hrr
      simp [Owner.erase] at hg
    · simpa [Owner.erase, Function.update_of_ne hrr] using hg
  refine h.move ⟨rfl, rfl, rfl, rfl⟩ rfl ⟨fun g hg => ?_, h.states.obj, h.states.producer⟩
    (fun _ => rfl) hreq h.found
  exact (h.requests _ g (hreq _ g hg)).1

lemma OwnerOk.unlist (h : OwnerOk p o) (rid : String) : OwnerOk p (o.unlist rid) :=
  h.move ⟨rfl, rfl, rfl, rfl⟩ rfl ⟨h.states.table, h.states.obj, h.states.producer⟩
    (fun _ => rfl) (fun _ _ => id) h.found

lemma OwnerOk.snapshot (h : OwnerOk p o) (hs : snapshot o = some o') : OwnerOk p o' := by
  unfold PyOwner.snapshot at hs
  split at hs
  next =>
    obtain rfl := Option.some.inj hs
    exact h.move ⟨rfl, rfl, rfl, rfl⟩ rfl ⟨h.states.table, h.states.obj, h.states.producer⟩
      (fun _ => rfl) (fun _ _ => id) h.found
  next => cases hs

lemma OwnerOk.next (h : OwnerOk p o) (hs : next o = some o') : OwnerOk p o' := by
  unfold PyOwner.next at hs
  split at hs
  next rid rest _ =>
    split at hs
    next hidle =>
      obtain rfl := Option.some.inj hs
      refine h.move ⟨rfl, rfl, rfl, rfl⟩ rfl ⟨fun g hg => ?_, h.states.obj, trivial⟩
        (fun g => ?_) (fun _ _ => id) h.found
      · exact (h.requests rid g hg).1
      · simp [made, Owner.entry, hidle, place]
    next => cases hs
  next => cases hs

/-- The producer appends to the buffer what it makes, and to no other buffer. -/
lemma OwnerOk.produce (hh : p.Holds rs) (h : OwnerOk p o) {a : ProdAct}
    (hs : produce p chunkMax a o = some o') : OwnerOk p o' := by
  unfold PyOwner.produce at hs
  split at hs
  next => cases hs
  next =>
    obtain ⟨e, he, rfl⟩ := Option.map_eq_some_iff.mp hs
    obtain ⟨hok, hmakes⟩ := prodStep_each h.states he
    have hentry : Owner.entry { o with obj := e.obj, producer := e.producer } =
        ⟨o.entry.table, o.entry.scheduled, o.entry.gens, e.obj, e.producer⟩ := rfl
    rw [← hmakes.table, ← hmakes.gens, ← hmakes.scheduled] at hentry
    refine ⟨hentry ▸ hok, h.requests, h.found, fun g hg hc => ?_, fun c hc => ?_⟩
    · rw [hentry]
      have hold := h.served g hg ((hmakes.cancelled g).symm.trans hc)
      rcases hmakes.made g hg with ⟨hm, hb⟩ | ⟨r, hr, hm, hb, -⟩
      · show o.served g ++ (e.obj g).matched = _
        rw [hm, hb]
        exact hold
      · rw [matchRows_shard hh] at hr
        show o.served g ++ (e.obj g).matched = _
        rw [hm, hb, ← List.append_assoc]
        calc o.served g ++ (o.obj g).matched ++ [r]
            = (searchRows p (o.query g)).take (made o.entry g) ++ [r] := by rw [hold]
          _ = (searchRows p (o.query g)).take (made o.entry g + 1) := (Pipe.take_succ_eq hr).symm
    · have hcall := h.calls c hc
      exact hcall.frame le_rfl rfl rfl (fun hcc => (hmakes.cancelled c.state).symm.trans hcc)
        (hmakes.done c.state hcall.state)

lemma OwnerOk.setObj (h : OwnerOk p o) {st : RequestState TaxiRow}
    (hst : SameCourse (o.obj g) st) (hc : st.cancelled = true) : OwnerOk p (o.setObj g st) where
  states := h.states.setObj hst
  requests := h.requests
  found := h.found
  served g' hg' hcancel := by
    by_cases hgg : g' = g
    · subst hgg
      simp [Owner.setObj, hc] at hcancel
    · have hold : (o.setObj g st).obj g' = o.obj g' := Function.update_of_ne hgg _ _
      have hmade : made (o.entry.setObj g st) g' = made o.entry g' := made_setObj hst g'
      rw [hold] at hcancel ⊢
      exact (h.served g' hg' hcancel).trans
        (congrArg (fun m => (searchRows p (o.query g')).take m) hmade.symm)
  calls c hm := by
    refine (h.calls c hm).frame le_rfl rfl rfl (fun hcc => ?_) fun hd => ?_
    · by_cases hgg : c.state = g
      · subst hgg
        simp [Owner.setObj, hc] at hcc
      · simpa [Owner.setObj, hgg] using hcc
    · by_cases hgg : c.state = g
      · subst hgg
        simpa [Owner.setObj, hst.done] using hd
      · simpa [Owner.setObj, hgg] using hd

lemma served_eq_nil (h : OwnerOk p o) : o.served o.gens = [] := by
  unfold Owner.served
  rw [List.filter_eq_nil_iff.mpr]
  · rfl
  · intro c hc
    have := (h.calls c hc).state
    simp only [beq_iff_eq]
    omega

lemma OwnerOk.add (h : OwnerOk p o) (rid : String) {q : Query} {st : RequestState TaxiRow}
    (hst : ObjOk (shard p fun _ => []) q st) (hcursor : st.matchedCursor = 0)
    (hmatched : st.matched = []) : OwnerOk p (o.add rid q st) := by
  have hold : ∀ {A : Type} (f : ℕ → A) (a : A) {g : ℕ}, g < o.gens →
      Function.update f o.gens a g = f g := fun f a _ hg =>
    Function.update_of_ne (Nat.ne_of_lt hg) a f
  have hreq : ∀ rid' g, (o.add rid q st).requests rid' = some g →
      g < o.gens + 1 ∧ (o.add rid q st).requestId g = rid' := by
    intro rid' g hg
    by_cases hrr : rid' = rid
    · subst hrr
      obtain rfl : o.gens = g := by simpa [Owner.add] using hg
      exact ⟨Nat.lt_succ_self _, Function.update_self ..⟩
    · have hg' : o.requests rid' = some g := by
        simpa [Owner.add, Function.update_of_ne hrr] using hg
      obtain ⟨hlt, hid⟩ := h.requests rid' g hg'
      exact ⟨Nat.lt_succ_of_lt hlt, (hold o.requestId rid hlt).trans hid⟩
  refine ⟨?_, hreq, fun f hf => Nat.lt_succ_of_lt (h.found f hf), fun g hg hc => ?_,
    fun c hc => ?_⟩
  · obtain ⟨-, hobj, hprod⟩ := h.states.add hst fun g hg => (h.states.table g hg).le
    exact ⟨fun g hg => (hreq _ g hg).1, hobj, hprod⟩
  · rcases Nat.lt_succ_iff_lt_or_eq.mp hg with hlt | rfl
    · have hmade : made (o.add rid q st).entry g = made o.entry g :=
        made_add_of_ne (e := o.entry) (Nat.ne_of_lt hlt)
      have hobj : (o.add rid q st).obj g = o.obj g := hold o.obj st hlt
      have hquery : (o.add rid q st).query g = o.query g := hold o.query q hlt
      rw [hobj] at hc
      rw [hmade, hobj, hquery]
      exact h.served g hlt hc
    · have hmade : made (o.add rid q st).entry o.gens = 0 :=
        (made_add (e := o.entry) h.states.producer).trans hcursor
      have hobj : (o.add rid q st).obj o.gens = st := Function.update_self ..
      have hserved : (o.add rid q st).served o.gens = [] := served_eq_nil h
      rw [hmade, hobj, hserved, hmatched]
      rfl
  · have hlt := (h.calls c hc).state
    have hobj : (o.add rid q st).obj c.state = o.obj c.state := hold o.obj st hlt
    exact (h.calls c hc).frame (Nat.le_succ _) (hold o.query q hlt) rfl
      (by rw [hobj]; exact id) (by rw [hobj]; exact id)

lemma OwnerOk.register (hh : p.Holds rs) (h : OwnerOk p o) (rid : String) (q : Query) (w : ℤ)
    (done : ℕ → List Column) : OwnerOk p (register p rid q w done o) := by
  unfold PyOwner.register
  cases ht : o.requests rid with
  | some g => exact h
  | none =>
    obtain ⟨hcursor, hmatched, -⟩ := newState_blank (shard p done) q w
    exact h.add rid (objOk_register hh done q w) hcursor hmatched

lemma OwnerOk.find (h : OwnerOk p o) {rid : String} {maxRows : ℤ}
    (hs : find rid maxRows o = some o') : OwnerOk p o' := by
  obtain ⟨g, hg, rfl⟩ := Option.map_eq_some_iff.mp hs
  refine h.move ⟨rfl, rfl, rfl, rfl⟩ rfl ⟨h.states.table, h.states.obj, h.states.producer⟩
    (fun _ => rfl) (fun _ _ => id) fun f hf => ?_
  rcases List.mem_append.mp hf with hf | hf
  · exact h.found f hf
  · rw [List.mem_singleton.mp hf]
    exact (h.requests rid g hg).1

lemma OwnerOk.matched_eq_nil (h : OwnerOk p o) (hg : g < o.gens)
    (hc : (o.obj g).cancelled = false) (hall : o.served g = searchRows p (o.query g)) :
    (o.obj g).matched = [] := by
  have hserved := h.served g hg hc
  have hlen := congrArg List.length hserved
  rw [List.length_append, List.length_take, hall] at hlen
  exact List.eq_nil_of_length_eq_zero (by omega)

lemma served_append (o : Owner) (c : Call) (found : List (String × ℕ × ℤ))
    (obj : ℕ → RequestState TaxiRow) (g : ℕ) :
    Owner.served { o with obj := obj, found := found, calls := o.calls ++ [c] } g =
      o.served g ++ if c.state = g then c.rows else [] := by
  unfold Owner.served
  rw [List.filter_append, List.flatMap_append]
  by_cases hg : c.state = g <;> simp [hg]

lemma OwnerOk.pop (h : OwnerOk p o) {k : ℕ} (hs : pop k o = some o') : OwnerOk p o' := by
  obtain ⟨⟨rid, g, maxRows⟩, hf, rfl⟩ := Option.map_eq_some_iff.mp hs
  have hg := h.found _ (List.mem_of_getElem? hf)
  have hst : SameCourse (o.obj g)
      { o.obj g with matched := (o.obj g).matched.drop maxRows.toNat } := ⟨rfl, rfl, rfl⟩
  refine ⟨h.states.setObj hst, h.requests, fun f hm => h.found f (List.mem_of_mem_eraseIdx hm),
    fun g' hg' hc => ?_, fun c hm => ?_⟩
  · have hmade : made (o.entry.setObj g _) g' = made o.entry g' := made_setObj hst g'
    refine Eq.trans ?_ (congrArg (fun m => (searchRows p (o.query g')).take m) hmade.symm)
    have hserved := served_append o
      ⟨rid, g, (o.obj g).matched.take maxRows.toNat, .popped⟩ (o.found.eraseIdx k)
      (Function.update o.obj g { o.obj g with matched := (o.obj g).matched.drop maxRows.toNat }) g'
    refine (congrArg (· ++ _) hserved).trans ?_
    by_cases hgg : g' = g
    · subst hgg
      have hcancel : (o.obj g').cancelled = false := by simpa [Owner.setObj] using hc
      rw [← h.served g' hg hcancel, if_pos rfl, List.append_assoc]
      simp [Owner.setObj]
    · have hcancel : (o.obj g').cancelled = false := by simpa [Owner.setObj, hgg] using hc
      rw [← h.served g' hg' hcancel, if_neg (Ne.symm hgg), List.append_nil]
      simp [Owner.setObj, hgg]
  · rcases List.mem_append.mp hm with hm | hm
    · obtain ⟨hstate, hloaded, hlast⟩ := h.calls c hm
      have hsame : ((o.setObj g { o.obj g with
          matched := (o.obj g).matched.drop maxRows.toNat }).obj c.state).cancelled =
            (o.obj c.state).cancelled ∧ ((o.setObj g { o.obj g with
          matched := (o.obj g).matched.drop maxRows.toNat }).obj c.state).doneProducing =
            (o.obj c.state).doneProducing := by
        by_cases hgg : c.state = g <;> simp [Owner.setObj, hgg]
      refine ⟨hstate, fun hl => hsame.2.trans (hloaded hl), fun hl hc => ?_⟩
      have hcancel := hsame.1.symm.trans hc
      have hall := hlast hl hcancel
      -- what is popped of a state that has been served whole is nothing
      have hnil := h.matched_eq_nil hstate hcancel hall
      refine (served_append o _ _ _ c.state).trans ?_
      split
      next hgg =>
        subst hgg
        rw [hnil, List.take_nil, List.append_nil]
        exact hall
      next =>
        rw [List.append_nil]
        exact hall
    · rw [List.mem_singleton.mp hm]
      exact ⟨hg, nofun, nofun⟩

lemma served_eq (o : Owner) (g : ℕ) : o.served g =
    (o.calls.map fun c => (c.state, c.rows)).flatMap fun x => if x.1 = g then x.2 else [] := by
  unfold Owner.served
  induction o.calls with
  | nil => rfl
  | cons c calls ih =>
    by_cases hg : c.state = g <;> simp [hg, ih]

lemma served_setStage {i : ℕ} {c : Call} (hi : o.calls[i]? = some c) (stage : Stage) (g : ℕ) :
    (o.setStage i c stage).served g = o.served g := by
  obtain ⟨hlt, rfl⟩ := List.getElem?_eq_some_iff.mp hi
  rw [served_eq, served_eq]
  congr 1
  show (o.calls.set i { o.calls[i] with stage := stage }).map _ = _
  rw [List.map_set]
  have hlen : i < (o.calls.map fun c => (c.state, c.rows)).length := by simpa using hlt
  have hself := List.set_getElem_self hlen
  rwa [List.getElem_map] at hself

lemma OwnerOk.setStage (h : OwnerOk p o) {i : ℕ} {c : Call} (hi : o.calls[i]? = some c)
    {stage : Stage} (hc : CallOk p o { c with stage := stage }) :
    OwnerOk p (o.setStage i c stage) := by
  have hserved := served_setStage hi stage
  have hframe : ∀ c', CallOk p o c' → CallOk p (o.setStage i c stage) c' := fun c' hc' =>
    hc'.frame le_rfl rfl (hserved c'.state) id id
  refine ⟨⟨h.states.table, h.states.obj, h.states.producer⟩, h.requests, h.found,
    fun g hg hcancel => ?_, fun c' hm => ?_⟩
  · rw [hserved]
    exact h.served g hg hcancel
  · rcases List.mem_or_eq_of_mem_set hm with hm | rfl
    · exact hframe c' (h.calls c' hm)
    · exact hframe _ hc

/-- A call that finds the flag set and then the buffer empty, with no row of its own, comes after
the last row. -/
lemma OwnerOk.complete (hh : p.Holds rs) (h : OwnerOk p o) (hg : g < o.gens)
    (hd : (o.obj g).doneProducing = true) (hb : (o.obj g).matched = []) : Complete p o g := by
  intro hc
  have hserved := h.served g hg hc
  have hmade : made o.entry g = (searchRows p (o.query g)).length := by
    rw [h.states.made_of_done hg hd, matchRows_shard hh]
  rw [hb, List.append_nil, hmade, List.take_length] at hserved
  exact hserved

lemma OwnerOk.callStep (hh : p.Holds rs) (h : OwnerOk p o) {i : ℕ} {a : CallAct}
    (hs : callStep i a o = some o') : OwnerOk p o' := by
  unfold PyOwner.callStep at hs
  split at hs
  next => cases hs
  next c hi =>
    obtain ⟨hstate, hloaded, hlast⟩ := h.calls c (List.mem_of_getElem? hi)
    split at hs
    next hstage =>
      obtain rfl := Option.some.inj hs
      exact h.setStage hi ⟨hstate, fun hl => Stage.loaded.inj hl, nofun⟩
    next done hstage =>
      obtain rfl := Option.some.inj hs
      refine h.setStage hi ⟨hstate, nofun, fun hl => ?_⟩
      simp only [Stage.saysLast, Bool.and_eq_true, List.isEmpty_iff] at hl
      obtain ⟨⟨rfl, hb⟩, -⟩ := hl
      exact h.complete hh hstate (hloaded hstage) hb
    next isLast hstage =>
      split at hs
      next hl =>
        obtain rfl := Option.some.inj hs
        have hcomplete := hlast (by rw [hstage]; exact hl)
        exact (h.erase c.rid).setStage hi ⟨hstate, nofun, fun _ => hcomplete⟩
      next =>
        obtain rfl := Option.some.inj hs
        exact h.setStage hi ⟨hstate, nofun, nofun⟩
    next hstage =>
      obtain rfl := Option.some.inj hs
      have hcomplete := hlast (by rw [hstage]; rfl)
      exact (h.unlist c.rid).setStage hi ⟨hstate, nofun, fun _ => hcomplete⟩
    next => cases hs

lemma OwnerOk.step (hh : p.Holds rs) (h : OwnerOk p o) {a : Act}
    (hs : step p chunkMax o a = some o') : OwnerOk p o' := by
  cases a with
  | register rid q weight done =>
    obtain rfl := Option.some.inj hs
    exact h.register hh rid q weight done
  | snapshot => exact h.snapshot hs
  | next => exact h.next hs
  | produce a => exact h.produce hh hs
  | find rid maxRows => exact h.find hs
  | pop k => exact h.pop hs
  | call i a => exact h.callStep hh hs
  | mark g =>
    simp only [PyOwner.step] at hs
    split at hs
    next =>
      obtain rfl := Option.some.inj hs
      exact h.setObj ⟨rfl, rfl, rfl⟩ rfl
    next => cases hs
  | clear g =>
    simp only [PyOwner.step] at hs
    split at hs
    next hc =>
      obtain rfl := Option.some.inj hs
      exact h.setObj ⟨rfl, rfl, rfl⟩ hc.2
    next => cases hs
  | drop rid =>
    obtain rfl := Option.some.inj hs
    have herase := h.erase rid
    exact herase.move ⟨rfl, rfl, rfl, rfl⟩ rfl
      ⟨herase.states.table, herase.states.obj, herase.states.producer⟩ (fun _ => rfl)
      (fun _ _ => id) herase.found
  | unlist k =>
    obtain ⟨rid, -, rfl⟩ := Option.map_eq_some_iff.mp hs
    have hunlist := h.unlist rid
    exact hunlist.move ⟨rfl, rfl, rfl, rfl⟩ rfl
      ⟨hunlist.states.table, hunlist.states.obj, hunlist.states.producer⟩ (fun _ => rfl)
      (fun _ _ => id) hunlist.found

lemma ownerOk (hh : p.Holds rs) (hr : Reachable p chunkMax o) : OwnerOk p o :=
  hr.invariant (ownerOk_start p) fun _ _ _ _ hi _ hs => hi.step hh hs

/-! ### What the calls have served -/

/-- **An owner serves exactly its matches.** Whatever else goes on at the node, the rows of the
calls for a registered request that is not cancelled are, in the order they were popped, the
first rows of its search, and once a call has said that it is the last they are all of them. -/
theorem serves_search (rows : List CsvRow) (sortColumn : Option String) (chunkMax : ℤ)
    (o : Owner) (hr : Reachable (.load rows sortColumn) chunkMax o) (g : ℕ) (hg : g < o.gens)
    (hc : (o.obj g).cancelled = false) :
    o.served g <+: searchRows (.load rows sortColumn) (o.query g) ∧
      ((∃ c ∈ o.calls, c.state = g ∧ c.stage = .replied true) →
        o.served g = searchRows (.load rows sortColumn) (o.query g)) := by
  obtain ⟨rs, -, hh⟩ := Partition.load_spec rows sortColumn
  have h := ownerOk hh hr
  constructor
  · have hserved := h.served g hg hc
    exact (List.prefix_append _ _).trans (hserved ▸ List.take_prefix _ _)
  · rintro ⟨c, hm, rfl, hstage⟩
    exact (h.calls c hm).last (by rw [hstage]; rfl) hc

/-- A tick over one request that makes one row and ends. -/
def tickOnce : List Act :=
  [.snapshot, .next] ++ [ProdAct.get, .check, .room, .test, .push, .test, .finish].map .produce

/-- The `i`-th `PullChunk` to take its rows. -/
def pulled (i : ℕ) (maxRows : ℤ) : List Act :=
  [.find "r" maxRows, .pop 0] ++ [CallAct.load, .decide, .reply].map (.call i)

theorem serves_search_trip : ∃ o, Reachable (.load [RangeTable.shortTrip] none) 500 o ∧
    o.served 0 = searchRows (.load [RangeTable.shortTrip] none) (o.query 0) := by
  have hrun : (Runs.run (step (.load [RangeTable.shortTrip] none) 500) (fun _ _ => True)
      Owner.start ([.register "r" ⟨[]⟩ 1 fun _ => []] ++ tickOnce ++ pulled 0 10 ++ pulled 1 10 ++
        [.call 1 .unlist])).map (fun o => (o.gens, (o.obj 0).cancelled,
          o.calls.map fun c => (c.state, c.stage))) =
      some (1, false, [(0, .replied false), (0, .replied true)]) := by decide +kernel
  obtain ⟨o, ho, hfin⟩ := Option.map_eq_some_iff.mp hrun
  simp only [Prod.mk.injEq] at hfin
  obtain ⟨hgens, hcancel, hcalls⟩ := hfin
  have hreach := Runs.reach_of_run .init ho
  have hlast : ∃ c ∈ o.calls, c.state = 0 ∧ c.stage = .replied true := by
    have hm : (0, Stage.replied true) ∈ o.calls.map fun c => (c.state, c.stage) := by
      rw [hcalls]
      decide
    obtain ⟨c, hc, heq⟩ := List.mem_map.mp hm
    exact ⟨c, hc, (Prod.mk.inj heq).1, (Prod.mk.inj heq).2⟩
  exact ⟨o, hreach,
    (serves_search [RangeTable.shortTrip] none 500 o hreach 0 (by omega) hcancel).2 hlast⟩

end Mini2.PyOwner
