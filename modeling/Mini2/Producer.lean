import Mini2.Lib.Pipe
import Mini2.Net
import Mini2.Request

/-!
The producer thread at work on one request, and what holds of a node's entry whatever its
threads and its callers do.
-/

namespace Mini2.Producer

open Mini2.Net Mini2.Request Mini2.Pipe

variable {Query Row : Type}

def maxBuffered : ℕ := 8192

/-- The rows of a batch; only the Python nodes bound it by the chunk size. -/
def batchSize (impl : Impl) (maxRows weight : ℤ) : ℕ :=
  match impl with
  | .cpp => (256 * max 1 weight).toNat
  | .python => (min maxRows (256 * max 1 weight)).toNat

/-- The steps of `produce_loop` between two accesses to what it shares. -/
inductive ProdAct | pick | get | check | room | test | push | finish
  deriving DecidableEq

def pick (e : Entry Row) : Option (Entry Row) :=
  if e.producer = .idle ∧ 0 < e.scheduled then some { e with producer := .picked } else none

def get (e : Entry Row) : Option (Entry Row) :=
  match e.producer with
  | .picked =>
    match e.table with
    | none => some { e with producer := .idle }
    | some g => some { e with producer := .got g }
  | _ => none

/-- A node without rows has nothing to produce; only a C++ node says that it is done. -/
def check (sh : Shard Query Row) (impl : Impl) (e : Entry Row) : Option (Entry Row) :=
  match e.producer with
  | .got g =>
    let st := e.obj g
    if st.cancelled || st.doneProducing then some { e with producer := .idle }
    else if sh.size = 0 then
      match impl with
      | .cpp => some { e.setObj g { st with doneProducing := true } with producer := .idle }
      | .python => some { e with producer := .idle }
    else some { e with producer := .checked g }
  | _ => none

def room (impl : Impl) (maxRows : ℤ) (e : Entry Row) : Option (Entry Row) :=
  match e.producer with
  | .checked g =>
    let st := e.obj g
    if maxBuffered ≤ st.matched.length then some { e with producer := .idle }
    else
      let i := st.matchedCursor
      let limit := min st.matchedIndices.length (i + batchSize impl maxRows st.weight)
      some { e with producer := .batch g i limit }
  | _ => none

def test (e : Entry Row) : Option (Entry Row) :=
  match e.producer with
  | .batch g i limit =>
    if i < limit ∧ (e.obj g).cancelled = false then
      some { e with producer := .filling g i limit }
    else some { e with producer := .ending g i }
  | _ => none

def push (sh : Shard Query Row) (e : Entry Row) : Option (Entry Row) :=
  match e.producer with
  | .filling g i limit =>
    let st := e.obj g
    (st.matchedIndices[i]?).map fun idx =>
      let matched := st.matched ++ [sh.fill idx]
      { e.setObj g { st with matched := matched } with
        producer :=
          if maxBuffered ≤ matched.length then .ending g (i + 1) else .batch g (i + 1) limit }
  | _ => none

def finish (e : Entry Row) : Option (Entry Row) :=
  match e.producer with
  | .ending g i =>
    let st := e.obj g
    let done := st.doneProducing || decide (st.matchedIndices.length ≤ i)
    some { e.setObj g { st with matchedCursor := i, doneProducing := done } with producer := .idle }
  | _ => none

def prodStep (sh : Shard Query Row) (impl : Impl) (maxRows : ℤ) (e : Entry Row) :
    ProdAct → Option (Entry Row)
  | .pick => pick e
  | .get => get e
  | .check => check sh impl e
  | .room => room impl maxRows e
  | .test => test e
  | .push => push sh e
  | .finish => finish e

inductive Produces (sh : Shard Query Row) (impl : Impl) (e : Entry Row) :
    ProdAct → Entry Row → Prop
  | pick (h : e.producer = .idle) (hs : 0 < e.scheduled) :
      Produces sh impl e .pick { e with producer := .picked }
  | lost (h : e.producer = .picked) (ht : e.table = none) :
      Produces sh impl e .get { e with producer := .idle }
  | get {g : ℕ} (h : e.producer = .picked) (ht : e.table = some g) :
      Produces sh impl e .get { e with producer := .got g }
  | pass {g : ℕ} (h : e.producer = .got g) :
      Produces sh impl e .check { e with producer := .idle }
  | nothing {g : ℕ} (h : e.producer = .got g) (h0 : sh.size = 0) (hi : impl = .cpp) :
      Produces sh impl e .check
        { e.setObj g { e.obj g with doneProducing := true } with producer := .idle }
  | check {g : ℕ} (h : e.producer = .got g) (hd : (e.obj g).doneProducing = false) :
      Produces sh impl e .check { e with producer := .checked g }
  | full {g : ℕ} (h : e.producer = .checked g) :
      Produces sh impl e .room { e with producer := .idle }
  | room {g limit : ℕ} (h : e.producer = .checked g)
      (hb : (e.obj g).matched.length < maxBuffered) :
      Produces sh impl e .room { e with producer := .batch g (e.obj g).matchedCursor limit }
  | fill {g i limit : ℕ} (h : e.producer = .batch g i limit) :
      Produces sh impl e .test { e with producer := .filling g i limit }
  | leave {g i limit : ℕ} (h : e.producer = .batch g i limit) :
      Produces sh impl e .test { e with producer := .ending g i }
  | push {g i limit idx : ℕ} (h : e.producer = .filling g i limit)
      (hi : (e.obj g).matchedIndices[i]? = some idx) :
      Produces sh impl e .push
        { e.setObj g { e.obj g with matched := (e.obj g).matched ++ [sh.fill idx] } with
          producer := if maxBuffered ≤ ((e.obj g).matched ++ [sh.fill idx]).length
            then .ending g (i + 1) else .batch g (i + 1) limit }
  | finish {g i : ℕ} (h : e.producer = .ending g i) :
      Produces sh impl e .finish
        { e.setObj g { e.obj g with
            matchedCursor := i
            doneProducing := (e.obj g).doneProducing ||
              decide ((e.obj g).matchedIndices.length ≤ i) } with producer := .idle }

lemma produces_of_check {sh : Shard Query Row} {impl : Impl} {e e' : Entry Row}
    (h : check sh impl e = some e') : Produces sh impl e .check e' := by
  unfold check at h
  split at h
  next g hp =>
    simp only at h
    split at h
    next =>
      obtain rfl := Option.some.inj h
      exact .pass hp
    next hflag =>
      split at h
      next h0 =>
        cases impl with
        | cpp =>
          obtain rfl := Option.some.inj h
          exact .nothing hp h0 rfl
        | python =>
          obtain rfl := Option.some.inj h
          exact .pass hp
      next =>
        obtain rfl := Option.some.inj h
        simp only [Bool.or_eq_true, not_or, Bool.not_eq_true] at hflag
        exact .check hp hflag.2
  next => cases h

theorem produces_of_step {sh : Shard Query Row} {impl : Impl} {maxRows : ℤ} {e e' : Entry Row}
    {a : ProdAct} (h : prodStep sh impl maxRows e a = some e') : Produces sh impl e a e' := by
  cases a <;> simp only [prodStep] at h
  case pick =>
    unfold pick at h
    split at h
    next hp =>
      obtain rfl := Option.some.inj h
      exact .pick hp.1 hp.2
    next => cases h
  case get =>
    unfold get at h
    split at h
    next hp =>
      split at h
      next ht =>
        obtain rfl := Option.some.inj h
        exact .lost hp ht
      next g ht =>
        obtain rfl := Option.some.inj h
        exact .get hp ht
    next => cases h
  case check => exact produces_of_check h
  case room =>
    unfold room at h
    split at h
    next g hp =>
      simp only at h
      split at h
      next =>
        obtain rfl := Option.some.inj h
        exact .full hp
      next hb =>
        obtain rfl := Option.some.inj h
        exact .room hp (Nat.lt_of_not_le hb)
    next => cases h
  case test =>
    unfold test at h
    split at h
    next g i limit hp =>
      split at h
      next =>
        obtain rfl := Option.some.inj h
        exact .fill hp
      next =>
        obtain rfl := Option.some.inj h
        exact .leave hp
    next => cases h
  case push =>
    unfold push at h
    split at h
    next g i limit hp =>
      obtain ⟨idx, hi, rfl⟩ := Option.map_eq_some_iff.mp h
      exact .push hp hi
    next => cases h
  case finish =>
    unfold finish at h
    split at h
    next g i hp =>
      obtain rfl := Option.some.inj h
      exact .finish hp
    next => cases h

/-! ### The invariant of an entry -/

/-- The generation the producer has a batch of, and its place in it. -/
def place : Producer → Option (ℕ × ℕ)
  | .batch g i _ => some (g, i)
  | .filling g i _ => some (g, i)
  | .ending g i => some (g, i)
  | _ => none

/-- How many rows of generation `g` have been made. -/
def made (e : Entry Row) (g : ℕ) : ℕ :=
  match place e.producer with
  | some (g', i) => if g' = g then i else (e.obj g).matchedCursor
  | none => (e.obj g).matchedCursor

/-- What the producer relies on between two steps. -/
def ProducerOk (e : Entry Row) : Prop :=
  match e.producer with
  | .idle => True
  | .picked => True
  | .got g => g < e.gens
  | .checked g => g < e.gens ∧ (e.obj g).doneProducing = false
  | .batch g i limit => g < e.gens ∧ (e.obj g).doneProducing = false ∧ i ≤ limit ∧
      limit ≤ (e.obj g).matchedIndices.length
  | .filling g i limit => g < e.gens ∧ (e.obj g).doneProducing = false ∧ i < limit ∧
      limit ≤ (e.obj g).matchedIndices.length
  | .ending g i => g < e.gens ∧ (e.obj g).doneProducing = false ∧
      i ≤ (e.obj g).matchedIndices.length

structure ObjOk (sh : Shard Query Row) (q : Query) (st : RequestState Row) : Prop where
  rows : st.matchedIndices.map sh.fill = sh.matchRows q
  cursor : st.matchedCursor ≤ st.matchedIndices.length
  done : st.doneProducing = true → st.matchedCursor = st.matchedIndices.length

structure EntryOk (sh : Shard Query Row) (q : Query) (e : Entry Row) : Prop where
  table : ∀ g, e.table = some g → g + 1 = e.gens
  obj : ∀ g < e.gens, ObjOk sh q (e.obj g)
  producer : ProducerOk e

structure StatesOk (sh : Shard Query Row) (qs : ℕ → Query) (e : Entry Row) : Prop where
  table : ∀ g, e.table = some g → g < e.gens
  obj : ∀ g < e.gens, ObjOk sh (qs g) (e.obj g)
  producer : ProducerOk e

variable {sh : Shard Query Row} {q : Query} {qs : ℕ → Query} {e e' : Entry Row} {g : ℕ}

lemma EntryOk.states (h : EntryOk sh q e) : StatesOk sh (fun _ => q) e where
  table g hg := by
    have := h.table g hg
    omega
  obj := h.obj
  producer := h.producer

lemma ObjOk.length (h : ObjOk sh q (e.obj g)) :
    (e.obj g).matchedIndices.length = (sh.matchRows q).length := by
  rw [← h.rows, List.length_map]

lemma entryOk_empty : EntryOk sh q (Entry.empty : Entry Row) where
  table g h := by cases h
  obj g hg := absurd hg (Nat.not_lt_zero g)
  producer := trivial

lemma objOk_new (sh : Shard Query Row) (q : Query) (w : ℤ) : ObjOk sh q (newState sh q w) := by
  unfold newState
  simp only
  split
  next h0 => exact ⟨by simp [Shard.matchRows, h0], by simp, by simp⟩
  next h0 =>
    split
    next hc =>
      refine ⟨by simp [Shard.matchRows, h0, hc], by simp, fun h => ?_⟩
      simp [List.isEmpty_iff.mp h]
    next hc => exact ⟨by simp [Shard.matchRows, h0, hc], by simp, by simp⟩

/-! ### What one step of the producer does -/

/-- A step of the producer makes no row, or makes the next row of a generation that is not
done. -/
structure Makes (sh : Shard Query Row) (q : Query) (e e' : Entry Row) : Prop where
  table : e'.table = e.table
  gens : e'.gens = e.gens
  scheduled : e'.scheduled = e.scheduled
  made : ∀ g < e.gens,
    (made e' g = made e g ∧ (e'.obj g).matched = (e.obj g).matched) ∨
      ∃ r, (sh.matchRows q)[made e g]? = some r ∧ made e' g = made e g + 1 ∧
        (e'.obj g).matched = (e.obj g).matched ++ [r] ∧ (e.obj g).doneProducing = false
  done : ∀ g < e.gens, (e.obj g).doneProducing = true → (e'.obj g).doneProducing = true

/-- The same of states that are registered for a query each. -/
structure MakesEach (sh : Shard Query Row) (qs : ℕ → Query) (e e' : Entry Row) : Prop where
  table : e'.table = e.table
  gens : e'.gens = e.gens
  scheduled : e'.scheduled = e.scheduled
  cancelled : ∀ g, (e'.obj g).cancelled = (e.obj g).cancelled
  made : ∀ g < e.gens,
    (Producer.made e' g = Producer.made e g ∧ (e'.obj g).matched = (e.obj g).matched) ∨
      ∃ r, (sh.matchRows (qs g))[Producer.made e g]? = some r ∧
        Producer.made e' g = Producer.made e g + 1 ∧
        (e'.obj g).matched = (e.obj g).matched ++ [r] ∧ (e.obj g).doneProducing = false
  done : ∀ g < e.gens, (e.obj g).doneProducing = true → (e'.obj g).doneProducing = true

lemma MakesEach.makes (h : MakesEach sh (fun _ => q) e e') : Makes sh q e e' :=
  ⟨h.table, h.gens, h.scheduled, h.made, h.done⟩

lemma makes_of_move {p : Producer} (hm : ∀ g', made { e with producer := p } g' = made e g') :
    MakesEach sh qs e { e with producer := p } where
  table := rfl
  gens := rfl
  scheduled := rfl
  cancelled _ := rfl
  made g' _ := .inl ⟨hm g', rfl⟩
  done _ _ h := h

lemma StatesOk.move (h : StatesOk sh qs e) {p : Producer}
    (hp : ProducerOk { e with producer := p }) : StatesOk sh qs { e with producer := p } :=
  ⟨h.table, h.obj, hp⟩

/-- The thread is at no place, or at one of generation `g`. -/
def AtGen (p : Producer) (g : ℕ) : Prop := ∀ x ∈ place p, x.1 = g

/-- The place in generation `g`, or else its cursor. -/
def placeOr (p : Producer) (cursor : ℕ) : ℕ := ((place p).map Prod.snd).getD cursor

lemma made_of_atGen (h : AtGen e.producer g) :
    made e g = placeOr e.producer (e.obj g).matchedCursor := by
  unfold made placeOr
  cases hp : place e.producer with
  | none => rfl
  | some x => simp [h x (by simp [hp])]

lemma made_of_atGen_ne {g' : ℕ} (h : AtGen e.producer g) (hg : g' ≠ g) :
    made e g' = (e.obj g').matchedCursor := by
  unfold made
  cases hp : place e.producer with
  | none => rfl
  | some x =>
    have : x.1 ≠ g' := fun hx => hg (hx.symm.trans (h x (by simp [hp])))
    simp [this]

lemma StatesOk.put (h : StatesOk sh qs e) {st : RequestState Row} {p : Producer}
    (hst : ObjOk sh (qs g) st) (hat : AtGen e.producer g) (hat' : AtGen p g)
    (hp : ProducerOk { e.setObj g st with producer := p })
    (hcancel : st.cancelled = (e.obj g).cancelled)
    (hmade : (placeOr p st.matchedCursor = made e g ∧ st.matched = (e.obj g).matched) ∨
      ∃ r, (sh.matchRows (qs g))[made e g]? = some r ∧
        placeOr p st.matchedCursor = made e g + 1 ∧
        st.matched = (e.obj g).matched ++ [r] ∧ (e.obj g).doneProducing = false)
    (hdone : (e.obj g).doneProducing = true → st.doneProducing = true) :
    StatesOk sh qs { e.setObj g st with producer := p } ∧
      MakesEach sh qs e { e.setObj g st with producer := p } := by
  refine ⟨⟨h.table, fun g' hg' => ?_, hp⟩, rfl, rfl, rfl, fun g' => ?_, fun g' _ => ?_,
    fun g' _ hd => ?_⟩
  · by_cases hgg : g' = g
    · subst hgg
      simpa [Entry.setObj] using hst
    · simpa [Entry.setObj, hgg] using h.obj g' hg'
  · by_cases hgg : g' = g
    · subst hgg
      simpa [Entry.setObj] using hcancel
    · simp [Entry.setObj, hgg]
  · by_cases hgg : g' = g
    · subst hgg
      rw [@made_of_atGen _ { e.setObj g' st with producer := p } g' hat']
      simpa [Entry.setObj] using hmade
    · rw [@made_of_atGen_ne _ { e.setObj g st with producer := p } g g' hat' hgg,
        made_of_atGen_ne hat hgg]
      simp [Entry.setObj, hgg]
  · by_cases hgg : g' = g
    · subst hgg
      simpa [Entry.setObj] using hdone hd
    · simpa [Entry.setObj, hgg] using hd

lemma pick_spec (h : StatesOk sh qs e) (hs : pick e = some e') :
    StatesOk sh qs e' ∧ MakesEach sh qs e e' := by
  unfold pick at hs
  split at hs
  next hc =>
    obtain rfl := Option.some.inj hs
    refine ⟨h.move trivial, makes_of_move fun g => ?_⟩
    simp [made, hc.1, place]
  next => cases hs

lemma get_spec (h : StatesOk sh qs e) (hs : get e = some e') :
    StatesOk sh qs e' ∧ MakesEach sh qs e e' := by
  unfold get at hs
  split at hs
  next hp =>
    split at hs
    next =>
      obtain rfl := Option.some.inj hs
      refine ⟨h.move trivial, makes_of_move fun g => ?_⟩
      simp [made, hp, place]
    next g ht =>
      obtain rfl := Option.some.inj hs
      refine ⟨h.move ?_, makes_of_move fun g => ?_⟩
      · exact h.table g ht
      · simp [made, hp, place]
  next => cases hs

lemma check_spec {impl : Impl} (h : StatesOk sh qs e) (hs : check sh impl e = some e') :
    StatesOk sh qs e' ∧ MakesEach sh qs e e' := by
  unfold check at hs
  split at hs
  next g hp =>
    have hpo := h.producer
    simp only [ProducerOk, hp] at hpo
    simp only at hs
    split at hs
    next =>
      obtain rfl := Option.some.inj hs
      exact ⟨h.move trivial, makes_of_move fun g' => by simp [made, hp, place]⟩
    next hflag =>
      split at hs
      next h0 =>
        cases impl with
        | python =>
          obtain rfl := Option.some.inj hs
          exact ⟨h.move trivial, makes_of_move fun g' => by simp [made, hp, place]⟩
        | cpp =>
          obtain rfl := Option.some.inj hs
          have hnil : (e.obj g).matchedIndices = [] := by
            have := (h.obj g hpo).rows
            simpa [Shard.matchRows, h0] using this
          have hcur : (e.obj g).matchedCursor = 0 := by
            have := (h.obj g hpo).cursor
            simpa [hnil] using this
          have hat : AtGen e.producer g := by simp [AtGen, hp, place]
          refine h.put ⟨(h.obj g hpo).rows, (h.obj g hpo).cursor, fun _ => ?_⟩ hat
            (by simp [AtGen, place]) trivial rfl (.inl ⟨?_, rfl⟩) fun _ => rfl
          · simp [hcur, hnil]
          · rw [made_of_atGen hat]
            simp [placeOr, hp, place]
      next =>
        obtain rfl := Option.some.inj hs
        refine ⟨h.move ⟨hpo, ?_⟩, makes_of_move fun g' => by simp [made, hp, place]⟩
        simp only [Bool.or_eq_true, not_or, Bool.not_eq_true] at hflag
        exact hflag.2
  next => cases hs

lemma room_spec {impl : Impl} {maxRows : ℤ} (h : StatesOk sh qs e)
    (hs : room impl maxRows e = some e') : StatesOk sh qs e' ∧ MakesEach sh qs e e' := by
  unfold room at hs
  split at hs
  next g hp =>
    have hpo := h.producer
    simp only [ProducerOk, hp] at hpo
    simp only at hs
    split at hs
    next =>
      obtain rfl := Option.some.inj hs
      exact ⟨h.move trivial, makes_of_move fun g' => by simp [made, hp, place]⟩
    next =>
      obtain rfl := Option.some.inj hs
      have hcur := (h.obj g hpo.1).cursor
      refine ⟨h.move ⟨hpo.1, hpo.2, ?_, min_le_left _ _⟩, makes_of_move fun g' => ?_⟩
      · exact le_min hcur (Nat.le_add_right _ _)
      · by_cases hgg : g = g'
        · subst hgg
          simp [made, hp, place]
        · simp [made, hp, place, hgg]
  next => cases hs

lemma test_spec (h : StatesOk sh qs e) (hs : test e = some e') :
    StatesOk sh qs e' ∧ MakesEach sh qs e e' := by
  unfold test at hs
  split at hs
  next g i limit hp =>
    have hpo := h.producer
    simp only [ProducerOk, hp] at hpo
    obtain ⟨hg, hd, hi, hl⟩ := hpo
    split at hs
    next hc =>
      obtain rfl := Option.some.inj hs
      exact ⟨h.move ⟨hg, hd, hc.1, hl⟩, makes_of_move fun g' => by simp [made, hp, place]⟩
    next =>
      obtain rfl := Option.some.inj hs
      exact ⟨h.move ⟨hg, hd, hi.trans hl⟩, makes_of_move fun g' => by simp [made, hp, place]⟩
  next => cases hs

lemma push_spec (h : StatesOk sh qs e) (hs : push sh e = some e') :
    StatesOk sh qs e' ∧ MakesEach sh qs e e' := by
  unfold push at hs
  split at hs
  next g i limit hp =>
    have hpo := h.producer
    simp only [ProducerOk, hp] at hpo
    obtain ⟨hg, hd, hi, hl⟩ := hpo
    obtain ⟨idx, hidx, rfl⟩ := Option.map_eq_some_iff.mp hs
    have hrow : (sh.matchRows (qs g))[i]? = some (sh.fill idx) := by
      rw [← (h.obj g hg).rows, List.getElem?_map, hidx]
      rfl
    have hat : AtGen e.producer g := by simp [AtGen, hp, place]
    have hmade : made e g = i := by
      rw [made_of_atGen hat]
      simp [placeOr, hp, place]
    have hobj := h.obj g hg
    simp only
    split
    · refine h.put ⟨hobj.rows, hobj.cursor, hobj.done⟩ hat (by simp [AtGen, place]) ?_
        rfl (.inr ⟨_, by rwa [hmade], by simp [placeOr, place, hmade], rfl, hd⟩) id
      simp only [ProducerOk, Entry.setObj, Function.update_self]
      exact ⟨hg, hd, by omega⟩
    · refine h.put ⟨hobj.rows, hobj.cursor, hobj.done⟩ hat (by simp [AtGen, place]) ?_
        rfl (.inr ⟨_, by rwa [hmade], by simp [placeOr, place, hmade], rfl, hd⟩) id
      simp only [ProducerOk, Entry.setObj, Function.update_self]
      exact ⟨hg, hd, by omega, hl⟩
  next => cases hs

lemma finish_spec (h : StatesOk sh qs e) (hs : finish e = some e') :
    StatesOk sh qs e' ∧ MakesEach sh qs e e' := by
  unfold finish at hs
  split at hs
  next g i hp =>
    have hpo := h.producer
    simp only [ProducerOk, hp] at hpo
    obtain ⟨hg, hd, hi⟩ := hpo
    obtain rfl := Option.some.inj hs
    have hat : AtGen e.producer g := by simp [AtGen, hp, place]
    refine h.put ⟨(h.obj g hg).rows, hi, fun hdone => ?_⟩ hat (by simp [AtGen, place]) trivial
      rfl (.inl ⟨?_, rfl⟩) fun hdone => ?_
    · simp only [hd, Bool.false_or, decide_eq_true_eq] at hdone
      exact le_antisymm hi hdone
    · rw [made_of_atGen hat]
      simp [placeOr, hp, place]
    · rw [hd] at hdone
      cases hdone
  next => cases hs

/-- **The producer makes the listed rows in order**, each at most once, and says that it is
done when it has made them all. -/
theorem prodStep_each {impl : Impl} {maxRows : ℤ} {a : ProdAct} (h : StatesOk sh qs e)
    (hs : prodStep sh impl maxRows e a = some e') : StatesOk sh qs e' ∧ MakesEach sh qs e e' := by
  cases a with
  | pick => exact pick_spec h hs
  | get => exact get_spec h hs
  | check => exact check_spec h hs
  | room => exact room_spec h hs
  | test => exact test_spec h hs
  | push => exact push_spec h hs
  | finish => exact finish_spec h hs

theorem prodStep_spec {impl : Impl} {maxRows : ℤ} {a : ProdAct} (h : EntryOk sh q e)
    (hs : prodStep sh impl maxRows e a = some e') : EntryOk sh q e' ∧ Makes sh q e e' := by
  obtain ⟨hok, hmakes⟩ := prodStep_each h.states hs
  refine ⟨⟨fun g hg => ?_, hok.obj, hok.producer⟩, hmakes.makes⟩
  rw [hmakes.table] at hg
  rw [hmakes.gens]
  exact h.table g hg

/-! ### What the callers do -/

lemma ProducerOk.place (h : ProducerOk e) {x : ℕ × ℕ} (hx : x ∈ place e.producer) :
    x.1 < e.gens ∧ (e.obj x.1).doneProducing = false ∧
      x.2 ≤ (e.obj x.1).matchedIndices.length := by
  unfold ProducerOk at h
  unfold Producer.place at hx
  cases hp : e.producer <;> simp only [hp, Option.mem_def, Option.some.injEq, reduceCtorEq] at h hx
  all_goals
    subst hx
    exact ⟨h.1, h.2.1, by simp only; omega⟩

lemma StatesOk.made_le (h : StatesOk sh qs e) (hg : g < e.gens) :
    made e g ≤ (sh.matchRows (qs g)).length := by
  have hcursor := (h.obj g hg).cursor
  rw [← (h.obj g hg).length]
  unfold made
  cases hp : place e.producer with
  | none => exact hcursor
  | some x =>
    have hle := (h.producer.place (x := x) (by simp [hp])).2.2
    simp only
    split
    next heq => exact heq ▸ hle
    next => exact hcursor

lemma EntryOk.made_le (h : EntryOk sh q e) (hg : g < e.gens) :
    made e g ≤ (sh.matchRows q).length :=
  h.states.made_le hg

lemma StatesOk.made_of_done (h : StatesOk sh qs e) (hg : g < e.gens)
    (hd : (e.obj g).doneProducing = true) : made e g = (sh.matchRows (qs g)).length := by
  unfold made
  rw [← (h.obj g hg).length]
  cases hp : place e.producer with
  | none => exact (h.obj g hg).done hd
  | some x =>
    simp only
    rw [if_neg]
    · exact (h.obj g hg).done hd
    · rintro rfl
      have hnot := (h.producer.place (x := x) (by simp [hp])).2.1
      rw [hd] at hnot
      cases hnot

lemma EntryOk.made_of_done (h : EntryOk sh q e) (hg : g < e.gens)
    (hd : (e.obj g).doneProducing = true) : made e g = (sh.matchRows q).length :=
  h.states.made_of_done hg hd

/-- Neither the rows to make nor those made are touched. -/
structure SameCourse (st st' : RequestState Row) : Prop where
  indices : st'.matchedIndices = st.matchedIndices
  cursor : st'.matchedCursor = st.matchedCursor
  done : st'.doneProducing = st.doneProducing

lemma made_setObj {st : RequestState Row} (hst : SameCourse (e.obj g) st) (g' : ℕ) :
    made (e.setObj g st) g' = made e g' := by
  have hcur : ((e.setObj g st).obj g').matchedCursor = (e.obj g').matchedCursor := by
    by_cases hgg : g' = g
    · subst hgg
      simpa [Entry.setObj] using hst.cursor
    · simp [Entry.setObj, hgg]
  unfold made
  rw [hcur]
  rfl

lemma StatesOk.setObj (h : StatesOk sh qs e) {st : RequestState Row}
    (hst : SameCourse (e.obj g) st) : StatesOk sh qs (e.setObj g st) := by
  have hsame : ∀ g', SameCourse (e.obj g') ((e.setObj g st).obj g') := by
    intro g'
    by_cases hgg : g' = g
    · subst hgg
      simpa [Entry.setObj] using hst
    · simp only [Entry.setObj, Function.update_of_ne hgg]
      exact ⟨rfl, rfl, rfl⟩
  refine ⟨h.table, fun g' hg' => ?_, ?_⟩
  · obtain ⟨h1, h2, h3⟩ := hsame g'
    have := h.obj g' hg'
    exact ⟨by rw [h1]; exact this.rows, by rw [h1, h2]; exact this.cursor,
      by rw [h1, h2, h3]; exact this.done⟩
  · have hp := h.producer
    unfold ProducerOk at hp ⊢
    have hprod : (e.setObj g st).producer = e.producer := rfl
    rw [hprod]
    cases hc : e.producer <;> simp only [hc, (hsame _).indices, (hsame _).done] at hp ⊢ <;> exact hp

lemma EntryOk.setObj (h : EntryOk sh q e) {st : RequestState Row}
    (hst : SameCourse (e.obj g) st) : EntryOk sh q (e.setObj g st) :=
  ⟨h.table, (h.states.setObj hst).obj, (h.states.setObj hst).producer⟩

lemma EntryOk.removes (h : EntryOk sh q e) (hr : Removes e e') : EntryOk sh q e' := by
  cases hr with
  | erase => exact ⟨nofun, h.obj, h.producer⟩
  | unschedule => exact ⟨h.table, h.obj, h.producer⟩
  | drop => exact ⟨nofun, h.obj, h.producer⟩

lemma removes_obj (hr : Removes e e') :
    e'.gens = e.gens ∧ e'.obj = e.obj ∧ ∀ g, made e' g = made e g := by
  cases hr <;> exact ⟨rfl, rfl, fun _ => rfl⟩

lemma StatesOk.add (h : StatesOk sh qs e) {st : RequestState Row} (hst : ObjOk sh q st)
    {table : Option ℕ} (ht : ∀ g, table = some g → g ≤ e.gens) :
    StatesOk sh (Function.update qs e.gens q)
      ⟨table, e.scheduled + 1, e.gens + 1, Function.update e.obj e.gens st, e.producer⟩ := by
  refine ⟨fun g hg => Nat.lt_succ_of_le (ht g hg), fun g hg => ?_, ?_⟩
  · by_cases hgg : g = e.gens
    · subst hgg
      simpa using hst
    · have hlt : g < e.gens := by
        simp only at hg
        omega
      simp only [Function.update_of_ne hgg]
      exact h.obj g hlt
  · have hp := h.producer
    unfold ProducerOk at hp ⊢
    simp only
    cases hc : e.producer with
    | idle => trivial
    | picked => trivial
    | got g => simp only [hc] at hp ⊢; omega
    | _ g =>
      simp only [hc] at hp ⊢
      rw [Function.update_of_ne (by omega)]
      exact ⟨by omega, hp.2⟩

lemma EntryOk.register (h : EntryOk sh q e) (w : ℤ) :
    EntryOk sh q (registerRequest sh q w e) := by
  unfold registerRequest
  cases ht : e.table with
  | some g => exact h
  | none =>
    have htable : ∀ g, some e.gens = some g → g ≤ e.gens := fun g hg =>
      le_of_eq (Option.some.inj hg).symm
    have hadd := h.states.add (objOk_new sh q w) htable
    refine ⟨fun g hg => ?_, fun g hg => ?_, hadd.producer⟩
    · simp only [Option.some.injEq] at hg
      simp only
      omega
    · have hobj := hadd.obj g hg
      rwa [Function.update_eq_self] at hobj

lemma made_add_of_ne {st : RequestState Row} {table : Option ℕ} {scheduled gens : ℕ}
    (hg : g ≠ e.gens) :
    made ⟨table, scheduled, gens, Function.update e.obj e.gens st, e.producer⟩ g = made e g := by
  have hobj : Function.update e.obj e.gens st g = e.obj g := Function.update_of_ne hg _ _
  unfold made
  simp only [hobj]

lemma made_add (h : ProducerOk e) {st : RequestState Row} {table : Option ℕ}
    {scheduled gens : ℕ} :
    made ⟨table, scheduled, gens, Function.update e.obj e.gens st, e.producer⟩ e.gens =
      st.matchedCursor := by
  unfold made
  simp only [Function.update_self]
  cases hp : place e.producer with
  | none => rfl
  | some x =>
    have := (h.place (x := x) (by simp [hp])).1
    simp only
    rw [if_neg (by omega)]

lemma newState_blank (sh : Shard Query Row) (q : Query) (w : ℤ) :
    (newState sh q w).matchedCursor = 0 ∧ (newState sh q w).matched = [] ∧
      (newState sh q w).cancelled = false := by
  unfold newState
  simp only
  split
  · exact ⟨rfl, rfl, rfl⟩
  · split <;> exact ⟨rfl, rfl, rfl⟩

lemma register_obj {w : ℤ} (hg : g < e.gens) :
    (registerRequest sh q w e).obj g = e.obj g ∧
      made (registerRequest sh q w e) g = made e g := by
  unfold registerRequest
  cases ht : e.table with
  | some g' => exact ⟨rfl, rfl⟩
  | none => exact ⟨Function.update_of_ne (by omega) _ _, made_add_of_ne (by omega)⟩

lemma register_new (h : EntryOk sh q e) {w : ℤ} (ht : e.table = none) :
    (registerRequest sh q w e).gens = e.gens + 1 ∧
      made (registerRequest sh q w e) e.gens = 0 ∧
      ((registerRequest sh q w e).obj e.gens).matched = [] := by
  obtain ⟨hcursor, hmatched, -⟩ := newState_blank sh q w
  unfold registerRequest
  rw [ht]
  exact ⟨rfl, (made_add h.producer).trans hcursor, by simpa using hmatched⟩

lemma register_gens_le {w : ℤ} : e.gens ≤ (registerRequest sh q w e).gens := by
  unfold registerRequest
  split
  · exact le_rfl
  · exact Nat.le_succ _

end Mini2.Producer
