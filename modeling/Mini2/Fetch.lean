import Mini2.GatherShape

/-!
The drain of `FetchChunk`: one row off the rows of the gateway's own partition, one off the
buffer of every other owner, and again, until the chunk is full or a round finds nothing. The
loops stop where the code breaks out of them, and the counters go up row by row.
-/

namespace Mini2.Fetch

open Mini2.RoundRobin

variable {N Row : Type} [DecidableEq N]

/-- What the drain changes: the deques, the rows of the response and the counters. -/
@[ext]
structure Drained (N Row : Type) where
  matched : List Row
  prefetchBuf : N → List Row
  rows : List Row
  produced : ℤ
  clientPerOwnerRows : N → ℤ
  totalMatched : ℤ

def Drained.add (st : Drained N Row) (owner : N) (row : Row) : Drained N Row :=
  { st with
    rows := st.rows ++ [row]
    produced := st.produced + 1
    clientPerOwnerRows := Function.update st.clientPerOwnerRows owner
      (st.clientPerOwnerRows owner + 1)
    totalMatched := st.totalMatched + 1 }

/-- The loop over the remote owners, and whether this round has drained a row. -/
def remoteOwners (maxRows : ℤ) (name : N) : List N → Drained N Row → Bool → Drained N Row × Bool
  | [], st, drained => (st, drained)
  | o :: owners, st, drained =>
    if o = name then remoteOwners maxRows name owners st drained
    else
      match st.prefetchBuf o with
      | [] => remoteOwners maxRows name owners st drained
      | row :: buf =>
        let st' := { st.add o row with prefetchBuf := Function.update st.prefetchBuf o buf }
        if st'.produced ≥ maxRows then (st', true)
        else remoteOwners maxRows name owners st' true

/-- The loop of the rounds, with fuel; nothing, if the fuel does not last. -/
def drainLoop (maxRows : ℤ) (name : N) (owners : List N) : ℕ → Drained N Row →
    Option (Drained N Row)
  | 0, _ => none
  | fuel + 1, st =>
    if st.produced < maxRows then
      match st.matched with
      | row :: rest =>
        let st' := { st.add name row with matched := rest }
        if st'.produced ≥ maxRows then some st'
        else drainLoop maxRows name owners fuel (remoteOwners maxRows name owners st' true).1
      | [] =>
        let (st', drained) := remoteOwners maxRows name owners st false
        if !drained then some st' else drainLoop maxRows name owners fuel st'
    else some st

/-- The owners the loop does not skip. -/
def remote (name : N) (owners : List N) : List N := owners.filter fun o => o ≠ name

def sources (name : N) (owners : List N) : List N := name :: remote name owners

def Drained.buffer (st : Drained N Row) (name o : N) : List Row :=
  if o = name then st.matched else st.prefetchBuf o

/-! ### The drain of the queues -/

/-- The state `st` is in after the drain `d` of its buffers. -/
def ofDrain (st : Drained N Row) (name : N) (d : Drain N Row) : Drained N Row where
  matched := d.queue name
  prefetchBuf o := if o = name then st.prefetchBuf name else d.queue o
  rows := st.rows ++ d.taken.map Prod.snd
  produced := d.taken.length
  clientPerOwnerRows o := st.clientPerOwnerRows o + given d o
  totalMatched := st.totalMatched + d.taken.length

variable {st : Drained N Row} {name : N} {maxRows : ℤ} {d : Drain N Row}

lemma given_append (d : Drain N Row) (o o' : N) (row : Row) (queue : N → List Row) :
    given ⟨d.taken ++ [(o, row)], queue⟩ o' = if o' = o then given d o + 1 else given d o' := by
  unfold given
  rw [itemsOf_append]
  by_cases h : o' = o
  · subst h
    simp [itemsOf_self]
  · simp [itemsOf_ne (Ne.symm h), h]

lemma ofDrain_add (o : N) (row : Row) (queue : N → List Row) :
    ((ofDrain st name d).add o row).clientPerOwnerRows =
      (ofDrain st name ⟨d.taken ++ [(o, row)], queue⟩).clientPerOwnerRows := by
  funext o'
  simp only [Drained.add, ofDrain, given_append]
  by_cases h : o' = o
  · subst h
    rw [Function.update_self, if_pos rfl]
    push_cast
    omega
  · rw [Function.update_of_ne h, if_neg h]

lemma visit_self {row : Row} {rest : List Row} (hmax : (d.taken.length : ℤ) < maxRows)
    (hq : d.queue name = row :: rest) :
    { (ofDrain st name d).add name row with matched := rest } =
      ofDrain st name (visit maxRows d name) := by
  unfold visit
  rw [if_pos hmax, hq]
  refine Drained.ext ?_ ?_ ?_ ?_ (ofDrain_add name row _) ?_
  · exact (Function.update_self name rest d.queue).symm
  · funext o
    show (if o = name then st.prefetchBuf name else d.queue o) =
      if o = name then st.prefetchBuf name else Function.update d.queue name rest o
    by_cases h : o = name
    · rw [if_pos h, if_pos h]
    · rw [if_neg h, if_neg h, Function.update_of_ne h]
  · simp [Drained.add, ofDrain]
  · simp [Drained.add, ofDrain]
  · simp [Drained.add, ofDrain]
    omega

lemma visit_remote {o : N} (ho : o ≠ name) {row : Row} {buf : List Row}
    (hmax : (d.taken.length : ℤ) < maxRows) (hq : d.queue o = row :: buf) :
    { (ofDrain st name d).add o row with
      prefetchBuf := Function.update (ofDrain st name d).prefetchBuf o buf } =
        ofDrain st name (visit maxRows d o) := by
  unfold visit
  rw [if_pos hmax, hq]
  refine Drained.ext ?_ ?_ ?_ ?_ (ofDrain_add o row _) ?_
  · exact (Function.update_of_ne ho.symm buf d.queue).symm
  · funext o'
    show Function.update
        (fun o' => if o' = name then st.prefetchBuf name else d.queue o') o buf o' =
      if o' = name then st.prefetchBuf name else Function.update d.queue o buf o'
    by_cases h : o' = o
    · subst h
      rw [Function.update_self, if_neg ho, Function.update_self]
    · rw [Function.update_of_ne h, Function.update_of_ne h]
  · simp [Drained.add, ofDrain]
  · simp [Drained.add, ofDrain]
  · simp [Drained.add, ofDrain]
    omega

lemma add_produced (o : N) (row : Row) (hone : (visit maxRows d o).taken.length =
    d.taken.length + 1) : ((ofDrain st name d).add o row).produced =
      (visit maxRows d o).taken.length := by
  rw [hone]
  push_cast
  rfl

lemma visit_nil {o : N} (hq : d.queue o = []) : visit maxRows d o = d := by
  unfold visit
  rw [hq]
  exact ite_self d

lemma visit_cons {o : N} {row : Row} {buf : List Row} (hmax : (d.taken.length : ℤ) < maxRows)
    (hq : d.queue o = row :: buf) :
    (visit maxRows d o).taken.length = d.taken.length + 1 := by
  simp [visit, hmax, hq]

/-- The loop over the remote owners visits their queues, and sees whether it has taken a row. -/
lemma remoteOwners_eq (owners : List N) (d : Drain N Row) (drained : Bool)
    (hmax : (d.taken.length : ℤ) < maxRows) :
    remoteOwners maxRows name owners (ofDrain st name d) drained =
      (ofDrain st name (round maxRows (remote name owners) d),
        drained ||
          decide (d.taken.length < (round maxRows (remote name owners) d).taken.length)) := by
  induction owners generalizing d drained with
  | nil => simp [remoteOwners, remote, RoundRobin.round]
  | cons o owners ih =>
    unfold remoteOwners
    by_cases ho : o = name
    · have hskip : remote name (o :: owners) = remote name owners :=
        List.filter_cons_of_neg (by simpa using ho)
      rw [if_pos ho, ih d drained hmax, hskip]
    · have hround : round maxRows (remote name (o :: owners)) d =
          round maxRows (remote name owners) (visit maxRows d o) := by
        unfold remote
        rw [List.filter_cons_of_pos (by simpa using ho)]
        rfl
      have hbuf : (ofDrain st name d).prefetchBuf o = d.queue o := if_neg ho
      rw [if_neg ho, hbuf, hround]
      cases hq : d.queue o with
      | nil =>
        rw [visit_nil hq]
        exact ih d drained hmax
      | cons row buf =>
        have hone := visit_cons hmax hq
        have hle := round_length maxRows (remote name owners) (visit maxRows d o)
        have htaken : decide (d.taken.length <
            (round maxRows (remote name owners) (visit maxRows d o)).taken.length) = true :=
          decide_eq_true (by omega)
        simp only [visit_remote ho hmax hq, htaken, Bool.or_true]
        rw [add_produced o row hone]
        split
        next hfull => rw [round_full hfull]
        next hfull => rw [ih (visit maxRows d o) true (by omega), Bool.true_or]

lemma drainLoop_eq (owners : List N) {k fuel : ℕ} (hfuel : k < fuel) (d : Drain N Row)
    (hk : maxRows ≤ k + d.taken.length) :
    drainLoop maxRows name owners fuel (ofDrain st name d) =
      some (ofDrain st name (rounds maxRows (sources name owners) k d)) := by
  induction k generalizing fuel d with
  | zero =>
    obtain ⟨fuel, rfl⟩ := Nat.exists_eq_succ_of_ne_zero (by omega : fuel ≠ 0)
    have hprod : (ofDrain st name d).produced = d.taken.length := rfl
    rw [Nat.succ_eq_add_one, drainLoop, hprod, if_neg (by omega)]
    rfl
  | succ k ih =>
    obtain ⟨fuel, rfl⟩ := Nat.exists_eq_succ_of_ne_zero (by omega : fuel ≠ 0)
    have hprod : (ofDrain st name d).produced = d.taken.length := rfl
    have hmatched : (ofDrain st name d).matched = d.queue name := rfl
    rw [Nat.succ_eq_add_one, drainLoop, hprod, hmatched]
    by_cases hmax : (d.taken.length : ℤ) < maxRows
    · have hround : round maxRows (sources name owners) d =
          round maxRows (remote name owners) (visit maxRows d name) := rfl
      have hlen := round_length maxRows (remote name owners) (visit maxRows d name)
      rw [if_pos hmax, rounds, if_pos hmax]
      cases hq : d.queue name with
      | nil =>
        rw [visit_nil hq] at hround hlen
        simp only [remoteOwners_eq owners d false hmax, hround, Bool.false_or]
        by_cases hnone : (round maxRows (remote name owners) d).taken.length = d.taken.length
        · rw [if_pos (by simp [hnone]), if_pos hnone]
        · rw [if_neg (by simp; omega), if_neg hnone]
          exact ih (by omega) _ (by push_cast at hk; omega)
      | cons row rest =>
        have hone := visit_cons hmax hq
        simp only [visit_self hmax hq, hround]
        rw [add_produced name row hone, if_neg (by omega : ¬ (round maxRows (remote name owners)
          (visit maxRows d name)).taken.length = d.taken.length)]
        by_cases hfull : ((visit maxRows d name).taken.length : ℤ) ≥ maxRows
        · rw [if_pos hfull, round_full hfull, rounds_full hfull]
        · rw [if_neg hfull, remoteOwners_eq owners _ true (by omega)]
          exact ih (by omega) _ (by push_cast at hk; omega)
    · rw [if_neg hmax, rounds, if_neg hmax]

/-! ### What a drain does -/

lemma ofDrain_start (st : Drained N Row) (name : N) (hp : st.produced = 0) :
    ofDrain st name ⟨[], st.buffer name⟩ = st := by
  refine Drained.ext (if_pos rfl) ?_ (List.append_nil _) hp.symm ?_ ?_
  · funext o
    show (if o = name then st.prefetchBuf name else
      if o = name then st.matched else st.prefetchBuf o) = st.prefetchBuf o
    by_cases h : o = name
    · rw [if_pos h, h]
    · rw [if_neg h, if_neg h]
  · funext o
    simp [ofDrain, given]
  · simp [ofDrain]

def Drained.buffered (st : Drained N Row) (name : N) (owners : List N) : ℕ :=
  ((sources name owners).map fun o => (st.buffer name o).length).sum

/-- The drain ends in `st'`, and the log has the rows it took, with their sources. -/
structure FairLossless (maxRows : ℤ) (name : N) (owners : List N) (st st' : Drained N Row)
    (log : List (N × Row)) : Prop where
  ends : ∃ fuel, ∀ f ≥ fuel, drainLoop maxRows name owners f st = some st'
  rows : st'.rows = st.rows ++ log.map Prod.snd
  length : (log.length : ℤ) = min (max maxRows 0) (st.buffered name owners)
  /-- A source gives a prefix of its rows, in order. -/
  sources : ∀ o ∈ sources name owners, st.buffer name o = itemsOf log o ++ st'.buffer name o
  others : ∀ o ∉ Fetch.sources name owners,
    st'.buffer name o = st.buffer name o ∧ itemsOf log o = []
  /-- The sources give equally many, but for one more from the first ones. -/
  shares : ∃ r pre post, pre ++ post = Fetch.sources name owners ∧
    (∀ o ∈ pre, (itemsOf log o).length = min (st.buffer name o).length (r + 1)) ∧
    ∀ o ∈ post, (itemsOf log o).length = min (st.buffer name o).length r
  perOwner : ∀ o, st'.clientPerOwnerRows o = st.clientPerOwnerRows o + (itemsOf log o).length
  total : st'.totalMatched = st.totalMatched + log.length

/-- **The drain is fair and loses nothing.** It ends, with as many rows as there are up to its
limit. -/
theorem drain_fair_lossless {owners : List N} (hos : owners.Nodup) (maxRows : ℤ) (name : N)
    (st : Drained N Row) (hp : st.produced = 0) :
    ∃ st' log, FairLossless maxRows name owners st st' log := by
  set d := drain maxRows (sources name owners) (st.buffer name) with hd
  have hnd : (sources name owners).Nodup := by
    refine List.nodup_cons.mpr ⟨fun hmem => ?_, hos.filter _⟩
    simpa using (List.mem_filter.mp hmem).2
  have hbuffer : ∀ o, (ofDrain st name d).buffer name o = d.queue o := by
    intro o
    by_cases h : o = name
    · subst h
      exact if_pos rfl
    · exact (if_neg h).trans (if_neg h)
  obtain ⟨r, pre, post, hsplit, hshared⟩ := drain_shared hnd maxRows (st.buffer name)
  refine ⟨ofDrain st name d, d.taken, ⟨maxRows.toNat + 1, fun f hf => ?_⟩, rfl, ?_, ?_, ?_,
    ⟨r, pre, post, hsplit, hshared.pre, hshared.post⟩, fun _ => rfl, rfl⟩
  · have hloop : drainLoop maxRows name owners f (ofDrain st name ⟨[], st.buffer name⟩) =
        some (ofDrain st name d) :=
      drainLoop_eq (k := maxRows.toNat) owners (by omega) _ (by simp)
    rwa [ofDrain_start st name hp] at hloop
  · have hlen : d.taken.length = min maxRows.toNat (st.buffered name owners) :=
      drain_length hnd (st.buffer name)
    omega
  · intro o _
    rw [hbuffer, hd]
    exact (drain_conserves maxRows (sources name owners) (st.buffer name) o).symm
  · intro o ho
    rw [hbuffer, hd]
    refine ⟨drain_other ho, itemsOf_eq_nil fun p hp h => ho ?_⟩
    exact h ▸ drain_within maxRows (sources name owners) (st.buffer name) p hp

/-- Three rows at owner `0`, which drains, one at owner `1` and two at owner `2`. -/
def threeSources : Drained ℕ ℕ where
  matched := [1, 2, 3]
  prefetchBuf o := if o = 1 then [10] else if o = 2 then [20, 21] else []
  rows := []
  produced := 0
  clientPerOwnerRows _ := 0
  totalMatched := 0

/-- The limit is reached in the second round, before owner `2` has its turn. -/
theorem drain_fair_lossless_three :
    ∃ st' log, FairLossless 4 0 [1, 0, 2] threeSources st' log :=
  drain_fair_lossless (by decide) 4 0 threeSources rfl

example : (drainLoop 4 0 [1, 0, 2] 3 threeSources).map (·.rows) = some [1, 10, 20, 2] := by decide

/-! ### The drain of the system -/

open Mini2.Gather in
def ofSys {Query : Type} (c : Config N Query Row) (s : Sys N Row) : Drained N Row where
  matched := (s.self c).matched
  prefetchBuf := s.gate.prefetchBuf
  rows := []
  produced := 0
  clientPerOwnerRows _ := 0
  totalMatched := s.gate.totalMatched

open Mini2.Gather in
/-- The locked step of the system is the loop of the code. -/
theorem drainStep_eq {Query : Type} (c : Config N Query Row) (s : Sys N Row) (maxRows : ℤ) :
    ∃ st', (∃ fuel, ∀ f ≥ fuel,
        drainLoop maxRows c.gateway c.overlay.dataOwners f (ofSys c s) = some st') ∧
      st'.matched = ((drainStep c s maxRows).self c).matched ∧
      st'.prefetchBuf = (drainStep c s maxRows).gate.prefetchBuf ∧
      (drainStep c s maxRows).log.map Prod.snd = s.log.map Prod.snd ++ st'.rows ∧
      st'.totalMatched = (drainStep c s maxRows).gate.totalMatched := by
  refine ⟨ofDrain (ofSys c s) c.gateway (drain maxRows (Gather.sources c) (s.slots c)),
    ⟨maxRows.toNat + 1, fun f hf => ?_⟩, ?_, ?_, ?_, ?_⟩
  · have hloop : drainLoop maxRows c.gateway c.overlay.dataOwners f
        (ofDrain (ofSys c s) c.gateway ⟨[], (ofSys c s).buffer c.gateway⟩) =
          some (ofDrain (ofSys c s) c.gateway (drain maxRows (Gather.sources c) (s.slots c))) :=
      drainLoop_eq (k := maxRows.toNat) c.overlay.dataOwners (by omega) _ (by simp)
    rwa [ofDrain_start _ _ rfl] at hloop
  · simp [drainStep, ofDrain, Sys.self, Request.Entry.setObj, Sys.setNode]
  · funext o
    by_cases h : o = c.gateway
    · subst h
      simp [drainStep, ofDrain, ofSys]
    · simp [drainStep, ofDrain, ofSys, h]
  · simp [drainStep, ofDrain, ofSys]
  · simp [drainStep, ofDrain, ofSys]

end Mini2.Fetch
