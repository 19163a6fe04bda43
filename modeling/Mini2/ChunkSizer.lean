import Mathlib.Logic.Function.Basic
import Mathlib.Tactic.Ring
import Mini2.Lib.Machine
import Mini2.OverlayLines

/-!
The sizer of chunks. It answers every pull with a number of rows: what the client asks for, or a
size that grows while the pulls come fast and shrinks while they come slowly. One size is kept for
each request.
-/

namespace Mini2.ChunkSizer

open Mini2.Machine Mini2.Trunc Mini2.OverlayYaml

/-! ### The sizer -/

/-- What is kept of a request; the time is in nanoseconds. -/
structure State where
  cur : ℤ := 0
  last : ℕ := 0
  hasLast : Bool := false

abbrev States := String → Option State

/-- `int(st.cur * 1.5) + 1`, unless it is no value of an `int`. -/
def grow (cur : ℤ) : Option ℤ :=
  (castChecked 32 (cur * (3 / 2))).bind fun n => checked 32 (n + 1)

/-- The size after a time in milliseconds. -/
def adapt (ch : Chunking) (cur dt : ℤ) : Option ℤ :=
  if dt < ch.targetChunkMs.tdiv 2 then (grow cur).map (min ch.maxRows)
  else (checked 32 (ch.targetChunkMs * 2)).map fun limit =>
    if dt > limit then max ch.minRows (cur.tdiv 2) else cur

/-- `decide` at a time; none where a value leaves the range of an `int`. -/
protected def decide (ch : Chunking) (s : States) (rid : String) (hint : ℤ) (now : ℕ) :
    Option (ℤ × States) :=
  let st := (s rid).getD {}
  let cur := if st.cur = 0 then ch.initialRows else st.cur
  let next :=
    if hint > 0 then some (max ch.minRows (min ch.maxRows hint))
    else if st.hasLast then adapt ch cur ((now - st.last) / 10 ^ 6 : ℕ)
    else some cur
  next.map fun n => (n, Function.update s rid (some { cur := n, last := now, hasLast := true }))

def forget (s : States) (rid : String) : States := Function.update s rid none

/-! ### Runs -/

/-- A call to the sizer; `decide` so many nanoseconds after the one before. -/
inductive Call
  | decide (rid : String) (hint : ℤ) (gap : ℕ)
  | forget (rid : String)

/-- The hint is a value of an `int`. -/
def Call.HintFits : Call → Prop
  | .decide _ hint _ => Fits 32 hint
  | .forget _ => True

def run (ch : Chunking) (s : States) (now : ℕ) : List Call → Option (List ℤ)
  | [] => some []
  | .decide rid hint gap :: calls =>
    (ChunkSizer.decide ch s rid hint (now + gap)).bind fun r =>
      (run ch r.2 (now + gap) calls).map (r.1 :: ·)
  | .forget rid :: calls => run ch (forget s rid) now calls

/-- In every run the computations stay in range, and the sizes between the bounds. -/
def Bounded (ch : Chunking) : Prop :=
  ∀ now calls, (∀ c ∈ calls, Call.HintFits c) →
    ∃ sizes, run ch (fun _ => none) now calls = some sizes ∧
      ∀ n ∈ sizes, ch.minRows ≤ n ∧ n ≤ ch.maxRows

/-! ### Growth -/

variable {ch : Chunking} {cur : ℤ}

lemma isDouble_growth (hcur : Fits 32 cur) : IsDouble (cur * (3 / 2)) := by
  obtain ⟨hlo, hhi⟩ := hcur
  refine ⟨3 * cur, -1, ?_, by omega, by omega, ?_⟩
  · rw [abs_lt]
    omega
  · push_cast
    ring

lemma trunc_growth (hcur : 0 ≤ cur) : trunc (cur * (3 / 2)) = 3 * cur / 2 := by
  have hnonneg : (0 : ℚ) ≤ cur * (3 / 2) := by positivity
  have hquotient : (cur : ℚ) * (3 / 2) = ((3 * cur : ℤ) : ℚ) / ((2 : ℕ) : ℚ) := by
    push_cast
    ring
  rw [trunc_of_nonneg hnonneg, hquotient, Rat.floor_intCast_div_natCast]
  rfl

lemma grow_eq (hcur : 0 ≤ cur) :
    grow cur = if cur ≤ 1431655764 then some (3 * cur / 2 + 1) else none := by
  unfold grow castChecked
  rw [trunc_growth hcur]
  split
  · have hcast : Fits 32 (3 * cur / 2) := by
      unfold Fits
      omega
    have hsum : Fits 32 (3 * cur / 2 + 1) := by
      unfold Fits
      omega
    rw [checked_of_fits hcast]
    exact checked_of_fits hsum
  · have hsum : ¬ Fits 32 (3 * cur / 2 + 1) := by
      unfold Fits
      omega
    by_cases hcast : Fits 32 (3 * cur / 2)
    · rw [checked_of_fits hcast]
      exact checked_of_not_fits hsum
    · rw [checked_of_not_fits hcast]
      rfl

/-! ### Values that agree -/

structure Positive (ch : Chunking) : Prop where
  initialRows : 0 < ch.initialRows
  minRows : 0 < ch.minRows
  maxRows : 0 < ch.maxRows
  targetChunkMs : 0 < ch.targetChunkMs

/-- The first size is between the bounds, and what is computed of the bound above and of the
target is a value of an `int`. With a target of one millisecond no size grows. -/
structure Agrees (ch : Chunking) : Prop where
  min_le : ch.minRows ≤ ch.initialRows
  le_max : ch.initialRows ≤ ch.maxRows
  growth : ch.maxRows ≤ 1431655764 ∨ ch.targetChunkMs < 2
  target : ch.targetChunkMs ≤ 1073741823

def Within (ch : Chunking) (n : ℤ) : Prop := ch.minRows ≤ n ∧ n ≤ ch.maxRows

lemma adapt_within (hpos : Positive ch) (hag : Agrees ch) (hcur : Within ch cur) {dt : ℤ}
    (hdt : 0 ≤ dt) : ∃ n, adapt ch cur dt = some n ∧ Within ch n := by
  obtain ⟨-, hmin, hmax, htarget⟩ := hpos
  obtain ⟨hle, hle', hgrowth, hlimit⟩ := hag
  obtain ⟨hlo, hhi⟩ := hcur
  have hhalf : ch.targetChunkMs.tdiv 2 = ch.targetChunkMs / 2 :=
    Int.tdiv_eq_ediv_of_nonneg htarget.le
  have hshrink : cur.tdiv 2 = cur / 2 := Int.tdiv_eq_ediv_of_nonneg (by omega)
  unfold adapt Within
  rw [hhalf, hshrink]
  by_cases hfast : dt < ch.targetChunkMs / 2
  · have hcap : cur ≤ 1431655764 := by omega
    rw [if_pos hfast, grow_eq (by omega), if_pos hcap]
    refine ⟨_, rfl, ?_⟩
    omega
  · have hfits : Fits 32 (ch.targetChunkMs * 2) := by
      unfold Fits
      omega
    rw [if_neg hfast, checked_of_fits hfits]
    by_cases hslow : dt > ch.targetChunkMs * 2
    · refine ⟨_, congrArg some (if_pos hslow), ?_⟩
      omega
    · refine ⟨_, congrArg some (if_neg hslow), ?_⟩
      omega

def Held (ch : Chunking) (s : States) : Prop := ∀ rid st, s rid = some st → Within ch st.cur

lemma held_update {s : States} (hs : Held ch s) {st : State} (hst : Within ch st.cur)
    (rid : String) : Held ch (Function.update s rid (some st)) := by
  intro x st' hx
  by_cases h : x = rid
  · rw [h, Function.update_self] at hx
    obtain rfl := Option.some.inj hx
    exact hst
  · rw [Function.update_of_ne h] at hx
    exact hs x st' hx

lemma held_forget {s : States} (hs : Held ch s) (rid : String) : Held ch (forget s rid) := by
  intro x st hx
  by_cases h : x = rid
  · rw [forget, h, Function.update_self] at hx
    exact absurd hx (by simp)
  · rw [forget, Function.update_of_ne h] at hx
    exact hs x st hx

lemma decide_within (hpos : Positive ch) (hag : Agrees ch) {s : States} (hs : Held ch s)
    (rid : String) (hint : ℤ) (now : ℕ) :
    ∃ n s', ChunkSizer.decide ch s rid hint now = some (n, s') ∧ Within ch n ∧ Held ch s' := by
  have hmin := hpos.minRows
  obtain ⟨st, hst⟩ : ∃ st, (s rid).getD {} = st := ⟨_, rfl⟩
  have hcur : Within ch (if st.cur = 0 then ch.initialRows else st.cur) := by
    have hle := hag.min_le
    have hle' := hag.le_max
    cases hrid : s rid with
    | none =>
      rw [hrid] at hst
      subst hst
      exact ⟨hle, hle'⟩
    | some st' =>
      obtain rfl : st' = st := by simpa [hrid] using hst
      have hkept := hs rid st' hrid
      rw [if_neg fun hzero => by have hlo := hkept.1; omega]
      exact hkept
  have hnext : ∃ n, (if hint > 0 then some (max ch.minRows (min ch.maxRows hint))
      else if st.hasLast then
        adapt ch (if st.cur = 0 then ch.initialRows else st.cur) ((now - st.last) / 10 ^ 6 : ℕ)
      else some (if st.cur = 0 then ch.initialRows else st.cur)) = some n ∧ Within ch n := by
    split
    · refine ⟨_, rfl, ?_⟩
      have hle := hag.min_le
      have hle' := hag.le_max
      unfold Within
      omega
    · split
      · exact adapt_within hpos hag hcur (Int.natCast_nonneg _)
      · exact ⟨_, rfl, hcur⟩
  obtain ⟨n, hn, hwithin⟩ := hnext
  have hheld : Held ch (Function.update s rid (some { cur := n, last := now, hasLast := true })) :=
    held_update hs hwithin rid
  refine ⟨n, _, ?_, hwithin, hheld⟩
  rw [ChunkSizer.decide, hst, hn]
  rfl

lemma run_within (hpos : Positive ch) (hag : Agrees ch) (calls : List Call) {s : States}
    (hs : Held ch s) (now : ℕ) :
    ∃ sizes, run ch s now calls = some sizes ∧ ∀ n ∈ sizes, Within ch n := by
  induction calls generalizing s now with
  | nil => exact ⟨[], rfl, List.forall_mem_nil _⟩
  | cons c calls ih =>
    cases c with
    | decide rid hint gap =>
      obtain ⟨n, s', hcall, hn, hs'⟩ := decide_within hpos hag hs rid hint (now + gap)
      obtain ⟨sizes, hrun, hsizes⟩ := ih hs' (now + gap)
      refine ⟨n :: sizes, ?_, List.forall_mem_cons.mpr ⟨hn, hsizes⟩⟩
      rw [run, hcall, Option.bind_some, hrun]
      rfl
    | forget rid => exact ih (held_forget hs rid) now

/-! ### Values that do not agree -/

lemma run_pair {hint n : ℤ} (hn : n ≠ 0)
    (hfirst : (if hint > 0 then max ch.minRows (min ch.maxRows hint) else ch.initialRows) = n)
    (gap : ℕ) : run ch (fun _ => none) 0 [.decide "" hint 0, .decide "" 0 gap] =
      (adapt ch n (gap / 10 ^ 6 : ℕ)).map fun m => [n, m] := by
  obtain ⟨s, hs⟩ : ∃ s : States, Function.update (fun _ => none) ""
      (some { cur := n, last := 0 + 0, hasLast := true }) = s := ⟨_, rfl⟩
  have hkept : s "" = some { cur := n, last := 0 + 0, hasLast := true } := by
    rw [← hs, Function.update_self]
  have hcall : ChunkSizer.decide ch (fun _ => none) "" hint (0 + 0) = some (n, s) := by
    rw [← hs, ← hfirst, ChunkSizer.decide]
    split <;> rfl
  have hsecond : ChunkSizer.decide ch s "" 0 (0 + 0 + gap) =
      (adapt ch n (gap / 10 ^ 6 : ℕ)).map fun m =>
        (m, Function.update s "" (some { cur := m, last := 0 + 0 + gap, hasLast := true })) := by
    rw [ChunkSizer.decide, hkept]
    dsimp only [Option.getD_some]
    rw [if_neg hn, if_neg (by omega), if_pos rfl, Nat.add_sub_cancel_left]
  rw [run, hcall, Option.bind_some, run, hsecond]
  cases adapt ch n (gap / 10 ^ 6 : ℕ) <;> rfl

lemma agrees_of_bounded (hpos : Positive ch) (h : Bounded ch) : Agrees ch := by
  obtain ⟨hinitial, hmin, hmax, htarget⟩ := hpos
  have hpair : ∀ {hint n : ℤ}, Fits 32 hint → n ≠ 0 →
      (if hint > 0 then max ch.minRows (min ch.maxRows hint) else ch.initialRows) = n →
      ∀ gap, Within ch n ∧ adapt ch n (gap / 10 ^ 6 : ℕ) ≠ none := by
    intro hint n hfits hn hfirst gap
    have hfits' : ∀ c ∈ [Call.decide "" hint 0, .decide "" 0 gap], Call.HintFits c := by
      have hzero : Fits 32 0 := by decide
      simp [Call.HintFits, hfits, hzero]
    obtain ⟨sizes, hrun, hsizes⟩ := h 0 _ hfits'
    rw [run_pair hn hfirst gap] at hrun
    obtain ⟨m, hm, rfl⟩ := Option.map_eq_some_iff.mp hrun
    refine ⟨hsizes n (by simp), ?_⟩
    rw [hm]
    exact Option.some_ne_none m
  have hzero : Fits 32 0 := by decide
  obtain ⟨⟨hle, hle'⟩, hslow⟩ := hpair hzero hinitial.ne' rfl (10 ^ 6 * ch.targetChunkMs.toNat)
  have hhalf : ch.targetChunkMs.tdiv 2 = ch.targetChunkMs / 2 :=
    Int.tdiv_eq_ediv_of_nonneg htarget.le
  refine ⟨hle, hle', ?_, ?_⟩
  · -- the largest hint, and a second call at once
    by_contra hgrowth
    rw [not_or] at hgrowth
    obtain ⟨n, hn⟩ : ∃ n, max ch.minRows (min ch.maxRows 2147483647) = n := ⟨_, rfl⟩
    have hhint : Fits 32 2147483647 := by decide
    have hfast := (hpair hhint (n := n) (by omega) hn 0).2
    have hcap : ¬ n ≤ 1431655764 := by omega
    apply hfast
    rw [adapt, hhalf, if_pos (by omega), grow_eq (by omega), if_neg hcap]
    rfl
  · -- a second call as late as the target
    by_contra htwice
    have hfits : ¬ Fits 32 (ch.targetChunkMs * 2) := by
      unfold Fits
      omega
    apply hslow
    rw [adapt, hhalf, if_neg (by omega), checked_of_not_fits hfits]
    rfl

/-- **The sizes stay within the bounds exactly when the values agree.** -/
lemma bounded_iff_agrees (hpos : Positive ch) : Bounded ch ↔ Agrees ch := by
  refine ⟨agrees_of_bounded hpos, fun hag now calls _ => run_within hpos hag calls ?_ now⟩
  intro rid st hst
  exact absurd hst (by simp)

/-! ### The values that are loaded -/

structure Ints (ch : Chunking) : Prop where
  initialRows : Fits 32 ch.initialRows
  minRows : Fits 32 ch.minRows
  maxRows : Fits 32 ch.maxRows
  targetChunkMs : Fits 32 ch.targetChunkMs

lemma atoi_fits (s : Line) : Fits 32 (atoi s) := by
  have hbounds : ∀ z : ℤ, Fits 32 (z.bmod (2 ^ 32)) := by
    intro z
    have hlo := Int.le_bmod (x := z) (m := 2 ^ 32) (by omega)
    have hhi := Int.bmod_lt (x := z) (m := 2 ^ 32) (by omega)
    unfold Fits
    omega
  exact hbounds _

lemma chunkingLine_ints (h : Ints ch) (cl : Line) : Ints (chunkingLine ch cl) := by
  have hatoi := atoi_fits (sides cl).2
  unfold chunkingLine
  dsimp only
  split
  · exact { h with initialRows := hatoi }
  · split
    · exact { h with minRows := hatoi }
    · split
      · exact { h with maxRows := hatoi }
      · split
        · exact { h with targetChunkMs := hatoi }
        · exact h

lemma foldl_ints (ls : List Line) (h : Ints ch) : Ints (ls.foldl chunkingLine ch) := by
  induction ls generalizing ch with
  | nil => exact h
  | cons l ls ih => exact ih (chunkingLine_ints h l)

variable {atof : Line → ℚ} {ls : List Line} {out out' : Overlay}

lemma applyKey_ints {key rest : Line} (h : Ints out.chunking)
    (happly : applyKey atof key rest ls out = .ok out') : Ints out'.chunking := by
  have hmap : ∀ {A : Type} (x : Except String A) (f : A → Overlay),
      (∀ a, (f a).chunking = out.chunking) → x.map f = .ok out' → Ints out'.chunking := by
    intro A x f hf hx
    cases x with
    | error e => exact absurd hx (by simp [Except.map])
    | ok a =>
      obtain rfl : f a = out' := Except.ok.inj hx
      rw [hf a]
      exact h
  unfold applyKey at happly
  split at happly
  · refine hmap _ _ ?_ happly
    exact fun m => rfl
  split at happly
  · obtain rfl := Except.ok.inj happly
    exact h
  split at happly
  · refine hmap _ _ ?_ happly
    exact fun m => rfl
  split at happly
  · obtain rfl := Except.ok.inj happly
    split
    · exact h
    · exact h
  split at happly
  · obtain rfl := Except.ok.inj happly
    exact foldl_ints _ h
  split at happly
  · obtain rfl := Except.ok.inj happly
    exact h
  split at happly
  · obtain rfl := Except.ok.inj happly
    exact h
  · obtain rfl := Except.ok.inj happly
    exact h

lemma parseLines_ints (h : Ints out.chunking) (hparse : parseLines atof ls out = .ok out') :
    Ints out'.chunking := by
  fun_induction parseLines atof ls out with
  | case1 out =>
    obtain rfl := Except.ok.inj hparse
    exact h
  | case2 out l ls hskip ih => exact ih h hparse
  | case3 out l ls hskip hcut ih => exact ih h hparse
  | case4 out l ls hskip k rest hcut e happly => exact absurd hparse (by simp)
  | case5 out l ls hskip k rest hcut out₁ happly howners ih =>
    exact ih (applyKey_ints h happly) hparse
  | case6 out l ls hskip k rest hcut out₁ happly howners ih =>
    exact ih (applyKey_ints h happly) hparse

variable {getenv : String → Option (List Char)}

lemma override_fits (name : String) {d : ℤ} (hd : Fits 32 d) :
    Fits 32 (override getenv name d) := by
  unfold override
  split
  · split
    · exact atoi_fits _
    · exact hd
  · exact hd

lemma loadOverlay_ints {files : String → Option (List Char)} {path : String}
    (h : loadOverlay getenv atof files path = .ok out) : Ints out.chunking := by
  have hdefault : Ints {} := ⟨by decide, by decide, by decide, by decide⟩
  unfold loadOverlay at h
  dsimp only at h
  split at h
  · exact absurd h (by simp)
  · split at h
    · exact absurd h (by simp)
    · rename_i text _ out₁ hparse
      have hints : Ints out₁.chunking := parseLines_ints hdefault hparse
      split at h
      · exact absurd h (by simp)
      · obtain rfl := Except.ok.inj h
        exact ⟨override_fits _ hints.initialRows, hints.minRows, override_fits _ hints.maxRows,
          override_fits _ hints.targetChunkMs⟩

def oneNode (_ : String) : Option (List Char) := some "nodes:\n  A: \x7b\x7d\n".toList

/-- What is loaded from it, for a row cap. -/
def oneNodeOverlay (maxRows : ℤ) : Overlay :=
  { nodes := [("A", { name := "A", host := "", port := 0, team := "", role := "", impl := "" })]
    chunking := { maxRows := maxRows } }

lemma parse_oneNode (atof : Line → ℚ) :
    parseLines atof ((getLines "nodes:\n  A: \x7b\x7d\n".toList).map clean) {} =
      .ok (oneNodeOverlay 4096) := by
  have hlines : (getLines "nodes:\n  A: \x7b\x7d\n".toList).map clean =
      ("nodes".toList ++ [':']) :: (["  A: \x7b\x7d".toList] ++ []) := by
    decide
  have hkey : Token "nodes".toList := by decide
  have hchild : ∀ l ∈ ["  A: \x7b\x7d".toList], child 2 l = true := by decide
  have hnone : ∀ l ∈ ([] : List Line).head?, child 2 l = false := by simp
  have happly : applyKey atof "nodes".toList [] (["  A: \x7b\x7d".toList] ++ []) {} =
      .ok (oneNodeOverlay 4096) := rfl
  rw [hlines, parseLines_section hkey (by decide) hchild hnone happly, parseLines]

/-- **Chunk sizes respect the bounds that are configured exactly when the values agree**: the
first size is between the bounds, and neither a size nor the target is too large to be
multiplied. -/
theorem bounded_iff (getenv : String → Option (List Char)) (atof : Line → ℚ)
    (files : String → Option (List Char)) (path : String) (ov : Overlay)
    (hload : loadOverlay getenv atof files path = .ok ov) (hpos : Positive ov.chunking) :
    Ints ov.chunking ∧ (Bounded ov.chunking ↔ Agrees ov.chunking) :=
  ⟨loadOverlay_ints hload, bounded_iff_agrees hpos⟩

theorem bounded_iff_defaults :
    ∃ ov, loadOverlay (fun _ => none) (fun _ => 0) oneNode "" = .ok ov ∧
      Ints ov.chunking ∧ (Bounded ov.chunking ↔ Agrees ov.chunking) := by
  have hload : loadOverlay (fun _ => none) (fun _ => 0) oneNode "" = .ok (oneNodeOverlay 4096) := by
    rw [loadOverlay, oneNode]
    dsimp only
    rw [parse_oneNode]
    rfl
  have hpos : Positive (oneNodeOverlay 4096).chunking :=
    ⟨by decide, by decide, by decide, by decide⟩
  exact ⟨_, hload, bounded_iff _ _ _ _ _ hload hpos⟩

/-- The environment caps the rows below the first size. -/
def capEnv (name : String) : Option (List Char) :=
  if name = "MINI2_MAX_ROWS" then some "32".toList else none

/-- The first chunk is larger than the cap. -/
theorem not_bounded : ∃ ov, loadOverlay capEnv (fun _ => 0) oneNode "" = .ok ov ∧
    Positive ov.chunking ∧ ov.chunking.maxRows = 32 ∧
    run ov.chunking (fun _ => none) 0 [.decide "q" 0 0] = some [64] ∧ ¬ Bounded ov.chunking := by
  have hload : loadOverlay capEnv (fun _ => 0) oneNode "" = .ok (oneNodeOverlay 32) := by
    rw [loadOverlay, oneNode]
    dsimp only
    rw [parse_oneNode]
    rfl
  have hpos : Positive (oneNodeOverlay 32).chunking :=
    ⟨by decide, by decide, by decide, by decide⟩
  refine ⟨_, hload, hpos, rfl, rfl, fun hbounded => ?_⟩
  have hag := agrees_of_bounded hpos hbounded
  exact absurd hag.le_max (by decide)

end Mini2.ChunkSizer
