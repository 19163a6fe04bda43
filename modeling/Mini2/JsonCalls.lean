import Mini2.JsonLexer
import Mini2.Lib.Descent

/-!
The reader as it runs: the position of the lexer, where the innermost call is, and the calls that
wait for it. A step calls the lexer once at most.
-/

namespace Mini2.Json

open Mini2.Descent Mini2.SortedMap

/-! ### Calls -/

/-- A call that waits for a value: `parse_object` for the one of a key, `parse_array` for an
item. -/
inductive Frame
  | field (m : List (String × Value)) (key : String)
  | item (vs : List Value)

/-- Where the innermost call is. `value`, `object` and `array` are at the beginning of a function,
`fields` and `items` at the head of its loop. Of the others, `comma` is about to read the token
behind a comma, and `peeked` has read the first token of an array from `saved` on. -/
inductive Control
  | value
  | object
  | fields (m : List (String × Value)) (t : Tok)
  | comma (m : List (String × Value))
  | array
  | peeked (saved : ℕ) (first : Tok)
  | items (vs : List Value)
  | returned (v : Value)

structure Reader where
  i : ℕ
  control : Control
  calls : List Frame

def Reader.start : Reader := ⟨0, .value, []⟩

section

variable (src : List Char) (stod : List Char → ℚ)

def step : Reader → Option Reader
  | ⟨i, .value, calls⟩ =>
    match Lex.next src stod i with
    | (.lbrace, i) => some ⟨i, .object, calls⟩
    | (.lbracket, i) => some ⟨i, .array, calls⟩
    | (.str t, i) => some ⟨i, .returned (.str t), calls⟩
    | (.num n, i) => some ⟨i, .returned (.num n), calls⟩
    | (.true, i) => some ⟨i, .returned (.bool true), calls⟩
    | (.false, i) => some ⟨i, .returned (.bool false), calls⟩
    | (_, i) => some ⟨i, .returned .null, calls⟩
  | ⟨i, .object, calls⟩ =>
    match Lex.next src stod i with
    | (.rbrace, i) => some ⟨i, .returned (.obj []), calls⟩
    | (t, i) => some ⟨i, .fields [] t, calls⟩
  | ⟨i, .fields m (.str key), calls⟩ =>
    match Lex.next src stod i with
    | (.colon, i) => some ⟨i, .value, .field m key :: calls⟩
    | (_, i) => some ⟨i, .returned (.obj m), calls⟩
  | ⟨i, .fields m _, calls⟩ => some ⟨i, .returned (.obj m), calls⟩
  | ⟨i, .comma m, calls⟩ =>
    match Lex.next src stod i with
    | (t, i) => some ⟨i, .fields m t, calls⟩
  | ⟨saved, .array, calls⟩ =>
    match Lex.next src stod saved with
    | (first, i) => some ⟨i, .peeked saved first, calls⟩
  | ⟨i, .peeked _ .rbracket, calls⟩ => some ⟨i, .returned (.arr []), calls⟩
  | ⟨_, .peeked saved _, calls⟩ => some ⟨saved, .items [], calls⟩
  | ⟨i, .items vs, calls⟩ => some ⟨i, .value, .item vs :: calls⟩
  | ⟨i, .returned child, .field m key :: calls⟩ =>
    match Lex.next src stod i with
    | (.rbrace, i) => some ⟨i, .returned (.obj (insertKey key child m)), calls⟩
    | (.comma, i) => some ⟨i, .comma (insertKey key child m), calls⟩
    | (_, i) => some ⟨i, .returned (.obj (insertKey key child m)), calls⟩
  | ⟨i, .returned child, .item vs :: calls⟩ =>
    match Lex.next src stod i with
    | (.rbracket, i) => some ⟨i, .returned (.arr (vs ++ [child])), calls⟩
    | (.comma, i) => some ⟨i, .items (vs ++ [child]), calls⟩
    | (_, i) => some ⟨i, .returned (.arr (vs ++ [child])), calls⟩
  | ⟨_, .returned _, []⟩ => none

end

variable {src : List Char} {stod : List Char → ℚ} {s s' : Reader} {i j : ℕ}

/-! ### A step -/

/-- Where the reader goes on: `parse_array` goes back to the position it has saved. -/
@[simp] def Reader.mark (s : Reader) : ℕ :=
  match s.control with
  | .peeked saved _ => saved
  | _ => s.i

/-- How many steps are left of the calls at hand, if the lexer does not move. -/
@[simp] def Control.cost : Control → ℕ
  | .returned _ => 0
  | .value | .fields _ _ => 1
  | .object | .comma _ => 2
  | .items _ => 3
  | .peeked _ _ => 4
  | .array => 5

/-- What bounds the steps that are left. -/
def Reader.measure (src : List Char) (s : Reader) : ℕ :=
  5 * (src.length - s.mark) + s.calls.length + s.control.cost

/-- The position is in the text, also the one that has been saved. -/
def Reader.Inside (src : List Char) (s : Reader) : Prop := s.mark ≤ s.i ∧ s.i ≤ src.length

lemma exists_next (stod : List Char → ℚ) (hi : i ≤ src.length) :
    ∃ t j, Lex.next src stod i = (t, j) ∧ i ≤ j ∧ j ≤ src.length ∧ (t.Solid → i < j) :=
  ⟨_, _, rfl, Lex.moves_next hi⟩

/-- **The step lemma.** The position stays in the text, and the measure falls: what may follow a
token costs less than the character that the token has passed. -/
lemma step_spec (hin : s.Inside src) (h : step src stod s = some s') :
    s'.Inside src ∧ s'.measure src < s.measure src := by
  obtain ⟨i, c, calls⟩ := s
  obtain ⟨hmark, hi⟩ := hin
  obtain ⟨t, j, hnext, hle, hj, hlt⟩ := exists_next stod hi
  unfold Reader.Inside Reader.measure
  simp only at hi hnext hle
  cases c with
  | value | object =>
    cases t
    all_goals
      simp only [step, hnext, Option.some.injEq] at h
      subst h
      simp at hlt ⊢
      omega
  | fields m t' =>
    cases t' with
    | str key =>
      cases t
      all_goals
        simp only [step, hnext, Option.some.injEq] at h
        subst h
        simp at hlt ⊢
        omega
    | _ =>
      simp only [step, Option.some.injEq] at h
      subst h
      simp
      omega
  | comma | array =>
    simp only [step, hnext, Option.some.injEq] at h
    subst h
    simp
    omega
  | peeked saved first =>
    cases first
    all_goals
      simp only [step, Option.some.injEq] at h
      subst h
      simp at hmark ⊢
      omega
  | items vs =>
    simp only [step, Option.some.injEq] at h
    subst h
    simp
    omega
  | returned child =>
    cases calls with
    | nil => cases h
    | cons f calls =>
      cases f <;> cases t
      all_goals
        simp only [step, hnext, Option.some.injEq] at h
        subst h
        simp at hlt ⊢
        omega

/-! ### A call -/

/-- The call `c`, of which the frames `fs` are, returns at a position of which `Q` holds, whatever
calls wait for it, and `r` is what it returns. -/
def Answers (src : List Char) (stod : List Char → ℚ) (Q : ℕ → Prop) (i : ℕ) (c : Control)
    (fs : List Frame) (r : Option (Value × List Char)) : Prop :=
  ∃ v j, Q j ∧ j ≤ src.length ∧ r = some (v, src.drop j) ∧ ∀ calls, ∃ n,
    Path (step src stod) (fun s => calls <:+ s.calls) n ⟨i, c, fs ++ calls⟩ ⟨j, .returned v, calls⟩

variable {P Q : ℕ → Prop} {c c' : Control} {f : Frame} {fs fs' : List Frame}
  {r r' : Option (Value × List Char)} {k : ℕ}

lemma Answers.mono (hPQ : ∀ j, P j → Q j) (h : Answers src stod P i c fs r) :
    Answers src stod Q i c fs r := by
  obtain ⟨v, j, hj, hrest⟩ := h
  exact ⟨v, j, hPQ j hj, hrest⟩

lemma Answers.returned {v : Value} (hQ : Q j) (hj : j ≤ src.length) :
    Answers src stod Q j (.returned v) [] (some (v, src.drop j)) :=
  ⟨v, j, hQ, hj, rfl, fun _ => ⟨0, .refl _⟩⟩

lemma Answers.step (hs : ∀ calls, step src stod ⟨i, c, fs ++ calls⟩ = some ⟨j, c', fs' ++ calls⟩)
    (h : Answers src stod Q j c' fs' r) : Answers src stod Q i c fs r := by
  obtain ⟨v, l, hQ, hl, hr, hpath⟩ := h
  refine ⟨v, l, hQ, hl, hr, fun calls => ?_⟩
  obtain ⟨n, hn⟩ := hpath calls
  exact ⟨n + 1, .head (List.suffix_append fs calls) (hs calls) hn⟩

lemma Answers.bind (hv : Answers src stod P i .value [] r')
    (hret : ∀ child l, P l → l ≤ src.length → r' = some (child, src.drop l) →
      Answers src stod Q l (.returned child) [f] r) : Answers src stod Q i .value [f] r := by
  obtain ⟨child, l, hP, hl, hr, hpath⟩ := hv
  obtain ⟨v, j, hQ, hj, hr', hpath'⟩ := hret child l hP hl hr
  refine ⟨v, j, hQ, hj, hr', fun calls => ?_⟩
  obtain ⟨m, hm⟩ := hpath (f :: calls)
  obtain ⟨n, hn⟩ := hpath' calls
  have hin : ∀ s : Reader, f :: calls <:+ s.calls → calls <:+ s.calls := fun s hsuf =>
    (List.suffix_cons f calls).trans hsuf
  exact ⟨n + m, (hm.mono hin).trans hn⟩

/-- Input has been consumed, or the lexer does not get any further. -/
def Progress (src : List Char) (stod : List Char → ℚ) (i j : ℕ) : Prop :=
  i < j ∨ i = j ∧ (Lex.next src stod i).2 = i

lemma Progress.le (h : Progress src stod i j) : i ≤ j := by
  rcases h with hlt | ⟨heq, -⟩
  · exact hlt.le
  · exact heq.le

/-- The recursive descent with `k` nested calls and rounds, from every place where that is enough
for what is left of the text. -/
structure Answering (src : List Char) (stod : List Char → ℚ) (k : ℕ) : Prop where
  value : ∀ i ≤ src.length, 3 * (src.length - i) + 1 ≤ k →
    Answers src stod (Progress src stod i) i .value [] (parseValue stod k (src.drop i))
  object : ∀ i ≤ src.length, 3 * (src.length - i) + 2 ≤ k →
    Answers src stod (i ≤ ·) i .object [] (parseObject stod k (src.drop i))
  fields : ∀ m t, ∀ i ≤ src.length, 3 * (src.length - i) + 1 ≤ k →
    Answers src stod (i ≤ ·) i (.fields m t) [] (objectLoop stod k m t (src.drop i))
  array : ∀ i ≤ src.length, 3 * (src.length - i) + 3 ≤ k →
    Answers src stod (i ≤ ·) i .array [] (parseArray stod k (src.drop i))
  items : ∀ vs, ∀ i ≤ src.length, 3 * (src.length - i) + 2 ≤ k →
    Answers src stod (i ≤ ·) i (.items vs) [] (arrayLoop stod k vs (src.drop i))

section

variable (h : Answering src stod k) (hi : i ≤ src.length)

include h hi

lemma Answering.value_succ (hk : 3 * (src.length - i) + 1 ≤ k + 1) :
    Answers src stod (Progress src stod i) i .value [] (parseValue stod (k + 1) (src.drop i)) := by
  obtain ⟨t, j, hnext, hle, hj, hlt⟩ := exists_next stod hi
  have hstop : Progress src stod i j := by
    rcases Nat.lt_or_eq_of_le hle with hlt | heq
    · exact .inl hlt
    · exact .inr ⟨heq, by rw [hnext, heq]⟩
  rw [parseValue, Lex.next_eq, hnext]
  cases t with
  | lbrace =>
    have hpass := hlt trivial
    refine .step (fun calls => ?_) ((h.object j hj (by omega)).mono fun l hl => ?_)
    · simp only [Json.step, hnext]
    · exact .inl (by omega)
  | lbracket =>
    have hpass := hlt trivial
    refine .step (fun calls => ?_) ((h.array j hj (by omega)).mono fun l hl => ?_)
    · simp only [Json.step, hnext]
    · exact .inl (by omega)
  | _ => exact .step (fun calls => by simp only [Json.step, hnext]) (.returned hstop hj)

lemma Answering.object_succ (hk : 3 * (src.length - i) + 2 ≤ k + 1) :
    Answers src stod (i ≤ ·) i .object [] (parseObject stod (k + 1) (src.drop i)) := by
  obtain ⟨t, j, hnext, hle, hj, hlt⟩ := exists_next stod hi
  have hloop := fun t => (h.fields [] t j hj (by omega)).mono fun l hl => Nat.le_trans hle hl
  rw [parseObject, Lex.next_eq, hnext]
  cases t with
  | rbrace => exact .step (fun calls => by simp only [Json.step, hnext]) (.returned hle hj)
  | _ => exact .step (fun calls => by simp only [Json.step, hnext]) (hloop _)

lemma Answering.field_returned (m : List (String × Value)) (key : String) (child : Value)
    (hk : 3 * (src.length - i) ≤ k + 2) :
    Answers src stod (i ≤ ·) i (.returned child) [.field m key]
      (match next stod (src.drop i) with
        | (.rbrace, s) => some (.obj (insertKey key child m), s)
        | (.comma, s) => objectLoop stod k (insertKey key child m) (next stod s).1 (next stod s).2
        | (_, s) => some (.obj (insertKey key child m), s)) := by
  obtain ⟨t, j, hnext, hle, hj, hlt⟩ := exists_next stod hi
  rw [Lex.next_eq, hnext]
  cases t with
  | comma =>
    have hpass := hlt trivial
    obtain ⟨t, l, hnext', hle', hl, -⟩ := exists_next stod hj
    have hloop := (h.fields (insertKey key child m) t l hl (by omega)).mono
      fun l' hl' => Nat.le_trans (Nat.le_trans hle hle') hl'
    simp only [Lex.next_eq, hnext']
    have hcomma : Answers src stod (i ≤ ·) j (.comma (insertKey key child m)) []
        (objectLoop stod k (insertKey key child m) t (src.drop l)) :=
      .step (fun calls => by simp only [Json.step, hnext']) hloop
    exact .step (fun calls => by simp only [List.cons_append, Json.step, hnext]) hcomma
  | _ =>
    exact .step (fun calls => by simp only [List.cons_append, Json.step, hnext]) (.returned hle hj)

lemma Answering.fields_succ (m : List (String × Value)) (t : Tok)
    (hk : 3 * (src.length - i) + 1 ≤ k + 1) :
    Answers src stod (i ≤ ·) i (.fields m t) [] (objectLoop stod (k + 1) m t (src.drop i)) := by
  cases t with
  | str key =>
    obtain ⟨t, j, hnext, hle, hj, hlt⟩ := exists_next stod hi
    rw [objectLoop, Lex.next_eq, hnext]
    cases t with
    | colon =>
      have hpass := hlt trivial
      refine .step (fun calls => ?_) (.bind (f := .field m key) (h.value j hj (by omega)) ?_)
      · simp only [Json.step, hnext, List.nil_append, List.cons_append]
      · intro child l hprog hl hr
        have hjl := hprog.le
        simp only [hr]
        exact (h.field_returned hl m key child (by omega)).mono fun _ hl' => by omega
    | _ => exact .step (fun calls => by simp only [Json.step, hnext]) (.returned hle hj)
  | _ => exact .step (fun calls => by simp only [Json.step]) (.returned le_rfl hi)

lemma Answering.array_succ (hk : 3 * (src.length - i) + 3 ≤ k + 1) :
    Answers src stod (i ≤ ·) i .array [] (parseArray stod (k + 1) (src.drop i)) := by
  obtain ⟨t, j, hnext, hle, hj, -⟩ := exists_next stod hi
  have hloop := h.items [] i hi (by omega)
  have hpeek : ∀ r, Answers src stod (i ≤ ·) j (.peeked i t) [] r →
      Answers src stod (i ≤ ·) i .array [] r := fun r =>
    .step fun calls => by simp only [Json.step, hnext]
  rw [parseArray, Lex.next_eq, hnext]
  apply hpeek
  cases t with
  | rbracket => exact .step (fun calls => by simp only [Json.step]) (.returned hle hj)
  | _ => exact .step (fun calls => by simp only [Json.step]) hloop

lemma Answering.item_returned (vs : List Value) (child : Value)
    (hk : 3 * (src.length - i) ≤ k + 1) :
    Answers src stod (i ≤ ·) i (.returned child) [.item vs]
      (match next stod (src.drop i) with
        | (.rbracket, s) => some (.arr (vs ++ [child]), s)
        | (.comma, s) => arrayLoop stod k (vs ++ [child]) s
        | (_, s) => some (.arr (vs ++ [child]), s)) := by
  obtain ⟨t, j, hnext, hle, hj, hlt⟩ := exists_next stod hi
  rw [Lex.next_eq, hnext]
  cases t with
  | comma =>
    have hpass := hlt trivial
    refine .step (fun calls => ?_) ((h.items (vs ++ [child]) j hj (by omega)).mono fun l hl => ?_)
    · simp only [List.cons_append, Json.step, hnext]
    · exact Nat.le_trans hle hl
  | _ =>
    exact .step (fun calls => by simp only [List.cons_append, Json.step, hnext]) (.returned hle hj)

lemma Answering.items_succ (vs : List Value) (hk : 3 * (src.length - i) + 2 ≤ k + 1) :
    Answers src stod (i ≤ ·) i (.items vs) [] (arrayLoop stod (k + 1) vs (src.drop i)) := by
  refine .step (fun calls => ?_) (.bind (f := .item vs) (h.value i hi (by omega)) ?_)
  · simp only [Json.step, List.nil_append, List.cons_append]
  · intro child l hprog hl hr
    have hil := hprog.le
    simp only [arrayLoop, hr]
    exact (h.item_returned hl vs child (by omega)).mono fun _ hl' => by omega

end

lemma answering (src : List Char) (stod : List Char → ℚ) (k : ℕ) : Answering src stod k := by
  induction k with
  | zero => constructor <;> intros <;> omega
  | succ k ih =>
    exact ⟨fun i hi hk => ih.value_succ hi hk, fun i hi hk => ih.object_succ hi hk,
      fun m t i hi hk => ih.fields_succ hi m t hk, fun i hi hk => ih.array_succ hi hk,
      fun vs i hi hk => ih.items_succ hi vs hk⟩

/-! ### Whole runs -/

/-- A loop of `parse_object` or `parse_array` is at its head. -/
def Control.AtLoop : Control → Prop
  | .fields _ _ | .items _ => True
  | _ => False

/-- The innermost call has returned. -/
def Control.Returned : Control → Prop
  | .returned _ => True
  | _ => False

/-- The call that `calls` wait for is at the head of its loop, or it has returned. -/
def Reader.Between (calls : List Frame) (s : Reader) : Prop :=
  s.calls = calls ∧ (s.control.AtLoop ∨ s.control.Returned)

/-- The states of a round but for its ends. -/
def Reader.Inner (calls : List Frame) (s : Reader) : Prop :=
  calls <:+ s.calls ∧ ¬ s.Between calls

/-- One round of a loop: from its head to where the call is next at the head of the loop, or has
returned. -/
def Round (src : List Char) (stod : List Char → ℚ) (s s' : Reader) : Prop :=
  ∃ t n, step src stod s = some t ∧
    Path (step src stod) (Reader.Inner s.calls) n t s' ∧
    s'.Between s.calls

/-- The reader of a text comes to an end, within a number of steps that is linear in the length of
the text. -/
structure Terminates (src : List Char) (stod : List Char → ℚ) : Prop where
  /-- There is a run to the end, and what it returns is what the recursive descent reads. -/
  returns : ∃ n i v, Path (step src stod) (fun _ => True) n .start ⟨i, .returned v, []⟩ ∧
    parseRoot stod src = some v
  /-- No run is longer, and none leaves the text. -/
  bounded : ∀ n s, Path (step src stod) (fun _ => True) n .start s →
    n ≤ 5 * src.length + 1 ∧ s.i ≤ src.length
  /-- A round of a loop consumes input, or it is the last one. -/
  rounds : ∀ n s, Path (step src stod) (fun _ => True) n .start s → s.control.AtLoop →
    ∃ s', Round src stod s s' ∧ (s.i < s'.i ∨ s'.control.Returned)
  /-- The call for a value of an object or an array consumes input, or the loop that has called it
  ends in the next step. -/
  calls : ∀ n s f calls, Path (step src stod) (fun _ => True) n .start s → s.control = .value →
    s.calls = f :: calls → ∃ m j v,
      Path (step src stod) (fun u => s.calls <:+ u.calls) m s ⟨j, .returned v, s.calls⟩ ∧
      (s.i < j ∨ s.i = j ∧ ∃ l v', step src stod ⟨j, .returned v, s.calls⟩ =
        some ⟨l, .returned v', calls⟩)

lemma path_spec {n : ℕ} {A : Reader → Prop} (h : Path (step src stod) A n .start s) :
    n + s.measure src ≤ 5 * src.length + 1 ∧ s.Inside src := by
  have hstart : Reader.start.Inside src := ⟨le_rfl, Nat.zero_le _⟩
  constructor
  · exact h.add_measure_le (fun s s' hin hs => step_spec hin hs) hstart
  · exact h.invariant (fun s s' hin hs => (step_spec hin hs).1) hstart

/-- The states of the call on top of a loop do not belong to the loop itself. -/
lemma not_between {calls : List Frame} (hs : f :: calls <:+ s.calls) : ¬ s.Between calls := by
  rintro ⟨heq, -⟩
  have hle := hs.length_le
  rw [heq, List.length_cons] at hle
  omega

variable {calls : List Frame}

lemma inner_of_suffix (hs : f :: calls <:+ s.calls) : s.Inner calls :=
  ⟨(List.suffix_cons f calls).trans hs, not_between hs⟩

lemma exists_round_of_call (hj : j ≤ src.length)
    (hs : step src stod ⟨i, c, calls⟩ = some ⟨j, .value, f :: calls⟩)
    (hret : ∀ v l, j ≤ l → l ≤ src.length → ∃ n s',
      Path (step src stod) (Reader.Inner calls) n ⟨l, .returned v, f :: calls⟩ s' ∧
      s'.Between calls ∧ (i < s'.i ∨ s'.control.Returned)) :
    ∃ s', Round src stod ⟨i, c, calls⟩ s' ∧ (i < s'.i ∨ s'.control.Returned) := by
  obtain ⟨v, l, hprog, hl, -, hpath⟩ := (answering src stod _).value j hj le_rfl
  obtain ⟨m, hm⟩ := hpath (f :: calls)
  obtain ⟨n, s', hn, hend, hmove⟩ := hret v l hprog.le hl
  have hcall := (hm.mono fun u hu => inner_of_suffix hu).trans hn
  exact ⟨s', ⟨_, _, hs, hcall, hend⟩, hmove⟩

lemma exists_round_of_returned {v : Value}
    (hs : step src stod ⟨i, c, calls⟩ = some ⟨j, .returned v, calls⟩) :
    ∃ s', Round src stod ⟨i, c, calls⟩ s' ∧ (i < s'.i ∨ s'.control.Returned) :=
  ⟨_, ⟨_, 0, hs, .refl _, rfl, .inr trivial⟩, .inr trivial⟩

lemma exists_round_items (hi : i ≤ src.length) (vs : List Value) :
    ∃ s', Round src stod ⟨i, .items vs, calls⟩ s' ∧ (i < s'.i ∨ s'.control.Returned) := by
  refine exists_round_of_call (f := .item vs) hi (by rw [step]) fun v l hil hl => ?_
  obtain ⟨t, j, hnext, hle, -, hlt⟩ := exists_next stod hl
  have hinner : Reader.Inner calls ⟨l, .returned v, .item vs :: calls⟩ :=
    inner_of_suffix (List.suffix_refl _)
  cases t with
  | comma =>
    have hpass := hlt trivial
    refine ⟨1, ⟨j, .items (vs ++ [v]), calls⟩, .single hinner ?_, ⟨rfl, .inl trivial⟩, .inl ?_⟩
    · simp only [step, hnext]
    · exact Nat.lt_of_le_of_lt hil hpass
  | _ =>
    refine ⟨1, ⟨j, .returned (.arr (vs ++ [v])), calls⟩, .single hinner ?_, ⟨rfl, .inr trivial⟩,
      .inr trivial⟩
    simp only [step, hnext]

lemma exists_round_fields (hi : i ≤ src.length) (m : List (String × Value)) (t : Tok) :
    ∃ s', Round src stod ⟨i, .fields m t, calls⟩ s' ∧ (i < s'.i ∨ s'.control.Returned) := by
  cases t with
  | str key =>
    obtain ⟨t, j, hnext, hle, hj, hlt⟩ := exists_next stod hi
    cases t with
    | colon =>
      have hpass := hlt trivial
      refine exists_round_of_call (f := .field m key) hj (by simp only [step, hnext])
        fun v l hjl hl => ?_
      obtain ⟨t, j', hnext', hle', hj', -⟩ := exists_next stod hl
      have hinner : Reader.Inner calls ⟨l, .returned v, .field m key :: calls⟩ :=
        inner_of_suffix (List.suffix_refl _)
      cases t with
      | comma =>
        -- the token behind the comma is read before the loop is at its head again
        obtain ⟨t, l', hnext'', hle'', -, -⟩ := exists_next stod hj'
        have hcomma : Reader.Inner calls ⟨j', .comma (insertKey key v m), calls⟩ :=
          ⟨List.suffix_refl calls, fun h => h.2.elim id id⟩
        refine ⟨2, ⟨l', .fields (insertKey key v m) t, calls⟩, .head hinner ?_
          (.single hcomma ?_), ⟨rfl, .inl trivial⟩, .inl ?_⟩
        · simp only [step, hnext']
        · simp only [step, hnext'']
        · simp only
          omega
      | _ =>
        refine ⟨1, ⟨j', .returned (.obj (insertKey key v m)), calls⟩, .single hinner ?_,
          ⟨rfl, .inr trivial⟩, .inr trivial⟩
        simp only [step, hnext']
    | _ => exact exists_round_of_returned (j := j) (v := .obj m) (by simp only [step, hnext])
  | _ => exact exists_round_of_returned (j := i) (v := .obj m) (by simp only [step])

/-- When the lexer does not get any further, the loop that has called for a value ends. -/
lemma step_returned_of_stuck (hi : i ≤ src.length) (hstuck : (Lex.next src stod i).2 = i)
    (v : Value) (f : Frame) : ∃ l v', step src stod ⟨i, .returned v, f :: calls⟩ =
      some ⟨l, .returned v', calls⟩ := by
  obtain ⟨t, j, hnext, -, -, hlt⟩ := exists_next stod hi
  rw [hnext] at hstuck
  have hcomma : t ≠ .comma := by
    rintro rfl
    exact absurd (hlt trivial) (by omega)
  cases f with
  | field m key =>
    refine ⟨j, .obj (insertKey key v m), ?_⟩
    cases t with
    | comma => exact absurd rfl hcomma
    | _ => simp only [step, hnext]
  | item vs =>
    refine ⟨j, .arr (vs ++ [v]), ?_⟩
    cases t with
    | comma => exact absurd rfl hcomma
    | _ => simp only [step, hnext]

/-- **The reader of a text comes to an end**, whatever the text is. -/
theorem parseRoot_terminates (src : List Char) (stod : List Char → ℚ) : Terminates src stod := by
  constructor
  · obtain ⟨v, j, -, -, hr, hpath⟩ := (answering src stod (3 * src.length + 1)).value 0
      (Nat.zero_le _) le_rfl
    obtain ⟨n, hn⟩ := hpath []
    rw [List.drop_zero] at hr
    exact ⟨n, j, v, hn.mono fun _ _ => trivial, by rw [parseRoot, hr, Option.map_some]⟩
  · intro n s h
    obtain ⟨hlen, hin⟩ := path_spec h
    exact ⟨by omega, hin.2⟩
  · rintro n ⟨i, c, calls⟩ h hloop
    have hi := (path_spec h).2.2
    cases c with
    | fields m t => exact exists_round_fields hi m t
    | items vs => exact exists_round_items hi vs
    | _ => exact hloop.elim
  · rintro n ⟨i, c, _⟩ f calls h rfl rfl
    have hi := (path_spec h).2.2
    obtain ⟨v, j, hprog, hj, -, hpath⟩ := (answering src stod _).value i hi le_rfl
    obtain ⟨m, hm⟩ := hpath (f :: calls)
    refine ⟨m, j, v, hm, ?_⟩
    rcases hprog with hlt | ⟨rfl, hstuck⟩
    · exact .inl hlt
    · exact .inr ⟨rfl, step_returned_of_stuck hj hstuck v f⟩

end Mini2.Json
