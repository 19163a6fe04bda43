import Mathlib.Data.List.DropRight
import Mini2.JsonText

/-!
The lexer as the reader holds it: the whole text and a position in it. A call moves the position
forward or leaves it; what it returns, and what is left of the text behind the position, is what the
lexer on the rest of the text makes of it.
-/

namespace Mini2.Json

/-! ### The lexer -/

section

variable (src : List Char)

/-- A loop that passes characters of a kind, up to the end of the text. -/
def Lex.skip (p : Char → Bool) (i : ℕ) : ℕ :=
  if h : i < src.length then if p src[i] then Lex.skip p (i + 1) else i else i
termination_by src.length - i

def Lex.ws (i : ℕ) : ℕ := Lex.skip src Json.ws i

/-- The loop over a string, from behind its opening quote. -/
def Lex.string (i : ℕ) : List Char × ℕ :=
  if h : i < src.length then
    if src[i] = '"' then ([], i + 1)
    else if h' : src[i] = '\\' ∧ i + 1 < src.length then
      ((Lex.string (i + 2)).1.cons (unescape src[i + 1]), (Lex.string (i + 2)).2)
    else ((Lex.string (i + 1)).1.cons src[i], (Lex.string (i + 1)).2)
  else ([], i)
termination_by src.length - i

/-- The end of the number at `i`: a sign, and then the loop over its characters. -/
def Lex.number (i : ℕ) : ℕ :=
  Lex.skip src numeric (if src[i]? = some '-' ∨ src[i]? = some '+' then i + 1 else i)

variable (stod : List Char → ℚ)

/-- The default of the switch in `Lex::next`. -/
def Lex.other (i : ℕ) : Tok × ℕ :=
  if (src.drop i).take 4 = ['t', 'r', 'u', 'e'] then (.true, i + 4)
  else if (src.drop i).take 5 = ['f', 'a', 'l', 's', 'e'] then (.false, i + 5)
  else if (src.drop i).take 4 = ['n', 'u', 'l', 'l'] then (.null, i + 4)
  else (.num (stod ((src.drop i).take (Lex.number src i - i))), Lex.number src i)

/-- The switch in `Lex::next`, at the character `c`. -/
def Lex.token (c : Char) (i : ℕ) : Tok × ℕ :=
  match c with
  | '{' => (.lbrace, i + 1)
  | '}' => (.rbrace, i + 1)
  | '[' => (.lbracket, i + 1)
  | ']' => (.rbracket, i + 1)
  | ':' => (.colon, i + 1)
  | ',' => (.comma, i + 1)
  | '"' => (.str (String.ofList (Lex.string src (i + 1)).1), (Lex.string src (i + 1)).2)
  | _ => Lex.other src stod i

/-- `Lex::next`, at the position `i`. -/
def Lex.next (i : ℕ) : Tok × ℕ :=
  if h : Lex.ws src i < src.length then Lex.token src stod src[Lex.ws src i] (Lex.ws src i)
  else (.ended, Lex.ws src i)

end

variable {src : List Char} {stod : List Char → ℚ} {i : ℕ}

/-! ### The position -/

lemma Lex.le_skip (src : List Char) (p : Char → Bool) (i : ℕ) : i ≤ Lex.skip src p i := by
  fun_induction Lex.skip src p i with
  | case1 i _ _ ih => omega
  | case2 => exact le_rfl
  | case3 => exact le_rfl

lemma Lex.skip_le (p : Char → Bool) (hi : i ≤ src.length) : Lex.skip src p i ≤ src.length := by
  fun_induction Lex.skip src p i with
  | case1 i h _ ih => exact ih h
  | case2 => exact hi
  | case3 => exact hi

lemma Lex.le_string (src : List Char) (i : ℕ) : i ≤ (Lex.string src i).2 := by
  fun_induction Lex.string src i with
  | case1 => exact Nat.le_succ _
  | case2 i _ _ _ ih => exact Nat.le_trans (Nat.le_add_right _ _) ih
  | case3 i _ _ _ ih => exact Nat.le_trans (Nat.le_succ _) ih
  | case4 => exact le_rfl

lemma Lex.string_le (hi : i ≤ src.length) : (Lex.string src i).2 ≤ src.length := by
  fun_induction Lex.string src i with
  | case1 i h => exact h
  | case2 i _ _ h ih => exact ih h.2
  | case3 i h _ _ ih => exact ih h
  | case4 => exact hi

lemma Lex.le_number (src : List Char) (i : ℕ) : i ≤ Lex.number src i := by
  unfold Lex.number
  split
  · exact Nat.le_of_succ_le (Lex.le_skip _ _ _)
  · exact Lex.le_skip _ _ _

lemma Lex.number_le (hi : i < src.length) : Lex.number src i ≤ src.length := by
  unfold Lex.number
  split
  · exact Lex.skip_le _ hi
  · exact Lex.skip_le _ hi.le

lemma take_drop_le {n : ℕ} (h : ((src.drop i).take n).length = n) : n ≤ src.length - i := by
  rw [List.length_take, List.length_drop] at h
  omega

/-- The tokens that are made of at least one character. -/
@[simp] def Tok.Solid : Tok → Prop
  | .num _ | .ended => False
  | _ => True

/-- What a call of the lexer at `i` does to the position, and that it passes a solid token. -/
def Lex.Moves (src : List Char) (i : ℕ) (p : Tok × ℕ) : Prop :=
  i ≤ p.2 ∧ p.2 ≤ src.length ∧ (p.1.Solid → i < p.2)

lemma Lex.moves_other (hi : i < src.length) : Lex.Moves src i (Lex.other src stod i) := by
  unfold Lex.other
  split
  · next h =>
    have hlen := take_drop_le (by rw [h]; rfl)
    exact ⟨by simp, by simp; omega, by simp⟩
  split
  · next h =>
    have hlen := take_drop_le (by rw [h]; rfl)
    exact ⟨by simp, by simp; omega, by simp⟩
  split
  · next h =>
    have hlen := take_drop_le (by rw [h]; rfl)
    exact ⟨by simp, by simp; omega, by simp⟩
  exact ⟨Lex.le_number src i, Lex.number_le hi, False.elim⟩

lemma Lex.moves_token (stod : List Char → ℚ) (c : Char) (hi : i < src.length) :
    Lex.Moves src i (Lex.token src stod c i) := by
  have hone : ∀ t : Tok, Lex.Moves src i (t, i + 1) := fun t =>
    ⟨Nat.le_succ i, hi, fun _ => Nat.lt_succ_self i⟩
  unfold Lex.token
  split
  iterate 6 exact hone _
  · have hle := Lex.le_string src (i + 1)
    exact ⟨by omega, Lex.string_le hi, fun _ => by omega⟩
  · exact Lex.moves_other hi

/-- A call of the lexer stays inside of the text, and passes a token that is not a number. -/
lemma Lex.moves_next (hi : i ≤ src.length) : Lex.Moves src i (Lex.next src stod i) := by
  have hle := Lex.le_skip src Json.ws i
  unfold Lex.next
  split
  · next h =>
    obtain ⟨h₁, h₂, h₃⟩ := Lex.moves_token stod src[Lex.ws src i] h
    exact ⟨Nat.le_trans hle h₁, h₂, fun ht => Nat.lt_of_le_of_lt hle (h₃ ht)⟩
  · exact ⟨hle, Lex.skip_le _ hi, False.elim⟩

/-! ### The rest of the text -/

lemma Lex.drop_skip (p : Char → Bool) (i : ℕ) :
    src.drop (Lex.skip src p i) = (src.drop i).dropWhile p := by
  fun_induction Lex.skip src p i with
  | case1 i h hp ih => rw [ih, List.drop_eq_getElem_cons h, List.dropWhile_cons_of_pos hp]
  | case2 i h hp => rw [List.drop_eq_getElem_cons h, List.dropWhile_cons_of_neg hp]
  | case3 i h => rw [List.drop_eq_nil_of_le (by omega), List.dropWhile_nil]

lemma lexString_escape (c : Char) (s : List Char) :
    lexString ('\\' :: c :: s) = (unescape c :: (lexString s).1, (lexString s).2) := by
  rw [lexString]

/-- A backslash at the very end stands for itself. -/
lemma lexString_plain {c : Char} {s : List Char} (hq : c ≠ '"') (hb : c = '\\' → s = []) :
    lexString (c :: s) = (c :: (lexString s).1, (lexString s).2) := by
  rw [lexString]
  · exact hq
  · rintro c' s' rfl rfl
    cases hb rfl

lemma Lex.string_eq (i : ℕ) : lexString (src.drop i) =
    ((Lex.string src i).1, src.drop (Lex.string src i).2) := by
  fun_induction Lex.string src i with
  | case1 i h hq => rw [List.drop_eq_getElem_cons h, hq, lexString]
  | case2 i h hq h' ih =>
    have hdrop : src.drop i = '\\' :: src[i + 1] :: src.drop (i + 2) := by
      rw [List.drop_eq_getElem_cons h, h'.1, List.drop_eq_getElem_cons h'.2]
    rw [hdrop, lexString_escape, ih]
  | case3 i h hq h' ih =>
    have hlast : src[i] = '\\' → src.drop (i + 1) = [] := fun hb =>
      List.drop_eq_nil_of_le (Nat.le_of_not_lt fun hi => h' ⟨hb, hi⟩)
    rw [List.drop_eq_getElem_cons h, lexString_plain hq hlast, ih]
  | case4 i h => rw [List.drop_eq_nil_of_le (Nat.le_of_not_lt h), lexString]

lemma Lex.drop_number (i : ℕ) :
    src.drop (Lex.number src i) = (src.drop i).dropWhile numeric := by
  unfold Lex.number
  split
  · next h =>
    rw [Lex.drop_skip]
    have hc : ∃ c, src[i]? = some c ∧ numeric c = true := by
      rcases h with h | h
      · exact ⟨_, h, rfl⟩
      · exact ⟨_, h, rfl⟩
    obtain ⟨c, hget, hnum⟩ := hc
    obtain ⟨hi, rfl⟩ := List.getElem?_eq_some_iff.mp hget
    rw [List.drop_eq_getElem_cons hi, List.dropWhile_cons_of_pos hnum]
  · rw [Lex.drop_skip]

lemma Lex.take_number (hi : i < src.length) :
    (src.drop i).take (Lex.number src i - i) = (src.drop i).takeWhile numeric := by
  have hsplit := List.takeWhile_append_dropWhile (p := numeric) (l := src.drop i)
  rw [← Lex.drop_number] at hsplit
  have hlen := congrArg List.length hsplit
  have h₁ := Lex.le_number src i
  have h₂ := Lex.number_le hi
  rw [List.length_append, List.length_drop, List.length_drop] at hlen
  have hn : Lex.number src i - i = ((src.drop i).takeWhile numeric).length := by omega
  rw [hn]
  exact (List.prefix_iff_eq_take.mp (List.takeWhile_prefix numeric)).symm

lemma Lex.other_eq (hi : i < src.length) : lexOther stod (src.drop i) =
    ((Lex.other src stod i).1, src.drop (Lex.other src stod i).2) := by
  unfold lexOther Lex.other
  split
  · rw [List.drop_drop]
  split
  · rw [List.drop_drop]
  split
  · rw [List.drop_drop]
  · rw [Lex.take_number hi, Lex.drop_number]

lemma Lex.token_eq {c : Char} (hc : src[i]? = some c) (hws : Json.ws c = false) :
    Json.next stod (src.drop i) =
      ((Lex.token src stod c i).1, src.drop (Lex.token src stod c i).2) := by
  obtain ⟨hi, hget⟩ := List.getElem?_eq_some_iff.mp hc
  have hdrop : src.drop i = c :: src.drop (i + 1) := by rw [List.drop_eq_getElem_cons hi, hget]
  fun_cases Lex.token src stod c i with
  | case7 =>
    have hquote : ∀ s, Json.next stod ('"' :: s) =
        (.str (String.ofList (lexString s).1), (lexString s).2) := fun _ => rfl
    rw [hdrop, hquote, Lex.string_eq]
  | case8 =>
    rw [hdrop, next_other hws (by simp_all), ← hdrop, Lex.other_eq hi]
  | _ => rw [hdrop]; rfl

lemma Lex.skip_stops (p : Char → Bool) (i : ℕ) {c : Char}
    (hc : src[Lex.skip src p i]? = some c) : p c = false := by
  fun_induction Lex.skip src p i with
  | case1 _ _ _ ih => exact ih hc
  | case2 i h hp =>
    rw [List.getElem?_eq_getElem h, Option.some.injEq] at hc
    simpa [← hc] using hp
  | case3 i h => simp [List.getElem?_eq_none (Nat.le_of_not_lt h)] at hc

/-- **A call of the lexer at a position** is one on the rest of the text. -/
lemma Lex.next_eq (i : ℕ) : Json.next stod (src.drop i) =
    ((Lex.next src stod i).1, src.drop (Lex.next src stod i).2) := by
  unfold Lex.next
  split
  · next h =>
    have hget := List.getElem?_eq_getElem h
    rw [← Lex.token_eq hget (Lex.skip_stops _ i hget), Json.next, Json.next, Lex.ws, Lex.drop_skip,
      List.dropWhile_idempotent]
  · next h =>
    have hnil : (src.drop i).dropWhile Json.ws = [] := by
      rw [← Lex.drop_skip]
      exact List.drop_eq_nil_of_le (Nat.le_of_not_lt h)
    rw [Json.next, hnil, List.drop_eq_nil_of_le (Nat.le_of_not_lt h)]

end Mini2.Json
