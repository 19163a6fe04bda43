import Mathlib.Data.List.TakeWhile
import Mathlib.Tactic.Zify
import Mini2.SequentialLoad

/-!
The lines the loader takes for valid rows. Behind the end of a line there are as many empty fields
as one asks for, an empty field reads as zero, and what follows the last column is not looked at.
So a record is valid, but so is much that is none.
-/

namespace Mini2.ValidRows

open Mini2.Proto Mini2.Store Mini2.CsvLoad

/-! ### Records -/

inductive FieldType
  | int32 | int64 | double | flag
  deriving DecidableEq

def fieldTypes : List FieldType :=
  [.int32, .int64, .int64, .int32, .double, .int32, .flag, .int32, .int32, .int32, .double,
    .double, .double, .double, .double, .double, .double]

def natOf (digits : List UInt8) : ℕ := digits.foldl (fun n d => 10 * n + (d.toNat - 48)) 0

/-- An integer literal of base 10 that fits `bits` bits. -/
inductive IntLiteral (bits : ℕ) : List UInt8 → Prop
  | pos (digits : List UInt8) (hne : digits ≠ []) (hd : ∀ d ∈ digits, isDigit d = true)
      (hlt : natOf digits < 2 ^ (bits - 1)) : IntLiteral bits digits
  | neg (digits : List UInt8) (hne : digits ≠ []) (hd : ∀ d ∈ digits, isDigit d = true)
      (hle : natOf digits ≤ 2 ^ (bits - 1)) : IntLiteral bits (minus :: digits)

variable (fromCharsDouble : List UInt8 → Option (ℚ × List UInt8))

/-- The field is a literal of its type from its first byte to its last, in the range of the type.
The flag is no number: whatever it is, it will do. -/
def Literal : FieldType → List UInt8 → Prop
  | .int32, f => IntLiteral 32 f
  | .int64, f => IntLiteral 64 f
  | .double, f => ∃ v, fromCharsDouble f = some (v, [])
  | .flag, _ => True

/-- What may stand in a column. -/
def Reads (t : FieldType) (f : List UInt8) : Prop := f = [] ∨ Literal fromCharsDouble t f

/-- A line without the carriage return it may end with. -/
def chop (line : List UInt8) : List UInt8 :=
  if line.getLast? = some carriageReturn then line.dropLast else line

def fields (line : List UInt8) : List (List UInt8) := (chop line).splitOn comma

/-- The fields a line has stand in columns that can read them. -/
def Readable (line : List UInt8) : Prop :=
  ∀ x ∈ fieldTypes.zip (fields line), Reads fromCharsDouble x.1 x.2

/-- A line with one field for each column, all of which can be read. -/
def IsRecord (line : List UInt8) : Prop :=
  (fields line).length = fieldTypes.length ∧ Readable fromCharsDouble line

/-! ### Fields -/

variable {fromCharsDouble} {p : List UInt8}

lemma nextField_of_mem (h : comma ∈ p) :
    p.splitOn comma = (nextField p).1 :: (nextField p).2.splitOn comma := by
  obtain ⟨a, b, rfl, ha⟩ := List.eq_append_cons_of_mem h
  have hnone : a.findIdx? (· == comma) = none :=
    List.findIdx?_eq_none_iff.mpr fun c hc => beq_eq_false_iff_ne.mpr fun heq => ha (heq ▸ hc)
  have hfind : (a ++ comma :: b).findIdx? (· == comma) = some a.length := by
    rw [List.findIdx?_append, hnone, List.findIdx?_cons]
    simp
  have hnext : nextField (a ++ comma :: b) = (a, b) := by
    rw [nextField, hfind]
    simp [List.drop_append, List.drop_eq_nil_of_le (Nat.le_succ a.length)]
  rw [List.splitOn_append_cons_self_of_not_mem ha, hnext]

lemma nextField_of_not_mem (h : comma ∉ p) : nextField p = (p, []) := by
  have hnone : p.findIdx? (· == comma) = none :=
    List.findIdx?_eq_none_iff.mpr fun c hc => beq_eq_false_iff_ne.mpr fun heq => h (heq ▸ hc)
  rw [nextField, hnone]

lemma takeFields_nil (n : ℕ) : takeFields n [] = List.replicate n [] := by
  induction n with
  | zero => rfl
  | succ n ih => rw [takeFields, nextField_of_not_mem List.not_mem_nil, ih, List.replicate_succ]

/-- The columns find their fields in the text as far as it has any, and empty fields behind it. -/
lemma zip_takeFields {P : FieldType × List UInt8 → Prop} (hempty : ∀ t, P (t, []))
    (ts : List FieldType) (p : List UInt8) :
    (∀ x ∈ ts.zip (takeFields ts.length p), P x) ↔ ∀ x ∈ ts.zip (p.splitOn comma), P x := by
  induction ts generalizing p with
  | nil => simp
  | cons t ts ih =>
    rw [List.length_cons, takeFields]
    by_cases h : comma ∈ p
    · rw [nextField_of_mem h, List.zip_cons_cons, List.zip_cons_cons, List.forall_mem_cons,
        List.forall_mem_cons, ih]
    · have hrest : ∀ x ∈ ts.zip (List.replicate ts.length []), P x := by
        rintro ⟨t', f⟩ hx
        obtain rfl : f = [] := List.eq_of_mem_replicate (List.of_mem_zip hx).2
        exact hempty t'
      rw [nextField_of_not_mem h, takeFields_nil, List.splitOn_eq_singleton h,
        List.zip_cons_cons, List.zip_cons_cons, List.forall_mem_cons, List.forall_mem_cons,
        List.zip_nil_right]
      exact and_congr_right fun _ => iff_of_true hrest (List.forall_mem_nil P)

/-! ### Literals -/

lemma fromChars_minus (bits : ℕ) (f : List UInt8) : fromChars bits (minus :: f) =
    if f.takeWhile isDigit = [] then none
    else if natOf (f.takeWhile isDigit) ≤ 2 ^ (bits - 1) then
      some (-(natOf (f.takeWhile isDigit) : ℤ), f.dropWhile isDigit)
    else none := by
  have hpow : (0 : ℤ) < 2 ^ (bits - 1) := Int.pow_pos (by omega)
  unfold fromChars natOf
  simp only [List.head?_cons, BEq.rfl, if_true, List.tail_cons]
  refine if_congr Iff.rfl rfl (if_congr ?_ rfl rfl)
  zify
  omega

lemma fromChars_unsigned (bits : ℕ) {f : List UInt8} (h : f.head? ≠ some minus) :
    fromChars bits f =
      if f.takeWhile isDigit = [] then none
      else if natOf (f.takeWhile isDigit) < 2 ^ (bits - 1) then
        some ((natOf (f.takeWhile isDigit) : ℤ), f.dropWhile isDigit)
      else none := by
  have hpow : (0 : ℤ) < 2 ^ (bits - 1) := Int.pow_pos (by omega)
  unfold fromChars natOf
  simp only [beq_iff_eq, h, if_false]
  refine if_congr Iff.rfl rfl (if_congr ?_ rfl rfl)
  zify
  omega

/-- A reader that takes the digits in front takes the whole text just when there is nothing
else. -/
lemma takes_all {A : Type} (P : ℕ → Prop) [DecidablePred P] (value : ℕ → A) (f : List UInt8) :
    (∃ v, (if f.takeWhile isDigit = [] then none
      else if P (natOf (f.takeWhile isDigit)) then
        some (value (natOf (f.takeWhile isDigit)), f.dropWhile isDigit)
      else none) = some (v, [])) ↔
      f ≠ [] ∧ (∀ d ∈ f, isDigit d = true) ∧ P (natOf f) := by
  constructor
  · rintro ⟨v, hv⟩
    obtain ⟨hne, hv⟩ := Option.ite_none_left_eq_some.mp hv
    obtain ⟨hp, hv⟩ := Option.ite_none_right_eq_some.mp hv
    have hdigits := List.dropWhile_eq_nil_iff.mp (congrArg Prod.snd (Option.some.inj hv))
    rw [List.takeWhile_eq_self_iff.mpr hdigits] at hne hp
    exact ⟨hne, hdigits, hp⟩
  · rintro ⟨hne, hdigits, hp⟩
    refine ⟨value (natOf f), ?_⟩
    rw [List.takeWhile_eq_self_iff.mpr hdigits, List.dropWhile_eq_nil_iff.mpr hdigits, if_neg hne,
      if_pos hp]

lemma fromChars_all {bits : ℕ} {f : List UInt8} :
    (∃ v, fromChars bits f = some (v, [])) ↔ IntLiteral bits f := by
  by_cases hs : f.head? = some minus
  · obtain ⟨digits, rfl⟩ : ∃ digits, f = minus :: digits :=
      ⟨f.tail, (List.eq_cons_of_mem_head? hs)⟩
    rw [fromChars_minus]
    refine (takes_all (· ≤ 2 ^ (bits - 1)) (fun n => -(n : ℤ)) digits).trans ⟨?_, fun h => ?_⟩
    · rintro ⟨hne, hd, hle⟩
      exact .neg digits hne hd hle
    cases h with
    | pos _ hne hd => exact absurd (hd minus List.mem_cons_self) (by decide)
    | neg _ hne hd hle => exact ⟨hne, hd, hle⟩
  · rw [fromChars_unsigned bits hs]
    refine (takes_all (· < 2 ^ (bits - 1)) Int.ofNat f).trans ⟨?_, fun h => ?_⟩
    · rintro ⟨hne, hd, hlt⟩
      exact .pos f hne hd hlt
    cases h with
    | pos _ hne hd hlt => exact ⟨hne, hd, hlt⟩
    | neg digits => exact absurd rfl hs

lemma parseCell_ok {A : Type} [Zero A] {read : List UInt8 → Option (A × List UInt8)}
    {f : List UInt8} :
    (parseCell read f).2 = true ↔ f = [] ∨ ∃ v, read f = some (v, []) := by
  unfold parseCell
  split
  next h => simp [h]
  next h =>
    cases hr : read f with
    | none => simp [h]
    | some vr =>
      obtain ⟨v, rest⟩ := vr
      simp [h]

variable (fromCharsDouble) in
lemma parseI32_ok {f : List UInt8} :
    (parseI32 f).2 = true ↔ Reads fromCharsDouble .int32 f :=
  parseCell_ok.trans (or_congr_right fromChars_all)

variable (fromCharsDouble) in
lemma parseI64_ok {f : List UInt8} :
    (parseI64 f).2 = true ↔ Reads fromCharsDouble .int64 f :=
  parseCell_ok.trans (or_congr_right fromChars_all)

lemma parseF64_ok {f : List UInt8} :
    (parseF64 fromCharsDouble f).2 = true ↔ Reads fromCharsDouble .double f := parseCell_ok

/-! ### Lines -/

variable {line : List UInt8}

lemma parseRow_valid : (parseRow fromCharsDouble line).2 = true ↔
    ∀ x ∈ fieldTypes.zip (takeFields fieldTypes.length (chop line)),
      Reads fromCharsDouble x.1 x.2 := by
  obtain ⟨f0, f1, f2, f3, f4, f5, f6, f7, f8, f9, f10, f11, f12, f13, f14, f15, f16, hf⟩ :
      ∃ f0 f1 f2 f3 f4 f5 f6 f7 f8 f9 f10 f11 f12 f13 f14 f15 f16, takeFields 17 (chop line) =
        [f0, f1, f2, f3, f4, f5, f6, f7, f8, f9, f10, f11, f12, f13, f14, f15, f16] :=
    ⟨_, _, _, _, _, _, _, _, _, _, _, _, _, _, _, _, _, rfl⟩
  have hlen : fieldTypes.length = 17 := rfl
  have hflag : Reads fromCharsDouble .flag f6 := .inr trivial
  rw [hlen, hf]
  unfold chop at hf
  simp only [parseRow, hf, List.getD_cons_zero, List.getD_cons_succ, Bool.and_eq_true,
    parseI32_ok fromCharsDouble,
    parseI64_ok fromCharsDouble, parseF64_ok, fieldTypes,
    List.zip_cons_cons, List.forall_mem_cons, List.zip_nil_right]
  simp only [hflag, List.not_mem_nil, false_imp_iff, implies_true, and_true, true_and, and_assoc]

/-- **A row is valid when each field of its line can be read** by the column in whose place it
stands, however many there are. -/
lemma valid_iff : (parseRow fromCharsDouble line).2 = true ↔ Readable fromCharsDouble line :=
  parseRow_valid.trans (zip_takeFields (fun _ => .inl rfl) fieldTypes (chop line))

/-- **A valid row is a record** for the lines with one field a column, and for those that are not
valid; so it is not for any other line that can be read. -/
theorem valid_iff_isRecord (line : List UInt8) :
    ((parseRow fromCharsDouble line).2 = true ↔ IsRecord fromCharsDouble line) ↔
      (fields line).length = fieldTypes.length ∨ ¬ Readable fromCharsDouble line := by
  rw [valid_iff, IsRecord]
  constructor
  · intro h
    by_cases hread : Readable fromCharsDouble line
    · exact .inl (h.mp hread).1
    · exact .inr hread
  · rintro (hlen | hread)
    · exact ⟨fun hread => ⟨hlen, hread⟩, And.right⟩
    · exact iff_of_false hread fun h => hread h.2

/-- A blank line that ends in a carriage return is a valid row. -/
theorem blank_isValid : ¬ ∀ (fromCharsDouble : List UInt8 → Option (ℚ × List UInt8))
    (line : List UInt8), newline ∉ line → line ≠ [] →
      ((parseRow fromCharsDouble line).2 = true ↔ IsRecord fromCharsDouble line) := by
  intro h
  have hvalid : (parseRow (fun _ => none) [carriageReturn]).2 = true := by decide
  have hrecord := (h (fun _ => none) [carriageReturn] (by decide) (by decide)).mp hvalid
  exact absurd hrecord.1 (by decide)

end Mini2.ValidRows
