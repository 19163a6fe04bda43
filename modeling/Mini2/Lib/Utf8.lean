import Mathlib.Data.List.Basic

/-!
A text and its bytes in UTF-8. A byte of an ASCII character is that character and nothing else,
so that whoever looks for separators may look at the bytes.
-/

namespace Mini2.Utf8

def encode (text : List Char) : List UInt8 := text.flatMap String.utf8EncodeChar

/-- The byte of an ASCII character. -/
def byte (c : Char) : UInt8 := UInt8.ofNat c.toNat

def Ascii (c : Char) : Prop := c.toNat < 128

instance (c : Char) : Decidable (Ascii c) := inferInstanceAs (Decidable (c.toNat < 128))

variable {a c : Char} {text text' : List Char}

@[simp] lemma encode_nil : encode [] = [] := rfl

lemma encode_cons (c : Char) (text : List Char) :
    encode (c :: text) = String.utf8EncodeChar c ++ encode text := rfl

lemma encode_append (text text' : List Char) :
    encode (text ++ text') = encode text ++ encode text' :=
  List.flatMap_append

lemma toNat_byte (h : Ascii a) : (byte a).toNat = a.toNat := by
  unfold byte Ascii at *
  rw [UInt8.toNat_ofNat']
  omega

lemma byte_injective (ha : Ascii a) (hc : Ascii c) (h : byte a = byte c) : a = c := by
  have hn := congrArg UInt8.toNat h
  rw [toNat_byte ha, toNat_byte hc] at hn
  exact Char.toNat_inj.mp hn

lemma utf8EncodeChar_ascii (h : Ascii c) : String.utf8EncodeChar c = [byte c] := by
  unfold String.utf8EncodeChar
  have hle : c.val.toNat ≤ 127 := Nat.le_of_lt_succ h
  exact if_pos hle

lemma le_of_mem_utf8EncodeChar (h : ¬ Ascii c) {b : UInt8} (hb : b ∈ String.utf8EncodeChar c) :
    128 ≤ b.toNat := by
  have hge : ¬ c.val.toNat ≤ 127 := fun hle => h (Nat.lt_succ_of_le hle)
  have hhigh : ∀ n, 128 ≤ n → n < 256 → 128 ≤ (UInt8.ofNat n).toNat := fun n hn hn' => by
    rw [UInt8.toNat_ofNat', Nat.mod_eq_of_lt hn']
    exact hn
  unfold String.utf8EncodeChar at hb
  simp only [hge, if_false] at hb
  by_cases h2 : c.val.toNat ≤ 2047
  · simp only [h2, if_true, List.mem_cons, List.not_mem_nil, or_false] at hb
    rcases hb with rfl | rfl <;> exact hhigh _ (by omega) (by omega)
  · by_cases h3 : c.val.toNat ≤ 65535
    · simp only [h2, h3, if_true, if_false, List.mem_cons, List.not_mem_nil, or_false] at hb
      rcases hb with rfl | rfl | rfl <;> exact hhigh _ (by omega) (by omega)
    · simp only [h2, h3, if_false, List.mem_cons, List.not_mem_nil, or_false] at hb
      rcases hb with rfl | rfl | rfl | rfl <;> exact hhigh _ (by omega) (by omega)

lemma byte_mem_encode (ha : Ascii a) : byte a ∈ encode text ↔ a ∈ text := by
  unfold encode
  rw [List.mem_flatMap]
  constructor
  · rintro ⟨c, hc, hb⟩
    by_cases hasc : Ascii c
    · rw [utf8EncodeChar_ascii hasc, List.mem_singleton] at hb
      exact byte_injective ha hasc hb ▸ hc
    · have hle := le_of_mem_utf8EncodeChar hasc hb
      rw [toNat_byte ha] at hle
      exact absurd ha (Nat.not_lt.mpr hle)
  · intro h
    exact ⟨a, h, by rw [utf8EncodeChar_ascii ha]; exact List.mem_singleton_self _⟩

lemma head?_encode (ha : Ascii a) : (encode text).head? = some (byte a) ↔ text.head? = some a := by
  cases text with
  | nil => simp
  | cons c text =>
    rw [encode_cons, List.head?_cons, Option.some.injEq]
    by_cases hasc : Ascii c
    · rw [utf8EncodeChar_ascii hasc, List.singleton_append, List.head?_cons, Option.some.injEq]
      exact ⟨byte_injective hasc ha, congrArg byte⟩
    · constructor
      · intro h
        have hb : byte a ∈ String.utf8EncodeChar c := by
          cases hl : String.utf8EncodeChar c with
          | nil => exact absurd hl String.utf8EncodeChar_ne_nil
          | cons b l =>
            rw [hl, List.cons_append, List.head?_cons, Option.some.injEq] at h
            exact h ▸ List.mem_cons_self
        have hle := le_of_mem_utf8EncodeChar hasc hb
        rw [toNat_byte ha] at hle
        exact absurd ha (Nat.not_lt.mpr hle)
      · rintro rfl
        exact absurd ha hasc

lemma encode_of_ascii (h : ∀ c ∈ text, Ascii c) : encode text = text.map byte := by
  induction text with
  | nil => rfl
  | cons c text ih =>
    rw [encode_cons, utf8EncodeChar_ascii (h c List.mem_cons_self),
      ih fun c' hc => h c' (List.mem_cons_of_mem _ hc)]
    rfl

lemma encode_eq_nil : encode text = [] ↔ text = [] := by
  cases text with
  | nil => simp
  | cons c text => simp [encode_cons, String.utf8EncodeChar_ne_nil]

end Mini2.Utf8
