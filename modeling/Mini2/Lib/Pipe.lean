import Mathlib.Data.List.Basic

/-!
A stream of items that are made in the order of a source list, wait in a buffer, are taken
off its front and go on to what lies behind it.

`AtMostOnce` bounds what has been taken and what waits from above, whatever is lost on the
way; `NoneLost` bounds what has been taken from below, whatever is taken twice.
-/

namespace Mini2.Pipe

variable {α : Type*} {src buf buf' out out' : List α} {m n : ℕ} {a : α}

/-- What has been taken and what waits are, in this order, among the first `m` items. -/
def AtMostOnce (src : List α) (m : ℕ) (buf out : List α) : Prop :=
  (out ++ buf).Sublist (src.take m)

/-- Of the first `m` items, those that no longer wait have been taken in order. -/
def NoneLost (src : List α) (m : ℕ) (buf out : List α) : Prop :=
  ∃ P, P ++ buf = src.take m ∧ P.Sublist out

lemma AtMostOnce.start : AtMostOnce src 0 [] [] := by simp [AtMostOnce]

lemma NoneLost.start (out : List α) : NoneLost src 0 [] out :=
  ⟨[], by simp, List.nil_sublist _⟩

lemma take_succ_eq (h : src[m]? = some a) : src.take (m + 1) = src.take m ++ [a] := by
  rw [List.take_add_one, h]
  rfl

lemma AtMostOnce.make (h : AtMostOnce src m buf out) (ha : src[m]? = some a) :
    AtMostOnce src (m + 1) (buf ++ [a]) out := by
  unfold AtMostOnce
  rw [take_succ_eq ha, ← List.append_assoc]
  exact h.append (List.Sublist.refl [a])

lemma NoneLost.make (h : NoneLost src m buf out) (ha : src[m]? = some a) :
    NoneLost src (m + 1) (buf ++ [a]) out := by
  obtain ⟨P, hP, hsub⟩ := h
  exact ⟨P, by rw [take_succ_eq ha, ← List.append_assoc, hP], hsub⟩

lemma AtMostOnce.lose (h : AtMostOnce src m buf out) (hb : buf'.Sublist buf)
    (ho : out'.Sublist out) : AtMostOnce src m buf' out' :=
  (ho.append hb).trans h

lemma NoneLost.grow (h : NoneLost src m buf out) (ho : out.Sublist out') :
    NoneLost src m buf out' := by
  obtain ⟨P, hP, hsub⟩ := h
  exact ⟨P, hP, hsub.trans ho⟩

lemma AtMostOnce.move {xs : List α} (h : AtMostOnce src m (xs ++ buf) out) :
    AtMostOnce src m buf (out ++ xs) := by
  unfold AtMostOnce
  rw [List.append_assoc]
  exact h

lemma NoneLost.move {xs : List α} (h : NoneLost src m (xs ++ buf) out) :
    NoneLost src m buf (out ++ xs) := by
  obtain ⟨P, hP, hsub⟩ := h
  exact ⟨P ++ xs, by rw [List.append_assoc, hP], hsub.append (List.Sublist.refl xs)⟩

lemma AtMostOnce.take (h : AtMostOnce src m buf out) (n : ℕ) :
    AtMostOnce src m (buf.drop n) (out ++ buf.take n) := by
  rw [← List.take_append_drop n buf] at h
  exact h.move

lemma NoneLost.take (h : NoneLost src m buf out) (n : ℕ) :
    NoneLost src m (buf.drop n) (out ++ buf.take n) := by
  rw [← List.take_append_drop n buf] at h
  exact h.move

/-- Neither lost nor doubled: what has been taken and what waits are the first `m` items. -/
theorem eq_take (hu : AtMostOnce src m buf out) (hl : NoneLost src m buf out) :
    out ++ buf = src.take m := by
  obtain ⟨P, hP, hsub⟩ := hl
  unfold AtMostOnce at hu
  rw [← hP] at hu
  have hlen : out.length ≤ P.length := by
    have := hu.length_le
    simp only [List.length_append] at this
    omega
  rw [← hP, hsub.eq_of_length_le hlen]

/-- When all items have been made and none waits, all have been taken. -/
theorem NoneLost.complete (h : NoneLost src m [] out) (hm : src.length ≤ m) :
    src.Sublist out := by
  obtain ⟨P, hP, hsub⟩ := h
  rw [List.append_nil, List.take_of_length_le hm] at hP
  rwa [← hP]

theorem AtMostOnce.out_sublist (h : AtMostOnce src m buf out) : out.Sublist src :=
  ((List.sublist_append_left out buf).trans h).trans (List.take_sublist m src)

end Mini2.Pipe
