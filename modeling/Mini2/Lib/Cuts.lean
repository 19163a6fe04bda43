import Mathlib.Data.List.DropRight
import Mathlib.Data.List.Infix
import Mathlib.Data.List.TakeWhile

/-!
Lists that are made of two parts, and where another view of the same list cuts them: the run of a
kind at one end, a prefix, a split around an element.
-/

namespace Mini2.Cuts

variable {α : Type*} {p : α → Bool} {a b l before since : List α} {x y : α}

/-! ### Runs -/

lemma dropWhile_append (ha : ∀ x ∈ a, p x = true) (hb : ∀ x ∈ b.head?, p x = false) :
    (a ++ b).dropWhile p = b := by
  rw [List.dropWhile_append_of_pos ha]
  cases b with
  | nil => rfl
  | cons x b => exact List.dropWhile_cons_of_neg (by simp [hb x rfl])

lemma takeWhile_append (ha : ∀ x ∈ a, p x = true) (hb : ∀ x ∈ b.head?, p x = false) :
    (a ++ b).takeWhile p = a := by
  rw [List.takeWhile_append_of_pos ha]
  cases b with
  | nil => simp
  | cons x b => rw [List.takeWhile_cons_of_neg (by simp [hb x rfl]), List.append_nil]

lemma rdropWhile_append (hb : ∀ x ∈ b, p x = true) (ha : ∀ x ∈ a.getLast?, p x = false) :
    (a ++ b).rdropWhile p = a := by
  have hrev : ∀ x ∈ b.reverse, p x = true := fun x hx => hb x (List.mem_reverse.mp hx)
  have hhead : ∀ x ∈ a.reverse.head?, p x = false := by
    rw [List.head?_reverse]
    exact ha
  rw [List.rdropWhile, List.reverse_append, dropWhile_append hrev hhead, List.reverse_reverse]

/-! ### Prefixes -/

lemma prefix_append_or (h : l <+: a ++ b) : l <+: a ∨ ∃ c, l = a ++ c ∧ c <+: b := by
  rcases List.prefix_or_prefix_of_prefix h (List.prefix_append a b) with ha | ⟨c, rfl⟩
  · exact .inl ha
  · exact .inr ⟨c, rfl, (List.prefix_append_right_inj a).mp h⟩

lemma prefix_cons_or (h : l <+: a ++ x :: b) : l <+: a ∨ ∃ c, l = a ++ x :: c ∧ c <+: b := by
  rcases prefix_append_or h with ha | ⟨c, rfl, hc⟩
  · exact .inl ha
  · rcases List.prefix_cons_iff.mp hc with rfl | ⟨d, rfl, hd⟩
    · left
      rw [List.append_nil]
    · exact .inr ⟨d, rfl, hd⟩

/-! ### Splits -/

lemma snoc_split (h : l ++ [y] = before ++ x :: since) :
    x = y ∨ ∃ since', since = since' ++ [y] ∧ l = before ++ x :: since' := by
  rcases List.eq_nil_or_concat since with rfl | ⟨since', last, rfl⟩
  · obtain ⟨-, hlast⟩ := List.append_inj' h rfl
    exact .inl (List.singleton_inj.mp hlast).symm
  · rw [List.concat_eq_append, ← List.cons_append, ← List.append_assoc] at h
    obtain ⟨hl, hlast⟩ := List.append_inj' h rfl
    exact .inr ⟨since', by rw [List.concat_eq_append, hlast], hl⟩

end Mini2.Cuts
