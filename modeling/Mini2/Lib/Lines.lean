import Mathlib.Data.List.Nodup

/-!
A text as a list of lines, each with a separator after it, and the cells of a table that are
written one by one.
-/

namespace Mini2.Lines

variable {α : Type*} [DecidableEq α] {sep : α} {l a b : List α}

/-- Every line has its separator. -/
def Terminated (sep : α) (l : List α) : Prop := l = [] ∨ l.getLast? = some sep

/-- The lines of a text, without their separators. -/
def lines (sep : α) (l : List α) : List (List α) := (l.splitOn sep).dropLast

omit [DecidableEq α] in
lemma terminated_nil : Terminated sep ([] : List α) := .inl rfl

omit [DecidableEq α] in
lemma terminated_iff : Terminated sep l ↔ l = [] ∨ ∃ l', l = l' ++ [sep] := by
  refine or_congr_right ⟨fun h => ?_, ?_⟩
  · exact ⟨l.dropLast, (List.dropLast_append_getLast? sep h).symm⟩
  · rintro ⟨l', rfl⟩
    simp

omit [DecidableEq α] in
lemma Terminated.of_append (h : Terminated sep (a ++ b)) : Terminated sep b := by
  rcases h with h | h
  · exact .inl (List.append_eq_nil_iff.mp h).2
  · cases b with
    | nil => exact .inl rfl
    | cons x b =>
      rw [List.getLast?_append_of_ne_nil _ (by simp)] at h
      exact .inr h

omit [DecidableEq α] in
lemma Terminated.mem (h : Terminated sep l) (hne : l ≠ []) : sep ∈ l := by
  rcases h with rfl | h
  · exact absurd rfl hne
  · exact List.mem_of_getLast? h

@[simp] lemma lines_nil : lines sep [] = [] := rfl

lemma lines_cons (ha : sep ∉ a) : lines sep (a ++ sep :: b) = a :: lines sep b := by
  rw [lines, List.splitOn_append_cons_self_of_not_mem ha,
    List.dropLast_cons_of_ne_nil (List.splitOn_ne_nil sep b)]
  rfl

lemma lines_append (ha : Terminated sep a) (b : List α) :
    lines sep (a ++ b) = lines sep a ++ lines sep b := by
  rcases terminated_iff.mp ha with rfl | ⟨a', rfl⟩
  · rfl
  · have hcut : ∀ c, lines sep (a' ++ sep :: c) = a'.splitOn sep ++ lines sep c := by
      intro c
      rw [lines, List.splitOn_append_cons_self,
        List.dropLast_append_of_ne_nil (List.splitOn_ne_nil sep c)]
      rfl
    rw [List.append_assoc, List.singleton_append, hcut b, hcut []]
    simp

lemma lines_flatten {ls : List (List α)} (h : ∀ l ∈ ls, Terminated sep l) :
    lines sep ls.flatten = (ls.map (lines sep)).flatten := by
  induction ls with
  | nil => rfl
  | cons l ls ih =>
    rw [List.flatten_cons, lines_append (h l (by simp)), ih fun l' hl => h l' (by simp [hl])]
    rfl

lemma length_lines (l : List α) : (lines sep l).length = l.count sep := by
  have hsplit : (l.splitOn sep).length = l.count sep + 1 := by
    induction l with
    | nil => rfl
    | cons x l ih =>
      rw [List.splitOn_cons_eq_if_modifyHead, List.count_cons]
      split <;> simp [ih]
  rw [lines, List.length_dropLast, hsplit]
  rfl

/-! ### Cells written one by one -/

variable {C : Type*}

/-- The cells after the writes, each of which names its index. -/
def writeAll (cells : List C) (ws : List (ℕ × C)) : List C :=
  ws.foldl (fun cells w => cells.set w.1 w.2) cells

lemma writeAll_append (cells : List C) (ws ws' : List (ℕ × C)) :
    writeAll cells (ws ++ ws') = writeAll (writeAll cells ws) ws' := List.foldl_append

lemma length_writeAll (cells : List C) (ws : List (ℕ × C)) :
    (writeAll cells ws).length = cells.length := by
  induction ws generalizing cells with
  | nil => rfl
  | cons w ws ih => exact (ih _).trans List.length_set

lemma getElem?_writeAll {cells : List C} {ws : List (ℕ × C)} {i : ℕ}
    (h : i ∉ ws.map Prod.fst) : (writeAll cells ws)[i]? = cells[i]? := by
  induction ws generalizing cells with
  | nil => rfl
  | cons w ws ih =>
    obtain ⟨hw, hws⟩ := List.ne_and_not_mem_of_not_mem_cons h
    exact (ih hws).trans (List.getElem?_set_ne (Ne.symm hw))

lemma writeAll_perm {ws ws' : List (ℕ × C)} (h : ws.Perm ws') (hnodup : (ws.map Prod.fst).Nodup)
    (cells : List C) : writeAll cells ws = writeAll cells ws' := by
  refine h.foldl_eq' (fun x hx y hy cells => ?_) cells
  by_cases hxy : x = y
  · rw [hxy]
  · have hne : x.1 ≠ y.1 := fun heq => hxy (List.inj_on_of_nodup_map hnodup hx hy heq)
    exact List.set_comm x.2 y.2 hne

lemma writeAll_zipIdx (pre xs : List C) (d : C) (k : ℕ) (post : List C) :
    writeAll (pre ++ (List.replicate (xs.length + k) d ++ post))
      ((xs.zipIdx pre.length).map Prod.swap) =
      pre ++ (xs ++ List.replicate k d ++ post) := by
  induction xs generalizing pre with
  | nil => simp [writeAll]
  | cons x xs ih =>
    have hlen : (x :: xs).length + k = (xs.length + k) + 1 := by
      rw [List.length_cons]
      omega
    have hset : (pre ++ (List.replicate ((x :: xs).length + k) d ++ post)).set pre.length x =
        (pre ++ [x]) ++ (List.replicate (xs.length + k) d ++ post) := by
      rw [hlen, List.replicate_succ, List.cons_append, List.set_append_right _ _ (Nat.le_refl _),
        Nat.sub_self, List.set_cons_zero, List.append_assoc, List.singleton_append]
    have hrest := ih (pre ++ [x])
    rw [List.length_append, List.length_singleton] at hrest
    rw [List.zipIdx_cons, List.map_cons, writeAll, List.foldl_cons]
    show writeAll (List.set _ pre.length x) _ = _
    rw [hset, hrest]
    simp

end Mini2.Lines
