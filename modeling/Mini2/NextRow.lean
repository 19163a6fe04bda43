import Mini2.Lib.Possible
import Mini2.Progress

/-!
What the producer of a node can do for a request: it can always end the turn it is in, and where
nothing is left in the buffer of a request it can make the next row, or find that there is none.
-/

namespace Mini2.NextRow

open Mini2.Net Mini2.Request Mini2.Producer Mini2.Runs Mini2.Progress

variable {Query Row : Type} {sh : Shard Query Row} {q : Query} {impl : Impl} {maxRows : ℤ}
  {e e' : Entry Row} {g : ℕ}

/-! ### What a producer leaves as it is -/

/-- A row is in the buffer, or there will be no other one. -/
def Stocked (e : Entry Row) (g : ℕ) : Prop :=
  (e.obj g).matched ≠ [] ∨ (e.obj g).doneProducing = true

structure After (sh : Shard Query Row) (q : Query) (e e' : Entry Row) : Prop where
  ok : EntryOk sh q e'
  table : e'.table = e.table
  gens : e'.gens = e.gens
  scheduled : e'.scheduled = e.scheduled
  cancelled : ∀ g, (e'.obj g).cancelled = (e.obj g).cancelled
  stocked : ∀ g < e.gens, Stocked e g → Stocked e' g

lemma stocked_step {a : ProdAct} (h : EntryOk sh q e)
    (hst : prodStep sh impl maxRows e a = some e') (hg : g < e.gens) (hs : Stocked e g) :
    Stocked e' g := by
  have hm := (prodStep_spec h hst).2
  rcases hs with hs | hs
  · left
    rcases hm.made g hg with ⟨-, heq⟩ | ⟨r, -, -, heq, -⟩ <;> rw [heq]
    · exact hs
    · exact List.append_ne_nil_of_left_ne_nil hs _
  · exact .inr (hm.done g hg hs)

lemma after_of_reach {G : Entry Row → ProdAct → Prop} (h : EntryOk sh q e)
    (hr : Reach (prodStep sh impl maxRows) G e e') : After sh q e e' := by
  refine hr.invariant (I := After sh q e) ⟨h, rfl, rfl, rfl, fun _ => rfl, fun _ _ h => h⟩
    fun e₁ a e₂ _ hi _ hst => ?_
  obtain ⟨hok, hm⟩ := prodStep_spec hi.ok hst
  refine ⟨hok, hm.table.trans hi.table, hm.gens.trans hi.gens, hm.scheduled.trans hi.scheduled,
    fun g => ?_, fun g hg hs => ?_⟩
  · exact (produces_cancelled (produces_of_step hst) g).trans (hi.cancelled g)
  · exact stocked_step hi.ok hst (hi.gens.symm ▸ hg) (hi.stocked g hg hs)

/-! ### The end of a turn -/

/-- A bound on the steps that are left of a turn. -/
def stepsLeft (e : Entry Row) : ℕ :=
  match e.producer with
  | .idle => 0
  | .ending _ _ => 1
  | .filling _ i limit => 2 * (limit - i) + 1
  | .batch _ i limit => 2 * (limit - i) + 2
  | .checked g => 2 * (e.obj g).matchedIndices.length + 3
  | .got g => 2 * (e.obj g).matchedIndices.length + 4
  | .picked => 2 * (e.table.elim 0 fun g => (e.obj g).matchedIndices.length) + 5

lemma exists_step (sh : Shard Query Row) (impl : Impl) (maxRows : ℤ) (h : ProducerOk e)
    (hp : e.producer ≠ .idle) :
    ∃ a e', prodStep sh impl maxRows e a = some e' ∧ stepsLeft e' < stepsLeft e := by
  unfold ProducerOk at h
  cases hc : e.producer with
  | idle => exact absurd hc hp
  | picked =>
    refine ⟨.get, ?_⟩
    simp only [prodStep, Producer.get, hc]
    cases ht : e.table with
    | none => exact ⟨_, rfl, by simp [stepsLeft, hc]⟩
    | some g => exact ⟨_, rfl, by simp [stepsLeft, hc, ht]⟩
  | got g =>
    refine ⟨.check, ?_⟩
    simp only [prodStep, check, hc]
    split
    · exact ⟨_, rfl, by simp [stepsLeft, hc]⟩
    · split
      · cases impl with
        | cpp => exact ⟨_, rfl, by simp [stepsLeft, hc]⟩
        | python => exact ⟨_, rfl, by simp [stepsLeft, hc]⟩
      · exact ⟨_, rfl, by simp [stepsLeft, hc]⟩
  | checked g =>
    refine ⟨.room, ?_⟩
    simp only [prodStep, room, hc]
    split
    · exact ⟨_, rfl, by simp [stepsLeft, hc]⟩
    · refine ⟨_, rfl, ?_⟩
      simp only [stepsLeft, hc]
      omega
  | batch g i limit =>
    refine ⟨.test, ?_⟩
    simp only [prodStep, test, hc]
    split
    · exact ⟨_, rfl, by simp [stepsLeft, hc]⟩
    · exact ⟨_, rfl, by simp [stepsLeft, hc]⟩
  | filling g i limit =>
    rw [hc] at h
    obtain ⟨-, -, hi, hlimit⟩ := h
    refine ⟨.push, ?_⟩
    simp only [prodStep, push, hc]
    rw [List.getElem?_eq_getElem (hi.trans_le hlimit)]
    refine ⟨_, rfl, ?_⟩
    by_cases hfull : maxBuffered ≤
        ((e.obj g).matched ++ [sh.fill (e.obj g).matchedIndices[i]]).length
    · simp only [stepsLeft, hc, if_pos hfull]
      omega
    · simp only [stepsLeft, hc, if_neg hfull]
      omega
  | ending g i =>
    refine ⟨.finish, ?_⟩
    simp only [prodStep, finish, hc]
    exact ⟨_, rfl, by simp [stepsLeft, hc]⟩

lemma can_idle (h : EntryOk sh q e) :
    Can (prodStep sh impl maxRows) (fun e _ => e.producer ≠ .idle)
      (fun e' => e'.producer = .idle) e := by
  refine Can.descend stepsLeft fun e' hr hp => ?_
  obtain ⟨a, e₂, hst, hlt⟩ := exists_step sh impl maxRows (after_of_reach h hr).ok.producer hp
  exact .first hst hp (.now (.inr hlt))

/-! ### The next row -/

/-- The node does what there is to do for its requests: a Python node without rows never says that
it is done. -/
def Diligent (sh : Shard Query Row) (impl : Impl) (maxRows : ℤ) : Prop :=
  impl = .cpp ∨ sh.size ≠ 0 ∧ 0 < maxRows

lemma batchSize_pos {w : ℤ} (h : impl = .cpp ∨ 0 < maxRows) : 0 < batchSize impl maxRows w := by
  unfold batchSize
  cases impl with
  | cpp =>
    simp only
    omega
  | python =>
    have hmax := h.resolve_left (by simp)
    simp only
    omega

lemma can_next (h : EntryOk sh q e) (hd : Diligent sh impl maxRows) (hp : e.producer = .idle)
    (ht : e.table = some g) (hs : 0 < e.scheduled) (hc : (e.obj g).cancelled = false) :
    Can (prodStep sh impl maxRows) (fun _ _ => True) (fun e' => Stocked e' g) e := by
  by_cases hstock : Stocked e g
  · exact .now hstock
  obtain ⟨hmatched, hdone⟩ := not_or.mp hstock
  rw [not_not] at hmatched
  rw [Bool.not_eq_true] at hdone
  have hg : g < e.gens := by
    have := h.table g ht
    omega
  refine .first (a := .pick) (t := { e with producer := .picked })
    (by simp [prodStep, pick, hp, hs]) trivial ?_
  refine .first (a := .get) (t := { e with producer := .got g })
    (by simp [prodStep, Producer.get, ht]) trivial ?_
  by_cases h0 : sh.size = 0
  · obtain rfl : impl = .cpp := hd.resolve_right fun hpy => hpy.1 h0
    refine .first (a := .check) (by simp [prodStep, check, hc, hdone, h0]; rfl) trivial (.now ?_)
    exact .inr (by simp [Entry.setObj])
  refine .first (a := .check) (t := { e with producer := .checked g })
    (by simp [prodStep, check, hc, hdone, h0]) trivial ?_
  set i := (e.obj g).matchedCursor with hi
  set limit := min (e.obj g).matchedIndices.length (i + batchSize impl maxRows (e.obj g).weight)
    with hlimit
  refine .first (a := .room) (t := { e with producer := .batch g i limit })
    (by simp [prodStep, room, hmatched, maxBuffered, hi, hlimit]) trivial ?_
  by_cases hlt : i < limit
  · have hidx : i < (e.obj g).matchedIndices.length := hlt.trans_le (min_le_left _ _)
    refine .first (a := .test) (t := { e with producer := .filling g i limit })
      (by simp [prodStep, test, hlt, hc]) trivial ?_
    refine .first (a := .push)
      (by simp [prodStep, push, List.getElem?_eq_getElem hidx]; rfl) trivial (.now ?_)
    exact .inl (by simp [Entry.setObj])
  · have hpos := batchSize_pos (w := (e.obj g).weight) (hd.imp_right And.right)
    refine .first (a := .test) (t := { e with producer := .ending g i })
      (by simp [prodStep, test, hlt]) trivial ?_
    refine .first (a := .finish) (by simp [prodStep, finish]; rfl) trivial (.now ?_)
    refine .inr ?_
    simp only [Entry.setObj, Function.update_self, Bool.or_eq_true, decide_eq_true_eq]
    omega

/-- **The producer can stock the buffer** of a request, and be free again. -/
theorem can_stock (h : EntryOk sh q e) (hd : Diligent sh impl maxRows)
    (ht : e.table = some g) (hs : 0 < e.scheduled) (hc : (e.obj g).cancelled = false) :
    Can (prodStep sh impl maxRows) (fun _ _ => True)
      (fun e' => e'.producer = .idle ∧ Stocked e' g) e := by
  have hturn : ∀ {e : Entry Row}, EntryOk sh q e → Can (prodStep sh impl maxRows)
      (fun _ _ => True) (fun e' => e'.producer = .idle) e := fun h =>
    (can_idle h).mono (fun _ _ _ => trivial) fun _ => id
  refine (hturn h).bind fun e₁ hr₁ hp₁ => ?_
  have h₁ := after_of_reach h hr₁
  refine (can_next h₁.ok hd hp₁ (h₁.table.trans ht) (h₁.scheduled ▸ hs)
    ((h₁.cancelled g).trans hc)).bind fun e₂ hr₂ hstock => ?_
  have h₂ := after_of_reach h₁.ok hr₂
  refine (hturn h₂.ok).imp fun e₃ hr₃ hp₃ => ⟨hp₃, ?_⟩
  refine (after_of_reach h₂.ok hr₃).stocked g ?_ hstock
  have := h.table g ht
  rw [h₂.gens, h₁.gens]
  omega

end Mini2.NextRow
