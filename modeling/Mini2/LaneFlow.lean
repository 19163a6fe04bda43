import Mini2.Lane

/-!
The rows of a lane that have left the owner's buffer for good: those the client has, those in
the slot, and those in the call the prefetcher waits for. A call it has given up carries its
rows nowhere.
-/

namespace Mini2.Lane

open Mini2.Proto Mini2.Net Mini2.Request Mini2.Producer Mini2.Gather Mini2.Pipe

variable {N Query Row : Type}

def stageRows : PullStage N Row → List Row
  | .at _ => []
  | .found _ => []
  | .popped _ out => out
  | .loaded _ out _ => out
  | .decided _ out _ => out
  | .dropping out => out
  | .replied _ out _ => out

def View.reply (v : View N Row) : List Row :=
  match v.thread with
  | .pulling i => ((v.pull i).map stageRows).getD []
  | _ => []

def View.out (v : View N Row) : List Row := v.log ++ v.slot ++ v.reply

variable {v : View N Row} {i : ℕ} {stage stage' : PullStage N Row}

lemma reply_pulling (ht : v.thread = .pulling i) (hp : v.pull i = some stage) :
    v.reply = stageRows stage := by
  simp [View.reply, ht, hp]

lemma reply_eq_nil (ht : ∀ i, v.thread ≠ .pulling i) : v.reply = [] := by
  unfold View.reply
  split
  next i h => exact absurd h (ht i)
  next => rfl

lemma out_eq_log (hs : v.slot = []) (ht : v.thread = .absent ∨ v.thread = .returned) :
    v.out = v.log := by
  have hr : v.reply = [] := reply_eq_nil fun i hi => by
    rcases ht with ht | ht <;> rw [ht] at hi <;> cases hi
  simp [View.out, hs, hr]

lemma setPull_pull_self (v : View N Row) (i : ℕ) (stage : PullStage N Row) :
    (v.setPull i stage).pull i = some stage := by
  simp [View.setPull]

lemma setPull_pull_ne (v : View N Row) {i j : ℕ} (h : j ≠ i) (stage : PullStage N Row) :
    (v.setPull i stage).pull j = v.pull j := by
  simp [View.setPull, h]

lemma reply_setPull (hp : v.pull i = some stage) (hr : stageRows stage' = stageRows stage) :
    (v.setPull i stage').reply = v.reply := by
  cases ht : v.thread with
  | pulling j =>
    have ht' : (v.setPull i stage').thread = .pulling j := ht
    by_cases hj : j = i
    · subst hj
      rw [reply_pulling ht hp, reply_pulling ht' (setPull_pull_self v j stage'), hr]
    · simp [View.reply, ht, ht', setPull_pull_ne v hj]
  | _ => simp [View.reply, View.setPull, ht]

lemma out_setPull (hp : v.pull i = some stage) (hr : stageRows stage' = stageRows stage) :
    (v.setPull i stage').out = v.out := by
  unfold View.out
  rw [reply_setPull hp hr]
  rfl

/-- The owner fills a call: the rows are on their way if the prefetcher waits for it. -/
lemma out_fill (hp : v.pull i = some stage) (h0 : stageRows stage = [])
    (stage' : PullStage N Row) :
    (v.setPull i stage').out =
      if v.thread = .pulling i then v.out ++ stageRows stage' else v.out := by
  unfold View.out
  split
  next ht =>
    have ht' : (v.setPull i stage').thread = .pulling i := ht
    rw [reply_pulling ht hp, h0, reply_pulling ht' (setPull_pull_self v i stage')]
    simp [View.setPull]
  next ht =>
    have : (v.setPull i stage').reply = v.reply := by
      cases hc : v.thread with
      | pulling j =>
        have hj : j ≠ i := fun hj => ht (hj ▸ hc)
        have hc' : (v.setPull i stage').thread = .pulling j := hc
        simp [View.reply, hc, hc', setPull_pull_ne v hj]
      | _ => simp [View.reply, View.setPull, hc]
    rw [this]
    rfl

lemma forall_setPull {P : PullStage N Row → Prop} (h : ∀ j st, v.pull j = some st → P st)
    (hn : P stage') : ∀ j st, (v.setPull i stage').pull j = some st → P st := by
  intro j st hj
  by_cases hij : j = i
  · subst hij
    rw [setPull_pull_self] at hj
    exact Option.some.inj hj ▸ hn
  · rw [setPull_pull_ne v hij] at hj
    exact h j st hj

/-! ### Owners whose rows have all been made and taken -/

/-- The owner has no row to give, or has made its rows and buffers none of them. -/
def Exhausted (sh : Shard Query Row) (q : Query) (e : Entry Row) : Prop :=
  sh.matchRows q = [] ∨ ∃ g < e.gens, (e.obj g).doneProducing = true ∧ (e.obj g).matched = []

/-- The states stay, and so does what is done and drained. -/
structure Grows (e e' : Entry Row) : Prop where
  gens : e.gens ≤ e'.gens
  done : ∀ g < e.gens, (e.obj g).doneProducing = true → (e'.obj g).doneProducing = true
  drained : ∀ g < e.gens, (e.obj g).doneProducing = true → (e.obj g).matched = [] →
    (e'.obj g).matched = []

variable {sh : Shard Query Row} {q : Query} {e e' : Entry Row}

lemma Grows.refl (e : Entry Row) : Grows e e := ⟨le_rfl, fun _ _ h => h, fun _ _ _ h => h⟩

lemma Exhausted.mono (h : Exhausted sh q e) (hg : Grows e e') : Exhausted sh q e' := by
  rcases h with h | ⟨g, hlt, hd, hm⟩
  · exact .inl h
  · exact .inr ⟨g, hlt.trans_le hg.gens, hg.done g hlt hd, hg.drained g hlt hd hm⟩

lemma grows_register (w : ℤ) : Grows e (registerRequest sh q w e) where
  gens := register_gens_le
  done g hg hd := by rwa [(register_obj hg).1]
  drained g hg _ hm := by rwa [(register_obj hg).1]

lemma grows_makes (h : Makes sh q e e') : Grows e e' where
  gens := h.gens.ge
  done := h.done
  drained g hg hd hm := by
    rcases h.made g hg with ⟨-, h'⟩ | ⟨r, -, -, -, hnd⟩
    · rw [h', hm]
    · rw [hd] at hnd
      cases hnd

lemma grows_setObj {g : ℕ} {st : RequestState Row}
    (hd : st.doneProducing = (e.obj g).doneProducing)
    (hm : (e.obj g).matched = [] → st.matched = []) : Grows e (e.setObj g st) where
  gens := le_rfl
  done g' _ h := by
    by_cases hgg : g' = g
    · subst hgg
      simpa [Entry.setObj, hd] using h
    · simpa [Entry.setObj, hgg] using h
  drained g' _ _ h := by
    by_cases hgg : g' = g
    · subst hgg
      simpa [Entry.setObj] using hm h
    · simpa [Entry.setObj, hgg] using h

lemma grows_pop (g n : ℕ) : Grows e (e.pop g n) :=
  grows_setObj rfl fun h => by simp [h]

lemma grows_removes (h : Removes e e') : Grows e e' := by
  obtain ⟨hgens, hobj, -⟩ := removes_obj h
  exact ⟨hgens.ge, fun g _ h => by rwa [hobj], fun g _ _ h => by rwa [hobj]⟩

lemma sameCourse_pop (g n : ℕ) :
    SameCourse (e.obj g) { e.obj g with matched := (e.obj g).matched.drop n } := ⟨rfl, rfl, rfl⟩

@[simp] lemma made_pop (g n g' : ℕ) : made (e.pop g n) g' = made e g' :=
  made_setObj (sameCourse_pop g n) g'

lemma sameCourse_flag (g : ℕ) : SameCourse (e.obj g) { e.obj g with cancelled := true } :=
  ⟨rfl, rfl, rfl⟩

@[simp] lemma made_flag (g g' : ℕ) : made (e.flag g) g' = made e g' :=
  made_setObj (sameCourse_flag g) g'

lemma sameCourse_clear (g : ℕ) : SameCourse (e.obj g) { e.obj g with matched := [] } :=
  ⟨rfl, rfl, rfl⟩

@[simp] lemma made_clear (g g' : ℕ) : made (e.clear g) g' = made e g' :=
  made_setObj (sameCourse_clear g) g'

lemma pop_matched (g n g' : ℕ) : ((e.pop g n).obj g').matched =
    if g' = g then (e.obj g).matched.drop n else (e.obj g').matched := by
  by_cases hgg : g' = g
  · subst hgg
    simp [Entry.pop, Entry.setObj]
  · simp [Entry.pop, Entry.setObj, hgg]

@[simp] lemma flag_matched (g g' : ℕ) : ((e.flag g).obj g').matched = (e.obj g').matched := by
  by_cases hgg : g' = g
  · subst hgg
    simp [Entry.flag, Entry.setObj]
  · simp [Entry.flag, Entry.setObj, hgg]

lemma clear_matched_sublist (g g' : ℕ) :
    ((e.clear g).obj g').matched.Sublist (e.obj g').matched := by
  by_cases hgg : g' = g
  · subst hgg
    simp [Entry.clear, Entry.setObj]
  · simp [Entry.clear, Entry.setObj, hgg]

/-! ### How rows leave the buffer -/

/-- The step loses rows of the lane: a cancel clears a buffer, the prefetcher gives up a call
that carries rows, or a call nobody waits for takes rows off the buffer. -/
def Loses (k : ℕ) (v : View N Row) : Act N → Prop
  | .cancel _ .clear => True
  | .prefetch k' (.failed _) => k' = k ∧ v.reply ≠ []
  | .pull i (.pop maxRows) => v.thread ≠ .pulling i ∧
      ∃ g, v.pull i = some (.found g) ∧ (v.entry.obj g).matched.take maxRows.toNat ≠ []
  | _ => False

/-- What a step does to the entry and to the rows that have left it. -/
inductive Flow (sh : Shard Query Row) (q : Query) (k : ℕ) (v : View N Row) (a : Act N)
    (v' : View N Row) : Prop
  | same (he : v'.entry = v.entry) (ho : v'.out = v.out)
  | register {f : ℕ} (ha : a = .forward f) (he : v'.entry = registerRequest sh q 1 v.entry)
      (ho : v'.out = v.out)
  | produce (hok : EntryOk sh q v'.entry) (he : Makes sh q v.entry v'.entry)
      (ho : v'.out = v.out)
  | flag {g : ℕ} (he : v'.entry = v.entry.flag g) (ho : v'.out = v.out)
  | clear {g : ℕ} (ha : Loses k v a) (he : v'.entry = v.entry.clear g) (ho : v'.out = v.out)
  | drop (he : Removes v.entry v'.entry) (ho : v'.out = v.out)
  | lose (ha : Loses k v a) (he : v'.entry = v.entry) (ho : v'.out.Sublist v.out)
  | take {i g n : ℕ} (hp : v.pull i = some (.found g)) (he : v'.entry = v.entry.pop g n)
      (ho : v'.out = v.out ++ (v.entry.obj g).matched.take n)
  | waste {i g n : ℕ} (ha : Loses k v a) (hp : v.pull i = some (.found g))
      (he : v'.entry = v.entry.pop g n) (ho : v'.out = v.out)

/-- Only a successful answer brings rows. -/
def RepliesOk (v : View N Row) : Prop :=
  ∀ i code out isLast, v.pull i = some (.replied code out isLast) → code ≠ .ok → out = []

variable {c : Config N Query Row} {o : N} {k : ℕ} {a : Act N} {v' : View N Row}

lemma out_of_idle {w : View N Row} (hlog : w.log = v.log) (hslot : w.slot = v.slot)
    (ht : ∀ i, v.thread ≠ .pulling i) (hw : ∀ i, w.thread ≠ .pulling i) : w.out = v.out := by
  unfold View.out
  rw [reply_eq_nil ht, reply_eq_nil hw, hlog, hslot]

lemma out_of_pulling {w : View N Row} (hlog : w.log = v.log) (hslot : w.slot = v.slot)
    (hw : ∀ i, w.thread ≠ .pulling i) : v.out = w.out ++ v.reply := by
  unfold View.out
  rw [reply_eq_nil hw, hlog, hslot, List.append_nil]

variable [DecidableEq N]

/-- **Rows leave the buffer in one way only**: a call takes them off its front. -/
theorem flow_of_step (hok : EntryOk (c.shard o) q v.entry) (hr : RepliesOk v)
    (hst : LaneStep c q o k v a v') : Flow (c.shard o) q k v a v' := by
  -- a call is given up by its prefetcher
  have hgive : ∀ {w : View N Row}, w.entry = v.entry → w.log = v.log → w.slot = v.slot →
      (∀ i, w.thread ≠ .pulling i) → (v.reply ≠ [] → Loses k v a) → Flow (c.shard o) q k v a w := by
    intro w he hlog hslot hw ha
    have hout := out_of_pulling hlog hslot hw
    by_cases hrep : v.reply = []
    · refine .same he ?_
      rw [hout, hrep, List.append_nil]
    · refine .lose (ha hrep) he ?_
      rw [hout]
      exact List.sublist_append_left _ _
  cases hst with
  | register => exact .register rfl rfl rfl
  | produce h => exact .produce (prodStep_spec hok h).1 (prodStep_spec hok h).2 rfl
  | flag => exact .flag rfl rfl
  | clear => exact .clear trivial rfl rfl
  | evict h => exact .drop h rfl
  | wipe =>
    refine .lose trivial rfl ?_
    exact (((List.Sublist.refl v.log).append (List.nil_sublist v.slot)).append
      (List.Sublist.refl v.reply))
  | mark => exact .same rfl rfl
  | dead => exact .same rfl rfl
  | spawn ht => exact .same rfl (out_of_idle rfl rfl (by simp [ht]) (by simp))
  | start ht => exact .same rfl (out_of_idle rfl rfl (by simp [ht]) (by simp))
  | noHop ht => exact .same rfl (out_of_idle rfl rfl (by simp [ht]) (by simp [View.fail]))
  | stop ht => exact .same rfl (out_of_idle rfl rfl (by simp [ht]) (by simp))
  | @issue i hop ht =>
    refine .same rfl ?_
    have hrep : v.reply = [] := reply_eq_nil (by simp [ht])
    have hcall : View.pull { v.setPull i (.at hop) with thread := .pulling i } i = some (.at hop) :=
      setPull_pull_self v i (.at hop)
    have hrep' : View.reply { v.setPull i (.at hop) with thread := .pulling i } = [] :=
      reply_pulling rfl hcall
    unfold View.out
    rw [hrep, hrep']
    rfl
  | relay hp => exact .same rfl (out_setPull hp rfl)
  | noRoute hp => exact .same rfl (out_setPull hp rfl)
  | missing hp => exact .same rfl (out_setPull hp rfl)
  | found hp => exact .same rfl (out_setPull hp rfl)
  | load hp => exact .same rfl (out_setPull hp rfl)
  | decide hp => exact .same rfl (out_setPull hp rfl)
  | more hp => exact .same rfl (out_setPull hp rfl)
  | last hp => exact .drop .drop (out_setPull hp rfl)
  | erase hp => exact .drop .erase (out_setPull hp rfl)
  | unschedule hp => exact .drop .unschedule (out_setPull hp rfl)
  | @pop i g hp maxRows =>
    have hout := out_fill hp rfl (.popped g ((v.entry.obj g).matched.take maxRows.toNat))
    by_cases ht : v.thread = .pulling i
    · rw [if_pos ht] at hout
      exact .take hp rfl hout
    · rw [if_neg ht] at hout
      by_cases hnil : (v.entry.obj g).matched.take maxRows.toNat = []
      · refine .take hp rfl (hout.trans ?_)
        rw [hnil, List.append_nil]
      · exact .waste ⟨ht, g, hp, hnil⟩ hp rfl hout
  | @receive i out isLast ht hp =>
    refine .same rfl ?_
    have hrep := reply_pulling ht hp
    unfold View.out
    rw [hrep, reply_eq_nil]
    · simp [stageRows]
    · cases isLast <;> simp
  | @expired i out isLast ht hp =>
    refine hgive rfl rfl rfl (by simp) fun h => absurd ?_ h
    exact (reply_pulling ht hp).trans (hr _ _ _ _ hp (by decide))
  | @refused i code out isLast ht hp hc =>
    refine hgive rfl rfl rfl (by simp [View.fail]) fun h => absurd ?_ h
    exact (reply_pulling ht hp).trans (hr _ _ _ _ hp hc)
  | timeout => exact hgive rfl rfl rfl (by simp) fun h => ⟨rfl, h⟩
  | failed => exact hgive rfl rfl rfl (by simp [View.fail]) fun h => ⟨rfl, h⟩
  | drain hs =>
    refine .same rfl ?_
    unfold View.out
    rw [hs]
    simp [View.reply]

lemma entry_step (hok : EntryOk (c.shard o) q v.entry) (hst : LaneStep c q o k v a v') :
    EntryOk (c.shard o) q v'.entry := by
  cases hst with
  | register => exact hok.register 1
  | produce h => exact (prodStep_spec hok h).1
  | flag => exact hok.setObj ⟨rfl, rfl, rfl⟩
  | clear => exact hok.setObj ⟨rfl, rfl, rfl⟩
  | evict h => exact hok.removes h
  | pop => exact hok.setObj (sameCourse_pop _ _)
  | last => exact hok.removes .drop
  | erase => exact hok.removes .erase
  | unschedule => exact hok.removes .unschedule
  | _ => exact hok

lemma grows_step (hok : EntryOk (c.shard o) q v.entry)
    (hst : LaneStep c q o k v a v') : Grows v.entry v'.entry := by
  cases hst with
  | register => exact grows_register 1
  | produce h => exact grows_makes (prodStep_spec hok h).2
  | flag => exact grows_setObj rfl id
  | clear => exact grows_setObj rfl fun _ => rfl
  | evict h => exact grows_removes h
  | pop => exact grows_pop _ _
  | last => exact grows_removes .drop
  | erase => exact grows_removes .erase
  | unschedule => exact grows_removes .unschedule
  | _ => exact .refl _

end Mini2.Lane
