import Mini2.JsonText

/-!
What the reader makes of JSON that ends too early. A text that is cut short still shows something:
the fields and items that are complete, and of the one in which the text ends what has been written
of it. Where nothing has been written of a value, it is read as null.
-/

namespace Mini2.Json

open Mini2.Cuts Mini2.SortedMap

/-! ### Texts that are cut short -/

/-- The characters of a string that is not closed, and how they are written. -/
inductive Unclosed : List Char → List Char → Prop
  | body {cs b : List Char} (h : Body cs b) : Unclosed cs b
  | backslash {cs b : List Char} (h : Body cs b) : Unclosed (cs ++ ['\\']) (b ++ ['\\'])

/-- The words, and how they are written. -/
def words : List (Value × List Char) :=
  [(.null, ['n', 'u', 'l', 'l']), (.bool true, ['t', 'r', 'u', 'e']),
    (.bool false, ['f', 'a', 'l', 's', 'e'])]

/-- What a text of a piece still shows when it is cut short. White space in front is skipped; of a
word nothing is recognised, and a number of no characters is read. -/
inductive Cut (num : List Char → Option ℚ) (stod : List Char → ℚ) :
    Piece → List Char → Piece → Prop
  | blank {v : Value} {w : List Char} (hw : Space w) : Cut num stod (.value v) w (.value .null)
  | whole {v : Value} {w₁ s w₂ : List Char} (hw₁ : Space w₁) (h : Text num (.value v) s)
      (hw₂ : Space w₂) : Cut num stod (.value v) (w₁ ++ (s ++ w₂)) (.value v)
  | word {v : Value} {w s p : List Char} (hw : Space w) (hv : (v, s) ∈ words) (hp : p <+: s)
      (hne : p ≠ []) (hproper : p ≠ s) :
      Cut num stod (.value v) (w ++ p) (.value (.num (stod [])))
  | num {n : ℚ} {w s p : List Char} (hw : Space w) (hn : num s = some n) (hp : p <+: s)
      (hne : p ≠ []) : Cut num stod (.value (.num n)) (w ++ p) (.value (.num (stod p)))
  | str {t : String} {w s cs b : List Char} (hw : Space w) (h : Quoted t s) (hp : '"' :: b <+: s)
      (hb : Unclosed cs b) :
      Cut num stod (.value (.str t)) (w ++ '"' :: b) (.value (.str (String.ofList cs)))
  | arr {vs vs' : List Value} {w p : List Char} (hw : Space w)
      (h : Cut num stod (.items vs) p (.items vs')) :
      Cut num stod (.value (.arr vs)) (w ++ '[' :: p) (.value (.arr vs'))
  | obj {fs m fs' m' : List (String × Value)} {w p : List Char} (hw : Space w)
      (h : Cut num stod (.fields fs) p (.fields fs')) (hperm : m.Perm fs) (hsorted : Sorted m)
      (hperm' : m'.Perm fs') (hsorted' : Sorted m') :
      Cut num stod (.value (.obj m)) (w ++ '{' :: p) (.value (.obj m'))
  | noItem {w : List Char} (hw : Space w) : Cut num stod (.items []) w (.items [.null])
  | item {v v' : Value} {vs : List Value} {p : List Char}
      (h : Cut num stod (.value v) p (.value v')) : Cut num stod (.items (v :: vs)) p (.items [v'])
  | items {v : Value} {vs vs' : List Value} {w₁ s w₂ p : List Char} (hw₁ : Space w₁)
      (h : Text num (.value v) s) (hw₂ : Space w₂) (hs : Cut num stod (.items vs) p (.items vs')) :
      Cut num stod (.items (v :: vs)) (w₁ ++ (s ++ (w₂ ++ ',' :: p))) (.items (v :: vs'))
  | noField {w : List Char} (hw : Space w) : Cut num stod (.fields []) w (.fields [])
  | key {key : String} {v : Value} {fs : List (String × Value)} {w₁ k w₂ p : List Char}
      (hw₁ : Space w₁) (hk : Quoted key k) (hw₂ : Space w₂) (hp : p <+: w₁ ++ (k ++ w₂)) :
      Cut num stod (.fields ((key, v) :: fs)) p (.fields [])
  | field {key : String} {v v' : Value} {fs : List (String × Value)} {w₁ k w₂ p : List Char}
      (hw₁ : Space w₁) (hk : Quoted key k) (hw₂ : Space w₂)
      (h : Cut num stod (.value v) p (.value v')) :
      Cut num stod (.fields ((key, v) :: fs)) (w₁ ++ (k ++ (w₂ ++ ':' :: p))) (.fields [(key, v')])
  | fields {key : String} {v : Value} {fs fs' : List (String × Value)}
      {w₁ k w₂ w₃ s w₄ p : List Char} (hw₁ : Space w₁) (hk : Quoted key k) (hw₂ : Space w₂)
      (hw₃ : Space w₃) (h : Text num (.value v) s) (hw₄ : Space w₄)
      (hs : Cut num stod (.fields fs) p (.fields fs')) :
      Cut num stod (.fields ((key, v) :: fs))
        (w₁ ++ (k ++ (w₂ ++ ':' :: (w₃ ++ (s ++ (w₄ ++ ',' :: p)))))) (.fields ((key, v) :: fs'))

variable {num : List Char → Option ℚ} {stod : List Char → ℚ} {s p w rest : List Char}

/-! ### Every prefix is a cut -/

lemma Space.start (hw : Space w) (hp : p <+: w) : Space p := fun c hc => hw c (hp.subset hc)

lemma Body.start {cs b : List Char} (h : Body cs b) (hp : p <+: b) : ∃ cs', Unclosed cs' p := by
  induction h generalizing p with
  | nil =>
    obtain rfl := List.prefix_nil.mp hp
    exact ⟨[], .body .nil⟩
  | @raw c cs b hquote hback h ih =>
    rcases List.prefix_cons_iff.mp hp with rfl | ⟨q, rfl, hq⟩
    · exact ⟨[], .body .nil⟩
    · obtain ⟨cs', hcs'⟩ := ih hq
      cases hcs' with
      | body hbody => exact ⟨_, .body (.raw hquote hback hbody)⟩
      | backslash hbody => exact ⟨_, .backslash (.raw hquote hback hbody)⟩
  | @escape c e cs b he h ih =>
    rcases List.prefix_cons_iff.mp hp with rfl | ⟨q, rfl, hq⟩
    · exact ⟨[], .body .nil⟩
    · rcases List.prefix_cons_iff.mp hq with rfl | ⟨r, rfl, hr⟩
      · exact ⟨_, .backslash .nil⟩
      · obtain ⟨cs', hcs'⟩ := ih hr
        cases hcs' with
        | body hbody => exact ⟨_, .body (.escape he hbody)⟩
        | backslash hbody => exact ⟨_, .backslash (.escape he hbody)⟩

lemma Quoted.start {t : String} (h : Quoted t s) (hp : p <+: s) (hne : p ≠ [])
    (hproper : p ≠ s) : ∃ cs b, p = '"' :: b ∧ Unclosed cs b := by
  obtain ⟨b, hb, rfl⟩ := h
  rw [List.cons_append] at hp hproper
  rcases List.prefix_cons_iff.mp hp with rfl | ⟨q, rfl, hq⟩
  · exact absurd rfl hne
  · rcases List.prefix_concat_iff.mp hq with rfl | hq
    · exact absurd rfl hproper
    · obtain ⟨cs, hcs⟩ := hb.start hq
      exact ⟨cs, q, rfl, hcs⟩

/-- Something is shown of every prefix. Of the items and the fields the closing bracket is part of
the text; the keys that are shown are the first ones. -/
def Cuttable (num : List Char → Option ℚ) (stod : List Char → ℚ) : Piece → List Char → Prop
  | .value v, s => ∀ p w, Space w → p <+: s → ∃ v', Cut num stod (.value v) (w ++ p) (.value v')
  | .items vs, s => ∀ p, p <+: s → p ≠ s → ∃ vs', Cut num stod (.items vs) p (.items vs')
  | .fields fs, s => ∀ p, p <+: s → p ≠ s →
      ∃ fs', Cut num stod (.fields fs) p (.fields fs') ∧ fs'.map Prod.fst <+: fs.map Prod.fst

lemma cuttable_value {v : Value} (h : Text num (.value v) s)
    (hinside : ∀ p w, Space w → p <+: s → p ≠ [] → p ≠ s →
      ∃ v', Cut num stod (.value v) (w ++ p) (.value v')) : Cuttable num stod (.value v) s := by
  intro p w hw hp
  by_cases hne : p = []
  · rw [hne, List.append_nil]
    exact ⟨_, .blank hw⟩
  · by_cases hproper : p = s
    · have hwhole : Cut num stod (.value v) (w ++ (s ++ [])) (.value v) := .whole hw h space_nil
      rw [List.append_nil] at hwhole
      rw [hproper]
      exact ⟨_, hwhole⟩
    · exact hinside p w hw hp hne hproper

lemma Cuttable.spaced {v : Value} (h : Cuttable num stod (.value v) s)
    (hs : Text num (.value v) s) {w₁ w₂ : List Char} (hw₁ : Space w₁) (hw₂ : Space w₂)
    (hp : p <+: w₁ ++ (s ++ w₂)) : ∃ v', Cut num stod (.value v) p (.value v') := by
  rcases prefix_append_or hp with hp | ⟨q, rfl, hq⟩
  · exact ⟨_, .blank (hw₁.start hp)⟩
  · rcases prefix_append_or hq with hq | ⟨r, rfl, hr⟩
    · exact h q w₁ hw₁ hq
    · exact ⟨_, .whole hw₁ hs (hw₂.start hr)⟩

lemma Text.cuttable {piece : Piece} (h : Text num piece s) : Cuttable num stod piece s := by
  induction h with
  | null =>
    refine cuttable_value .null fun p w hw hp hne hproper => ?_
    exact ⟨_, .word hw (by simp [words]) hp hne hproper⟩
  | true =>
    refine cuttable_value .true fun p w hw hp hne hproper => ?_
    exact ⟨_, .word hw (by simp [words]) hp hne hproper⟩
  | false =>
    refine cuttable_value .false fun p w hw hp hne hproper => ?_
    exact ⟨_, .word hw (by simp [words]) hp hne hproper⟩
  | num h => exact cuttable_value (.num h) fun p w hw hp hne _ => ⟨_, .num hw h hp hne⟩
  | str h =>
    refine cuttable_value (.str h) fun p w hw hp hne hproper => ?_
    obtain ⟨cs, b, rfl, hb⟩ := h.start hp hne hproper
    exact ⟨_, .str hw h hp hb⟩
  | @arrEmpty w' hw' =>
    refine cuttable_value (.arrEmpty hw') fun p w hw hp hne hproper => ?_
    rcases List.prefix_cons_iff.mp hp with rfl | ⟨q, rfl, hq⟩
    · exact absurd rfl hne
    · rcases List.prefix_concat_iff.mp hq with rfl | hq
      · exact absurd rfl hproper
      · exact ⟨_, .arr hw (.noItem (hw'.start hq))⟩
  | @arr vs s h ih =>
    refine cuttable_value (.arr h) fun p w hw hp hne hproper => ?_
    rcases List.prefix_cons_iff.mp hp with rfl | ⟨q, rfl, hq⟩
    · exact absurd rfl hne
    · obtain ⟨vs', hvs'⟩ := ih q hq fun heq => hproper (congrArg _ heq)
      exact ⟨_, .arr hw hvs'⟩
  | @objEmpty w' hw' =>
    refine cuttable_value (.objEmpty hw') fun p w hw hp hne hproper => ?_
    rcases List.prefix_cons_iff.mp hp with rfl | ⟨q, rfl, hq⟩
    · exact absurd rfl hne
    · rcases List.prefix_concat_iff.mp hq with rfl | hq
      · exact absurd rfl hproper
      · exact ⟨_, .obj hw (.noField (hw'.start hq)) (List.Perm.refl _) List.Pairwise.nil
          (List.Perm.refl _) List.Pairwise.nil⟩
  | @obj fs m s h hperm hsorted ih =>
    refine cuttable_value (.obj h hperm hsorted) fun p w hw hp hne hproper => ?_
    rcases List.prefix_cons_iff.mp hp with rfl | ⟨q, rfl, hq⟩
    · exact absurd rfl hne
    · obtain ⟨fs', hfs', hkeys⟩ := ih q hq fun heq => hproper (congrArg _ heq)
      have hnodup : (([] ++ fs').map Prod.fst).Nodup :=
        ((hperm.map Prod.fst).nodup_iff.mp hsorted.nodup).sublist hkeys.sublist
      obtain ⟨hperm', hsorted'⟩ := setAll_spec List.Pairwise.nil hnodup
      exact ⟨_, .obj hw hfs' hperm hsorted hperm' hsorted'⟩
  | @item v w₁ s w₂ hw₁ h hw₂ ih =>
    intro p hp hproper
    have htext : w₁ ++ (s ++ (w₂ ++ [']'])) = (w₁ ++ (s ++ w₂)) ++ [']'] := by simp
    rw [htext] at hp hproper
    have hinside := (List.prefix_concat_iff.mp hp).resolve_left hproper
    obtain ⟨v', hv'⟩ := Cuttable.spaced ih h hw₁ hw₂ hinside
    exact ⟨_, .item hv'⟩
  | @items v vs w₁ s w₂ t hw₁ h hw₂ hs ih ih' =>
    intro p hp hproper
    have htext : w₁ ++ (s ++ (w₂ ++ ',' :: t)) = (w₁ ++ (s ++ w₂)) ++ ',' :: t := by simp
    rw [htext] at hp hproper
    rcases prefix_cons_or hp with hp | ⟨q, rfl, hq⟩
    · obtain ⟨v', hv'⟩ := Cuttable.spaced ih h hw₁ hw₂ hp
      exact ⟨_, .item hv'⟩
    · obtain ⟨vs', hvs'⟩ := ih' q hq fun heq => hproper (by rw [heq])
      have hcut := Cut.items hw₁ h hw₂ hvs'
      exact ⟨_, by simpa using hcut⟩
  | @field key v w₁ k w₂ w₃ s w₄ hw₁ hk hw₂ hw₃ h hw₄ ih =>
    intro p hp hproper
    have htext : w₁ ++ (k ++ (w₂ ++ ':' :: (w₃ ++ (s ++ (w₄ ++ ['}']))))) =
        (w₁ ++ (k ++ w₂)) ++ ':' :: ((w₃ ++ (s ++ w₄)) ++ ['}']) := by simp
    rw [htext] at hp hproper
    rcases prefix_cons_or hp with hp | ⟨q, rfl, hq⟩
    · exact ⟨_, .key hw₁ hk hw₂ hp, List.nil_prefix⟩
    · have hinside := (List.prefix_concat_iff.mp hq).resolve_left
        fun heq => hproper (by rw [heq])
      obtain ⟨v', hv'⟩ := Cuttable.spaced ih h hw₃ hw₄ hinside
      have hcut : Cut num stod (.fields [(key, v)]) _ (.fields [(key, v')]) :=
        .field hw₁ hk hw₂ hv'
      exact ⟨[(key, v')], by simpa using hcut, List.prefix_rfl⟩
  | @fields key v fs w₁ k w₂ w₃ s w₄ t hw₁ hk hw₂ hw₃ h hw₄ hs ih ih' =>
    intro p hp hproper
    have htext : w₁ ++ (k ++ (w₂ ++ ':' :: (w₃ ++ (s ++ (w₄ ++ ',' :: t))))) =
        (w₁ ++ (k ++ w₂)) ++ ':' :: ((w₃ ++ (s ++ w₄)) ++ ',' :: t) := by simp
    rw [htext] at hp hproper
    rcases prefix_cons_or hp with hp | ⟨q, rfl, hq⟩
    · exact ⟨_, .key hw₁ hk hw₂ hp, List.nil_prefix⟩
    · rcases prefix_cons_or hq with hq | ⟨r, rfl, hr⟩
      · obtain ⟨v', hv'⟩ := Cuttable.spaced ih h hw₃ hw₄ hq
        have hcut : Cut num stod (.fields ((key, v) :: fs)) _ (.fields [(key, v')]) :=
          .field hw₁ hk hw₂ hv'
        exact ⟨[(key, v')], by simpa using hcut, (List.prefix_cons_inj key).mpr List.nil_prefix⟩
      · obtain ⟨fs', hfs', hkeys⟩ := ih' r hr fun heq => hproper (by rw [heq])
        have hcut := Cut.fields hw₁ hk hw₂ hw₃ h hw₄ hfs'
        exact ⟨(key, v) :: fs', by simpa using hcut, (List.prefix_cons_inj key).mpr hkeys⟩

/-! ### What the parsers make of a cut -/

lemma next_blank (hw : Space w) : next stod w = (.ended, []) := by
  have hspace : next stod (w ++ []) = next stod [] := next_space hw []
  rw [List.append_nil] at hspace
  exact hspace

/-- Of the beginning of a word a number is read, and none of its characters. -/
lemma next_word {v : Value} (hv : (v, s) ∈ words) (hp : p <+: s) (hne : p ≠ []) (hproper : p ≠ s) :
    next stod p = (.num (stod []), p) := by
  have hmem := (List.mem_inits p s).mpr hp
  simp only [words, List.mem_cons, Prod.mk.injEq, List.not_mem_nil, or_false] at hv
  rcases hv with ⟨-, rfl⟩ | ⟨-, rfl⟩ | ⟨-, rfl⟩
  all_goals
    simp only [List.inits, List.map_cons, List.map_nil, List.mem_cons, List.not_mem_nil,
      or_false] at hmem
  · rcases hmem with rfl | rfl | rfl | rfl | rfl
    · exact absurd rfl hne
    · rfl
    · rfl
    · rfl
    · exact absurd rfl hproper
  · rcases hmem with rfl | rfl | rfl | rfl | rfl
    · exact absurd rfl hne
    · rfl
    · rfl
    · rfl
    · exact absurd rfl hproper
  · rcases hmem with rfl | rfl | rfl | rfl | rfl | rfl
    · exact absurd rfl hne
    · rfl
    · rfl
    · rfl
    · rfl
    · exact absurd rfl hproper

lemma next_unclosed {cs b : List Char} (h : Unclosed cs b) :
    next stod ('"' :: b) = (.str (String.ofList cs), []) := by
  have hlex : lexString b = (cs, []) := by
    cases h with
    | body h =>
      have happend := lexString_append h []
      simpa [lexString] using happend
    | backslash h => exact lexString_append h ['\\']
  have hnext : next stod ('"' :: b) = (.str (String.ofList (lexString b).1), (lexString b).2) := rfl
  rw [hnext, hlex]

lemma next_key (stod : List Char → ℚ) {key : String} {w₁ k w₂ : List Char} (hw₁ : Space w₁)
    (hk : Quoted key k) (hw₂ : Space w₂) (hp : p <+: w₁ ++ (k ++ w₂)) :
    next stod p = (.ended, []) ∨ ∃ t r, next stod p = (.str t, r) ∧ Space r := by
  rcases prefix_append_or hp with hp | ⟨q, rfl, hq⟩
  · exact .inl (next_blank (hw₁.start hp))
  · rw [next_space hw₁]
    rcases prefix_append_or hq with hq | ⟨r, rfl, hr⟩
    · by_cases hne : q = []
      · rw [hne]
        exact .inl rfl
      · by_cases hproper : q = k
        · have hquoted : next stod (k ++ []) = (.str key, []) := next_quoted hk []
          rw [List.append_nil] at hquoted
          rw [hproper]
          exact .inr ⟨key, [], hquoted, space_nil⟩
        · obtain ⟨cs, b, rfl, hb⟩ := hk.start hq hne hproper
          exact .inr ⟨_, [], next_unclosed hb, space_nil⟩
    · exact .inr ⟨key, r, next_quoted hk r, hw₂.start hr⟩

/-- No parser gets on with what is left: from here on there is one token only, which is neither a
comma nor closes anything. -/
def Halts (stod : List Char → ℚ) (rest : List Char) : Prop :=
  ∃ t r, next stod rest = (t, r) ∧ next stod r = (t, r) ∧ (t = .ended ∨ ∃ n, t = .num n)

lemma halts_space (hw : Space w) : Halts stod w :=
  ⟨.ended, [], next_blank hw, rfl, .inl rfl⟩

lemma Halts.next (h : Halts stod rest) : Halts stod (next stod rest).2 := by
  obtain ⟨t, r, hrest, hr, ht⟩ := h
  rw [hrest]
  exact ⟨t, r, hr, hr, ht⟩

/-- What the parsers make of a text that is cut short. -/
def Shows (stod : List Char → ℚ) : Piece → List Char → Prop
  | .value v, p => ∀ k, 3 * p.length + 1 ≤ k →
      ∃ rest, parseValue stod k p = some (v, rest) ∧ Halts stod rest
  | .items vs, p => ∀ k us, 3 * p.length + 2 ≤ k →
      ∃ rest, arrayLoop stod k us p = some (.arr (us ++ vs), rest) ∧ Halts stod rest
  | .fields fs, p => ∀ k m, 3 * p.length + 1 ≤ k →
      ∃ rest, objectLoop stod k m (next stod p).1 (next stod p).2 =
        some (.obj (setAll m fs), rest) ∧ Halts stod rest

lemma next_literal (hr : Reads num stod) {n : ℚ} (hn : num s = some n) (hp : p <+: s)
    (hne : p ≠ []) : next stod p = (.num (stod p), []) := by
  have hnumeric : ∀ c ∈ p, numeric c = true := fun c hc => hr.numeric hn c (hp.subset hc)
  have hread : next stod (p ++ []) = (.num (stod p), []) :=
    next_numeric hne hnumeric space_nil.stops
  rwa [List.append_nil] at hread

lemma Cut.value_ne (hr : Reads num stod) {v v' : Value}
    (h : Cut num stod (.value v) p (.value v')) : (next stod p).1 ≠ .rbracket := by
  cases h with
  | blank hw =>
    rw [next_blank hw]
    exact Tok.noConfusion
  | whole hw₁ h hw₂ =>
    rw [next_space hw₁]
    exact h.first_ne hr hw₂.stops
  | word hw hv hp hne hproper =>
    rw [next_space hw, next_word hv hp hne hproper]
    exact Tok.noConfusion
  | num hw hn hp hne =>
    rw [next_space hw, next_literal hr hn hp hne]
    exact Tok.noConfusion
  | str hw h hp hb =>
    rw [next_space hw, next_unclosed hb]
    exact Tok.noConfusion
  | arr hw h =>
    rw [next_space hw]
    exact Tok.noConfusion
  | obj hw h =>
    rw [next_space hw]
    exact Tok.noConfusion

lemma Cut.items_ne (hr : Reads num stod) {vs vs' : List Value}
    (h : Cut num stod (.items vs) p (.items vs')) : (next stod p).1 ≠ .rbracket := by
  cases h with
  | noItem hw =>
    rw [next_blank hw]
    exact Tok.noConfusion
  | item h => exact h.value_ne hr
  | items hw₁ h hw₂ hs =>
    rw [next_space hw₁]
    exact h.first_ne hr (stops_space hw₂ rfl)

lemma Cut.fields_ne {fs fs' : List (String × Value)}
    (h : Cut num stod (.fields fs) p (.fields fs')) : (next stod p).1 ≠ .rbrace := by
  cases h with
  | noField hw =>
    rw [next_blank hw]
    exact Tok.noConfusion
  | key hw₁ hk hw₂ hp =>
    rcases next_key stod hw₁ hk hw₂ hp with hnext | ⟨t, r, hnext, -⟩
    · rw [hnext]
      exact Tok.noConfusion
    · rw [hnext]
      exact Tok.noConfusion
  | field hw₁ hk hw₂ h =>
    rw [next_space hw₁, next_quoted hk]
    exact Tok.noConfusion
  | fields hw₁ hk hw₂ hw₃ h hw₄ hs =>
    rw [next_space hw₁, next_quoted hk]
    exact Tok.noConfusion

lemma parseObject_of_ne {k : ℕ} (h : (next stod s).1 ≠ .rbrace) :
    parseObject stod (k + 1) s = objectLoop stod k [] (next stod s).1 (next stod s).2 := by
  rw [parseObject]
  split
  · rename_i heq
    exact absurd (congrArg Prod.fst heq) h
  · rename_i heq
    rw [heq]

/-- **The parsers show what is there of a text that is cut short.** -/
lemma Cut.shows (hr : Reads num stod) {piece piece' : Piece} (h : Cut num stod piece p piece') :
    Shows stod piece' p := by
  induction h with
  | @blank v w hw =>
    intro k hk
    obtain ⟨k, rfl⟩ := Nat.exists_eq_add_of_lt hk
    refine ⟨[], ?_, halts_space space_nil⟩
    rw [parseValue, next_blank hw]
  | @whole v w₁ s w₂ hw₁ h hw₂ =>
    intro k hk
    refine ⟨w₂, ?_, halts_space hw₂⟩
    rw [parseValue_space hw₁]
    refine h.decodes hr k w₂ ?_ hw₂.stops
    rw [List.length_append] at hk
    omega
  | @word v w s p hw hv hp hne hproper =>
    intro k hk
    obtain ⟨k, rfl⟩ := Nat.exists_eq_add_of_lt hk
    have hnext : next stod p = (.num (stod []), p) := next_word hv hp hne hproper
    refine ⟨p, ?_, .num (stod []), p, hnext, hnext, .inr ⟨_, rfl⟩⟩
    rw [parseValue_space hw, parseValue, hnext]
  | @num n w s p hw hn hp hne =>
    intro k hk
    obtain ⟨k, rfl⟩ := Nat.exists_eq_add_of_lt hk
    refine ⟨[], ?_, halts_space space_nil⟩
    rw [parseValue_space hw, parseValue, next_literal hr hn hp hne]
  | @str t w s cs b hw h hp hb =>
    intro k hk
    obtain ⟨k, rfl⟩ := Nat.exists_eq_add_of_lt hk
    refine ⟨[], ?_, halts_space space_nil⟩
    rw [parseValue_space hw, parseValue, next_unclosed hb]
  | @arr vs vs' w p hw h ih =>
    intro k hk
    rw [List.length_append, List.length_cons] at hk
    obtain ⟨k, rfl⟩ : ∃ j, k = j + 2 := ⟨k - 2, by omega⟩
    obtain ⟨rest, hloop, hrest⟩ := ih k [] (by omega)
    refine ⟨rest, ?_, hrest⟩
    rw [parseValue_space hw, parseValue]
    change parseArray stod (k + 1) p = _
    rw [parseArray_of_ne (h.items_ne hr)]
    exact hloop
  | @obj fs m fs' m' w p hw h hperm hsorted hperm' hsorted' ih =>
    intro k hk
    rw [List.length_append, List.length_cons] at hk
    obtain ⟨k, rfl⟩ : ∃ j, k = j + 2 := ⟨k - 2, by omega⟩
    obtain ⟨rest, hloop, hrest⟩ := ih k [] (by omega)
    rw [setAll_eq hperm' hsorted'] at hloop
    refine ⟨rest, ?_, hrest⟩
    rw [parseValue_space hw, parseValue]
    change parseObject stod (k + 1) p = _
    rw [parseObject_of_ne h.fields_ne, hloop]
  | @noItem w hw =>
    intro k us hk
    obtain ⟨k, rfl⟩ : ∃ j, k = j + 2 := ⟨k - 2, by omega⟩
    refine ⟨[], ?_, halts_space space_nil⟩
    rw [arrayLoop, parseValue, next_blank hw]
    rfl
  | @item v v' vs p h ih =>
    intro k us hk
    obtain ⟨k, rfl⟩ : ∃ j, k = j + 1 := ⟨k - 1, by omega⟩
    obtain ⟨rest, hvalue, hrest⟩ := ih k (by omega)
    refine ⟨(next stod rest).2, ?_, hrest.next⟩
    obtain ⟨t, r, hnext, -, ht⟩ := hrest
    rw [arrayLoop, hvalue]
    simp only [hnext]
    rcases ht with rfl | ⟨n, rfl⟩ <;> rfl
  | @items v vs vs' w₁ s w₂ p hw₁ h hw₂ hs ih =>
    intro k us hk
    obtain ⟨k, rfl⟩ : ∃ j, k = j + 1 := ⟨k - 1, by omega⟩
    have hcomma : next stod (w₂ ++ ',' :: p) = (.comma, p) := next_space hw₂ _
    obtain ⟨rest, hloop, hrest⟩ := ih k (us ++ [v]) (by
      simp only [List.length_append, List.length_cons] at hk
      omega)
    refine ⟨rest, ?_, hrest⟩
    rw [arrayLoop, (h.decodes hr).spaced hw₁ hw₂ rfl (by omega)]
    simp only [hcomma]
    rwa [List.append_assoc] at hloop
  | @noField w hw =>
    intro k m hk
    obtain ⟨k, rfl⟩ : ∃ j, k = j + 1 := ⟨k - 1, by omega⟩
    refine ⟨[], ?_, halts_space space_nil⟩
    rw [next_blank hw]
    rfl
  | @key key v fs w₁ q w₂ p hw₁ hq hw₂ hp =>
    intro k m hk
    obtain ⟨k, rfl⟩ : ∃ j, k = j + 1 := ⟨k - 1, by omega⟩
    refine ⟨[], ?_, halts_space space_nil⟩
    rcases next_key stod hw₁ hq hw₂ hp with hnext | ⟨t, r, hnext, hr'⟩
    · rw [hnext]
      rfl
    · rw [hnext, objectLoop, next_blank hr']
      rfl
  | @field key v v' fs w₁ q w₂ p hw₁ hq hw₂ h ih =>
    intro k m hk
    obtain ⟨k, rfl⟩ : ∃ j, k = j + 1 := ⟨k - 1, by omega⟩
    have hcolon : next stod (w₂ ++ ':' :: p) = (.colon, p) := next_space hw₂ _
    obtain ⟨rest, hvalue, hrest⟩ := ih k (by
      simp only [List.length_append, List.length_cons] at hk
      omega)
    refine ⟨(next stod rest).2, ?_, hrest.next⟩
    obtain ⟨t, r, hnext, -, ht⟩ := hrest
    rw [next_space hw₁, next_quoted hq, objectLoop, hcolon]
    simp only [hvalue, hnext]
    rcases ht with rfl | ⟨n, rfl⟩ <;> rfl
  | @fields key v fs fs' w₁ q w₂ w₃ s w₄ p hw₁ hq hw₂ hw₃ h hw₄ hs ih =>
    intro k m hk
    obtain ⟨k, rfl⟩ : ∃ j, k = j + 1 := ⟨k - 1, by omega⟩
    have hcomma : next stod (w₄ ++ ',' :: p) = (.comma, p) := next_space hw₄ _
    obtain ⟨rest, hloop, hrest⟩ := ih k (insertKey key v m) (by
      simp only [List.length_append, List.length_cons] at hk
      omega)
    refine ⟨rest, ?_, hrest⟩
    refine (h.decodes hr).member hw₁ hq hw₂ hw₃ hw₄ rfl rfl (by omega) ?_
    simp only [hcomma]
    exact hloop

/-- **The reader reads what is shown** of a text that is cut short. -/
lemma Cut.parseRoot (hr : Reads num stod) {v v' : Value}
    (h : Cut num stod (.value v) p (.value v')) : Json.parseRoot stod p = some v' := by
  obtain ⟨rest, hparse, -⟩ := h.shows hr (3 * p.length + 1) le_rfl
  rw [Json.parseRoot, hparse]
  rfl

/-- Something is shown of every prefix of a text, white space around it or not. -/
lemma Text.exists_cut {v : Value} {w w' : List Char} (hw : Space w)
    (h : Text num (.value v) s) (hw' : Space w') (hp : p <+: w ++ s ++ w') :
    ∃ v', Cut num stod (.value v) p (.value v') := by
  rw [List.append_assoc] at hp
  exact Cuttable.spaced h.cuttable h hw hw' hp

/-! ### Objects are in order -/

/-- In every object of a value the keys are distinct, and in order. -/
inductive Ordered : Value → Prop
  | null : Ordered .null
  | str {s : String} : Ordered (.str s)
  | num {n : ℚ} : Ordered (.num n)
  | bool {b : Bool} : Ordered (.bool b)
  | arr {vs : List Value} (h : ∀ v ∈ vs, Ordered v) : Ordered (.arr vs)
  | obj {m : List (String × Value)} (hm : Sorted m) (h : ∀ f ∈ m, Ordered f.2) : Ordered (.obj m)

def Piece.Ordered : Piece → Prop
  | .value v => Json.Ordered v
  | .items vs => ∀ v ∈ vs, Json.Ordered v
  | .fields fs => ∀ f ∈ fs, Json.Ordered f.2

lemma Text.ordered {piece : Piece} (h : Text num piece s) : piece.Ordered := by
  induction h with
  | null => exact .null
  | true => exact .bool
  | false => exact .bool
  | num h => exact .num
  | str h => exact .str
  | arrEmpty hw => exact .arr (List.forall_mem_nil _)
  | arr h ih => exact .arr ih
  | objEmpty hw => exact .obj List.Pairwise.nil (List.forall_mem_nil _)
  | obj h hperm hsorted ih => exact .obj hsorted fun f hf => ih f (hperm.mem_iff.mp hf)
  | item hw₁ h hw₂ ih => exact List.forall_mem_singleton.mpr ih
  | items hw₁ h hw₂ hs ih ih' => exact List.forall_mem_cons.mpr ⟨ih, ih'⟩
  | field hw₁ hk hw₂ hw₃ h hw₄ ih => exact List.forall_mem_singleton.mpr ih
  | fields hw₁ hk hw₂ hw₃ h hw₄ hs ih ih' => exact List.forall_mem_cons.mpr ⟨ih, ih'⟩

lemma Cut.ordered {piece piece' : Piece} (h : Cut num stod piece p piece') : piece'.Ordered := by
  induction h with
  | blank hw => exact .null
  | whole hw₁ h hw₂ => exact h.ordered
  | word hw hv hp hne hproper => exact .num
  | num hw hn hp hne => exact .num
  | str hw h hp hb => exact .str
  | arr hw h ih => exact .arr ih
  | obj hw h hperm hsorted hperm' hsorted' ih =>
    exact .obj hsorted' fun f hf => ih f (hperm'.mem_iff.mp hf)
  | noItem hw => exact List.forall_mem_singleton.mpr .null
  | item h ih => exact List.forall_mem_singleton.mpr ih
  | items hw₁ h hw₂ hs ih => exact List.forall_mem_cons.mpr ⟨h.ordered, ih⟩
  | noField hw => exact List.forall_mem_nil _
  | key hw₁ hk hw₂ hp => exact List.forall_mem_nil _
  | field hw₁ hk hw₂ h ih => exact List.forall_mem_singleton.mpr ih
  | fields hw₁ hk hw₂ hw₃ h hw₄ hs ih => exact List.forall_mem_cons.mpr ⟨h.ordered, ih⟩

end Mini2.Json
