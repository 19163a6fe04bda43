import Mini2.Lib.Cuts
import Mini2.OverlayYaml

/-!
What the functions of the loader make of a line as it is written by the generator: tokens with
blanks around them, a key and a colon in front, flow maps and sequences.
-/

namespace Mini2.OverlayYaml

open Mini2.Cuts Mini2.SortedMap

/-- A word that needs no quotes and no escape. -/
def Token (t : Line) : Prop :=
  t ≠ [] ∧ ∀ c ∈ t, isSpace c = false ∧
    c ∉ ['"', '\'', ',', ':', '#', '\x7b', '\x7d', '[', ']']

instance (t : Line) : Decidable (Token t) :=
  decidable_of_iff (t ≠ [] ∧ t.all fun c => !isSpace c &&
    !List.elem c ['"', '\'', ',', ':', '#', '\x7b', '\x7d', '[', ']']) (by simp [Token])

variable {s t u v : Line}

/-! ### Blanks -/

def Blanks (u : Line) : Prop := ∀ c ∈ u, isSpace c = true

/-- A text that neither begins nor ends with a blank is what is left of it between blanks. -/
lemma trim_pad (hu : Blanks u) (hv : Blanks v) (hhead : ∀ c ∈ t.head?, isSpace c = false)
    (hlast : ∀ c ∈ t.getLast?, isSpace c = false) (hne : t ≠ []) : trim (u ++ (t ++ v)) = t := by
  rw [trim, dropWhile_append hu, rdropWhile_append hv hlast]
  intro c hc
  rw [List.head?_append_of_ne_nil _ hne] at hc
  exact hhead c hc

lemma trim_blanks (hu : Blanks u) : trim u = [] := by
  rw [trim, List.dropWhile_eq_nil_iff.mpr hu]
  rfl

lemma Token.trim_pad (ht : Token t) (hu : Blanks u) (hv : Blanks v) :
    trim (u ++ (t ++ v)) = t :=
  OverlayYaml.trim_pad hu hv (fun c hc => (ht.2 c (List.mem_of_head? hc)).1)
    (fun c hc => (ht.2 c (List.mem_of_getLast? hc)).1) ht.1

lemma blanks_nil : Blanks [] := List.forall_mem_nil _

lemma blanks_space : Blanks [' '] := by simp [Blanks, isSpace]

lemma Token.trim_eq (ht : Token t) : trim t = t := by
  have h := ht.trim_pad blanks_nil blanks_nil
  rwa [List.nil_append, List.append_nil] at h

lemma Token.dequote_eq (ht : Token t) : dequote t = t := by
  rw [dequote, ht.trim_eq]
  refine if_neg fun h => ?_
  rcases h.2 with ⟨hq, -⟩ | ⟨hq, -⟩
  · exact (ht.2 _ (List.mem_of_head? hq)).2 (by simp)
  · exact (ht.2 _ (List.mem_of_head? hq)).2 (by simp)

lemma Token.not_mem (ht : Token t) {c : Char}
    (hc : c ∈ ['"', '\'', ',', ':', '#', '\x7b', '\x7d', '[', ']']) : c ∉ t :=
  fun hmem => (ht.2 c hmem).2 hc

/-! ### Colons -/

lemma find_append {c : Char} (hs : c ∉ s) : find c (s ++ c :: t) = some s.length := by
  have hnone : s.findIdx? (· == c) = none :=
    List.findIdx?_eq_none_iff.mpr fun d hd => beq_eq_false_iff_ne.mpr fun h => hs (h ▸ hd)
  rw [find, List.findIdx?_append, hnone, List.findIdx?_cons]
  simp

lemma cutColon_append (hs : ':' ∉ s) : cutColon (s ++ ':' :: t) = some (s, t) := by
  rw [cutColon, find_append hs, Option.map_some, List.take_left', List.drop_append]
  · simp
  · rfl

lemma blanks_not_mem (hu : Blanks u) {c : Char} (hc : isSpace c = false) : c ∉ u := by
  intro hmem
  rw [hu c hmem] at hc
  exact Bool.noConfusion hc

lemma entry_eq {k w : Line} (hk : Token k) (hw : Token w) (hu : Blanks u) (hv : Blanks v) :
    entry (u ++ (k ++ ':' :: ' ' :: (w ++ v))) = some (String.ofList k, String.ofList w) := by
  have hcolon : ':' ∉ u ++ k := by
    rw [List.mem_append, not_or]
    exact ⟨blanks_not_mem hu rfl, hk.not_mem (by simp)⟩
  have hcut : cutColon (u ++ (k ++ ':' :: ' ' :: (w ++ v))) =
      some (u ++ (k ++ []), [' '] ++ (w ++ v)) := by
    rw [List.append_nil, ← List.append_assoc]
    exact cutColon_append hcolon
  rw [entry, hcut, Option.map_some, hk.trim_pad hu blanks_nil, hw.trim_pad blanks_space hv,
    hw.dequote_eq]

/-! ### Commas -/

/-- The pieces of a text in which items stand between `u` and `v`, a comma and a blank between
each two. -/
def pieces (u v : Line) : List Line → List Line
  | [] => []
  | [x] => [u ++ (x ++ v)]
  | x :: y :: xs => (u ++ (x ++ [])) :: pieces [' '] v (y :: xs)

lemma splitOn_items {items : List Line} (hne : items ≠ []) (hitems : ∀ x ∈ items, ',' ∉ x)
    (hu : ',' ∉ u) (hv : ',' ∉ v) :
    (u ++ ([',', ' '].intercalate items ++ v)).splitOn ',' = pieces u v items := by
  induction items generalizing u with
  | nil => exact absurd rfl hne
  | cons x items ih =>
    have hx := hitems x (by simp)
    cases items with
    | nil =>
      rw [List.intercalate_singleton]
      exact List.splitOn_eq_singleton (by simp [hu, hx, hv])
    | cons y items =>
      have htext : u ++ ([',', ' '].intercalate (x :: y :: items) ++ v) =
          (u ++ x) ++ ',' :: ([' '] ++ ([',', ' '].intercalate (y :: items) ++ v)) := by
        rw [List.intercalate_cons_cons]
        simp
      rw [htext, List.splitOn_append_cons_self_of_not_mem (by simp [hu, hx]),
        ih (by simp) (fun z hz => hitems z (by simp [hz])) (by simp), pieces, List.append_nil]

/-- What is done to each piece is done to the items, if it does not see the blanks. -/
lemma pieces_map {B : Type} {f : Line → B} {g : Line → B} {items : List Line}
    (h : ∀ x ∈ items, ∀ u v, Blanks u → Blanks v → f (u ++ (x ++ v)) = g x) (hu : Blanks u)
    (hv : Blanks v) : (pieces u v items).map f = items.map g := by
  induction items generalizing u with
  | nil => rfl
  | cons x items ih =>
    have hx := h x (by simp)
    cases items with
    | nil => simp [pieces, hx u v hu hv]
    | cons y items =>
      rw [pieces, List.map_cons, List.map_cons, hx u [] hu blanks_nil,
        ih (fun z hz => h z (by simp [hz])) blanks_space]

lemma pieces_getLast {items : List Line} (hne : items ≠ []) (hu : Blanks u) :
    ∃ x ∈ items, ∃ w, Blanks w ∧ (pieces u v items).getLast? = some (w ++ (x ++ v)) := by
  induction items generalizing u with
  | nil => exact absurd rfl hne
  | cons x items ih =>
    cases items with
    | nil => exact ⟨x, by simp, u, hu, rfl⟩
    | cons y items =>
      obtain ⟨z, hz, w, hw, hlast⟩ := ih (u := [' ']) (by simp) blanks_space
      refine ⟨z, by simp [hz], w, hw, ?_⟩
      rw [pieces, List.getLast?_cons, hlast]
      rfl

lemma rfind_append {c : Char} (s : Line) : rfind c (s ++ [c]) = some s.length := by
  rw [rfind, List.reverse_append, List.reverse_singleton, List.singleton_append,
    List.findIdx?_cons, if_pos (by simp)]
  simp

/-- A map in flow form. -/
def flowText (kvs : List (Line × Line)) : Line :=
  '\x7b' :: ' ' :: ([',', ' '].intercalate (kvs.map fun p => p.1 ++ ':' :: ' ' :: p.2) ++
    [' ', '\x7d'])

lemma parseFlowMap_flowText {kvs : List (Line × Line)} (hne : kvs ≠ [])
    (hkvs : ∀ p ∈ kvs, Token p.1 ∧ Token p.2) : parseFlowMap (flowText kvs) =
      .ok (setAll [] (kvs.map fun p => (String.ofList p.1, String.ofList p.2))) := by
  obtain ⟨items, hitems⟩ : ∃ items, items = kvs.map fun p => p.1 ++ ':' :: ' ' :: p.2 :=
    ⟨_, rfl⟩
  obtain ⟨inner, hinner⟩ : ∃ inner, inner = [' '] ++ ([',', ' '].intercalate items ++ [' ']) :=
    ⟨_, rfl⟩
  have hflow : flowText kvs = '\x7b' :: inner ++ ['\x7d'] := by
    rw [hinner, hitems, flowText]
    simp
  have hlb : find '\x7b' (flowText kvs) = some 0 := by
    rw [hflow]
    exact find_append (s := []) (by simp)
  have hrb : rfind '\x7d' (flowText kvs) = some (inner.length + 1) := by
    rw [hflow]
    exact rfind_append _
  have hbetween : ((flowText kvs).take (inner.length + 1)).drop (0 + 1) = inner := by
    rw [hflow]
    simp
  have hine : items ≠ [] := by
    rw [hitems]
    exact fun h => hne (List.map_eq_nil_iff.mp h)
  have hcomma : ∀ x ∈ items, ',' ∉ x := by
    intro x hx
    rw [hitems] at hx
    obtain ⟨p, hp, rfl⟩ := List.mem_map.mp hx
    have h1 := (hkvs p hp).1.not_mem (c := ',') (by simp)
    have h2 := (hkvs p hp).2.not_mem (c := ',') (by simp)
    simp [h1, h2]
  have hsplit : inner.splitOn ',' = pieces [' '] [' '] items := by
    rw [hinner]
    exact splitOn_items hine hcomma (by simp) (by simp)
  have hlast : (pieces [' '] [' '] items).getLast? ≠ some [] := by
    obtain ⟨x, -, w, -, hx⟩ := pieces_getLast (v := [' ']) hine blanks_space
    rw [hx]
    simp
  have hentries : (pieces [' '] [' '] items).filterMap entry =
      kvs.map fun p => (String.ofList p.1, String.ofList p.2) := by
    have hitem : ∀ x ∈ items, ∀ u v, Blanks u → Blanks v →
        entry (u ++ (x ++ v)) = entry ([] ++ (x ++ [])) := by
      intro x hx u v hu hv
      rw [hitems] at hx
      obtain ⟨p, hp, rfl⟩ := List.mem_map.mp hx
      obtain ⟨hk, hw⟩ := hkvs p hp
      simp only [List.append_assoc, List.cons_append]
      rw [entry_eq hk hw hu hv, entry_eq hk hw blanks_nil blanks_nil]
    have hmap := pieces_map hitem blanks_space blanks_space
    calc (pieces [' '] [' '] items).filterMap entry
        = ((pieces [' '] [' '] items).map entry).filterMap id := by
          rw [List.filterMap_map]
          rfl
      _ = (items.map fun x => entry ([] ++ (x ++ []))).filterMap id := by rw [hmap]
      _ = kvs.map fun p => (String.ofList p.1, String.ofList p.2) := by
          rw [hitems, List.map_map, List.filterMap_map, ← List.filterMap_eq_map]
          refine List.filterMap_congr fun p hp => ?_
          obtain ⟨hk, hw⟩ := hkvs p hp
          simp only [Function.comp, id, List.append_assoc, List.cons_append]
          exact entry_eq hk hw blanks_nil blanks_nil
  unfold parseFlowMap
  rw [hlb, hrb]
  dsimp only
  rw [if_neg (by omega), hbetween, hsplit, if_neg hlast, hentries]

/-- A sequence in flow form. -/
def seqText (ts : List Line) : Line := '[' :: ([',', ' '].intercalate ts ++ [']'])

lemma parseFlowSeq_seqText {ts : List Line} (hne : ts ≠ []) (hts : ∀ t ∈ ts, Token t)
    (hu : '[' ∉ u) : parseFlowSeq (u ++ seqText ts) = ts.map String.ofList := by
  obtain ⟨inner, hinner⟩ : ∃ inner, inner = [] ++ ([',', ' '].intercalate ts ++ []) := ⟨_, rfl⟩
  have hseq : u ++ seqText ts = u ++ '[' :: (inner ++ [']']) := by
    rw [hinner, seqText]
    simp
  have hlb : find '[' (u ++ seqText ts) = some u.length := by
    rw [hseq]
    exact find_append hu
  have hrb : rfind ']' (u ++ seqText ts) = some (u.length + 1 + inner.length) := by
    have hend : u ++ '[' :: (inner ++ [']']) = (u ++ '[' :: inner) ++ [']'] := by simp
    rw [hseq, hend, rfind_append, List.length_append, List.length_cons]
    congr 1
    omega
  have hbetween : ((u ++ seqText ts).take (u.length + 1 + inner.length)).drop (u.length + 1) =
      inner := by
    have htext : u ++ seqText ts = ((u ++ ['[']) ++ inner) ++ [']'] := by
      rw [hseq]
      simp
    rw [htext, List.take_left' (by simp; omega), List.drop_left' (by simp)]
  have hsplit : inner.splitOn ',' = pieces [] [] ts := by
    rw [hinner]
    exact splitOn_items hne (fun t ht => (hts t ht).not_mem (by simp)) (by simp) (by simp)
  have hlast : ((pieces [] [] ts).getLast?.map trim) ≠ some [] := by
    obtain ⟨t, ht, w, hw, hx⟩ := pieces_getLast (v := []) hne blanks_nil
    rw [hx, Option.map_some, (hts t ht).trim_pad hw blanks_nil]
    exact fun h => (hts t ht).1 (Option.some.inj h)
  have hitem : ∀ t ∈ ts, ∀ u v, Blanks u → Blanks v →
      String.ofList (dequote (trim (u ++ (t ++ v)))) = String.ofList t := by
    intro t ht u v hu hv
    rw [(hts t ht).trim_pad hu hv, (hts t ht).dequote_eq]
  unfold parseFlowSeq
  rw [hlb, hrb]
  dsimp only
  have hlt : u.length < u.length + 1 + inner.length := by omega
  rw [if_pos hlt, hbetween, hsplit, if_neg hlast]
  exact pieces_map hitem blanks_nil blanks_nil

lemma flowText_eq (kvs : List (Line × Line)) : flowText kvs = ['\x7b', ' '] ++
    ([',', ' '].intercalate (kvs.map fun p => p.1 ++ ':' :: ' ' :: p.2) ++ [' ']) ++
      ['\x7d'] := by
  simp [flowText]

lemma trim_flowText (hu : Blanks u) (kvs : List (Line × Line)) :
    trim (u ++ flowText kvs) = flowText kvs := by
  have hlast : ∀ c ∈ (flowText kvs).getLast?, isSpace c = false := by
    intro c hc
    rw [flowText_eq, List.getLast?_concat] at hc
    obtain rfl := Option.some.inj hc
    rfl
  have hhead : ∀ c ∈ (flowText kvs).head?, isSpace c = false := by
    intro c hc
    obtain rfl := Option.some.inj hc
    rfl
  have h := trim_pad hu blanks_nil hhead hlast (List.cons_ne_nil _ _)
  rwa [List.append_nil] at h

/-! ### Whole lines -/

/-- No comment and no end of a line. -/
def Clear (s : Line) : Prop := '#' ∉ s ∧ '\n' ∉ s

lemma clear_append (hs : Clear s) (ht : Clear t) : Clear (s ++ t) := by
  refine ⟨fun h => ?_, fun h => ?_⟩
  · rcases List.mem_append.mp h with h | h
    · exact hs.1 h
    · exact ht.1 h
  · rcases List.mem_append.mp h with h | h
    · exact hs.2 h
    · exact ht.2 h

lemma clear_cons {c : Char} (hc : c ≠ '#' ∧ c ≠ '\n') (hs : Clear s) : Clear (c :: s) :=
  ⟨List.not_mem_cons_of_ne_of_not_mem hc.1.symm hs.1,
    List.not_mem_cons_of_ne_of_not_mem hc.2.symm hs.2⟩

lemma Token.clear (ht : Token t) : Clear t := by
  refine ⟨ht.not_mem (by simp), fun h => ?_⟩
  exact Bool.noConfusion (ht.2 '\n' h).1

lemma clear_intercalate {sep : Line} {xs : List Line} (hsep : Clear sep)
    (hxs : ∀ x ∈ xs, Clear x) : Clear (sep.intercalate xs) := by
  induction xs with
  | nil => exact ⟨List.not_mem_nil, List.not_mem_nil⟩
  | cons x xs ih =>
    have hx := hxs x (by simp)
    cases xs with
    | nil =>
      rw [List.intercalate_singleton]
      exact hx
    | cons y xs =>
      rw [List.intercalate_cons_cons]
      exact clear_append (clear_append hx hsep) (ih fun z hz => hxs z (by simp [hz]))

lemma clear_flowText {kvs : List (Line × Line)} (hkvs : ∀ p ∈ kvs, Token p.1 ∧ Token p.2) :
    Clear (flowText kvs) := by
  have hblank : Clear [' ', '\x7d'] := by simp [Clear]
  refine clear_cons (by decide) (clear_cons (by decide) (clear_append ?_ hblank))
  refine clear_intercalate (by simp [Clear]) fun x hx => ?_
  obtain ⟨p, hp, rfl⟩ := List.mem_map.mp hx
  obtain ⟨hk, hv⟩ := hkvs p hp
  exact clear_append hk.clear (clear_cons (by decide) (clear_cons (by decide) hv.clear))

lemma sides_eq {k body : Line} (hk : Token k) (hu : Blanks u) :
    sides (u ++ (k ++ ':' :: body)) = (k, trim body) := by
  have hcolon : ':' ∉ u ++ k := by
    rw [List.mem_append, not_or]
    exact ⟨blanks_not_mem hu rfl, hk.not_mem (by simp)⟩
  have hcut : cutColon (u ++ (k ++ ':' :: body)) = some (u ++ (k ++ []), body) := by
    rw [List.append_nil, ← List.append_assoc]
    exact cutColon_append hcolon
  rw [sides, hcut]
  dsimp only
  rw [hk.trim_pad hu blanks_nil]

lemma clean_eq (hs : Clear s)
    (hlast : ∀ c ∈ s.getLast?, (c == '\r' || c == '\n' || c == ' ') = false) : clean s = s := by
  have hcomment : stripComment s = s :=
    List.takeWhile_eq_self_iff.mpr fun c hc => by
      simp only [bne_iff_ne, ne_eq]
      exact fun h => hs.1 (h ▸ hc)
  have hend := rdropWhile_append (p := fun c => c == '\r' || c == '\n' || c == ' ')
    (List.forall_mem_nil _) hlast
  rw [List.append_nil] at hend
  rw [clean, hcomment]
  exact hend

lemma clean_token (hs : Clear s) (ht : Token t) : clean (s ++ t) = s ++ t := by
  refine clean_eq (clear_append hs ht.clear) fun c hc => ?_
  rw [List.getLast?_append_of_ne_nil _ ht.1] at hc
  have hspace := (ht.2 c (List.mem_of_getLast? hc)).1
  simp only [isSpace, Bool.or_eq_false_iff] at hspace ⊢
  simp only [hspace, and_self]

lemma clean_comment (s : Line) : clean ('#' :: s) = [] := rfl

lemma leadingSpaces_eq {n : ℕ} {c : Char} (hc : c ≠ ' ') (s : Line) :
    leadingSpaces (List.replicate n ' ' ++ c :: s) = n := by
  have hall : ∀ d ∈ List.replicate n ' ', (d == ' ') = true := by
    intro d hd
    rw [List.eq_of_mem_replicate hd]
    rfl
  rw [leadingSpaces, List.takeWhile_append_of_pos hall,
    List.takeWhile_cons_of_neg (by simpa using hc)]
  simp

lemma Token.leadingSpaces_eq (ht : Token t) (n : ℕ) (s : Line) :
    leadingSpaces (List.replicate n ' ' ++ (t ++ s)) = n := by
  obtain ⟨c, r, rfl⟩ := List.exists_cons_of_ne_nil ht.1
  have hc : c ≠ ' ' := by
    rintro rfl
    exact Bool.noConfusion (ht.2 ' ' (by simp)).1
  rw [List.cons_append]
  exact OverlayYaml.leadingSpaces_eq hc (r ++ s)

lemma blank_false {c : Char} (hc : c ∈ s) (hspace : isSpace c = false) : blank s = false := by
  rw [blank, List.isEmpty_eq_false_iff]
  intro hempty
  rw [trim, List.rdropWhile_eq_nil_iff] at hempty
  by_cases hd : c ∈ s.dropWhile isSpace
  · rw [hempty c hd] at hspace
    exact Bool.noConfusion hspace
  · have hsplit := List.takeWhile_append_dropWhile (p := isSpace) (l := s)
    rw [← hsplit, List.mem_append] at hc
    have htake := List.mem_takeWhile_imp (hc.resolve_right hd)
    rw [htake] at hspace
    exact Bool.noConfusion hspace

lemma blank_of_blanks (hu : Blanks u) : blank u = true := by
  rw [blank, trim_blanks hu]
  rfl

/-- What stands in front of a comment, and ends with no blank, is there as it stands. -/
lemma clean_append (hs : '#' ∉ s) (hlast : ∃ s' c, s = s' ++ [c] ∧
    (c == '\r' || c == '\n' || c == ' ') = false) (t : Line) : ∃ w, clean (s ++ t) = s ++ w := by
  obtain ⟨s', c, rfl, hc⟩ := hlast
  have hcomment : stripComment (s' ++ [c] ++ t) = s' ++ [c] ++ stripComment t :=
    List.takeWhile_append_of_pos fun d hd => by
      simp only [bne_iff_ne, ne_eq]
      exact fun h => hs (h ▸ hd)
  refine ⟨rtrim (stripComment t), ?_⟩
  rw [clean, hcomment]
  unfold rtrim
  rw [List.rdropWhile, List.reverse_append, List.dropWhile_append]
  split
  · rename_i hempty
    have hnil : (stripComment t).rdropWhile (fun c => c == '\r' || c == '\n' || c == ' ') = [] := by
      rw [List.rdropWhile, List.isEmpty_iff.mp hempty]
      rfl
    rw [hnil, List.reverse_append, List.reverse_singleton, List.singleton_append,
      List.dropWhile_cons_of_neg (by simp [hc]), List.append_nil]
    simp
  · rw [List.reverse_append, List.reverse_reverse]
    rfl

/-! ### Keys -/

variable {atof : Line → ℚ} {key : Line} {ls body rest : List Line} {out : Overlay}

lemma child_key (hkey : Token key) (s : Line) : child 2 (key ++ ':' :: s) = false := by
  have hlead : leadingSpaces (key ++ ':' :: s) = 0 := hkey.leadingSpaces_eq 0 (':' :: s)
  rw [child, hlead, blank_false (c := ':') (by simp) rfl]
  rfl

lemma children_eq (hbody : ∀ l ∈ body, child 2 l = true)
    (hrest : ∀ l ∈ rest.head?, child 2 l = false) :
    children (body ++ rest) = body.filter (!blank ·) := by
  rw [children, takeWhile_append hbody hrest]

lemma parseLines_blank {l : Line} (hl : blank l = true) :
    parseLines atof (l :: ls) out = parseLines atof ls out := by
  rw [parseLines, if_pos (by rw [hl, Bool.true_or])]

lemma parseLines_key (hkey : Token key) (s : Line) {out' : Overlay}
    (happly : applyKey atof key (trim s) ls out = .ok out') :
    parseLines atof ((key ++ ':' :: s) :: ls) out =
      if key = "data_owners".toList then parseLines atof ls out'
      else parseLines atof (ls.dropWhile (child 2)) out' := by
  have hlead : leadingSpaces (key ++ ':' :: s) = 0 := hkey.leadingSpaces_eq 0 (':' :: s)
  have hblank : blank (key ++ ':' :: s) = false := blank_false (c := ':') (by simp) rfl
  have hcut : cutColon (key ++ ':' :: s) = some (key, s) :=
    cutColon_append (hkey.not_mem (by simp))
  rw [parseLines, if_neg (by rw [hblank, hlead]; exact Bool.false_ne_true), hcut]
  dsimp only
  rw [hkey.trim_eq, happly]

lemma parseLines_section (hkey : Token key) (howners : key ≠ "data_owners".toList)
    (hbody : ∀ l ∈ body, child 2 l = true) (hrest : ∀ l ∈ rest.head?, child 2 l = false)
    {out' : Overlay} (happly : applyKey atof key [] (body ++ rest) out = .ok out') :
    parseLines atof ((key ++ [':']) :: (body ++ rest)) out = parseLines atof rest out' := by
  rw [parseLines_key hkey [] happly, if_neg howners, dropWhile_append hbody hrest]

end Mini2.OverlayYaml
