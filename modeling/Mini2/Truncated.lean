import Mini2.JsonCut
import Mini2.Manifest
import Mini2.RoutingCovers

/-!
Routing by a manifest that has been cut short. What is still shown of the document decides: no
owner is hidden exactly when the entries that the scheme looks at are no narrower than those of
the whole document.
-/

namespace Mini2.Truncated

open Mini2.SortedMap Mini2.Json Mini2.Manifest Mini2.Routing Mini2.RoutingCovers Mini2.Trunc

/-! ### What a document says -/

def field (v : Value) (key : String) : Option Value :=
  match v with
  | .obj m => m.lookup key
  | _ => none

def text (v : Value) (key : String) : String :=
  match field v key with
  | some (.str s) => s
  | _ => ""

def count (v : Value) (key : String) (d : ℤ) : ℤ :=
  match field v key with
  | some (.num n) => castInt n
  | _ => d

def names (v : Value) (key : String) : List String :=
  match field v key with
  | some (.arr vs) => vs.filterMap fun
    | .str s => some s
    | _ => none
  | _ => []

def entry {A : Type} (read : Value → Option A) (v : Value) (table o : String) : Option A :=
  ((field v table).bind fun t => field t o).bind read

def stripesOf (v : Value) : Stripes String :=
  { column := text v "hash_column"
    multiplier := count v "hash_bucket_multiplier" 100
    perOwner := count v "vnodes_per_owner" 0
    total := count v "total_vnodes" 0
    owners := names v "owners" }

/-- What the scheme of the second document looks at is no narrower there than in the first. -/
structure Keeps (v v' : Value) : Prop where
  /-- The ranges contain those of the first. -/
  trips : text v' "scheme" = "trip_distance" →
    ∀ o e', entry rangeOf v' "owner_dist_range" o = some e' →
      text v "scheme" = "trip_distance" ∧
        ∃ e, entry rangeOf v "owner_dist_range" o = some e ∧ e'.1 ≤ e.1 ∧ e.2 ≤ e'.2
  /-- No zone is missing. -/
  zones : text v' "scheme" = "pu_location_id" →
    ∀ o zs', entry intsOf v' "owner_zones" o = some zs' →
      text v "scheme" = "pu_location_id" ∧
        ∃ zs, entry intsOf v "owner_zones" o = some zs ∧ ∀ z ∈ zs, z ∈ zs'
  /-- No month is missing; an owner of which the first says nothing has all of them. -/
  months : text v' "scheme" = "pickup_datetime" →
    ∀ o ms', entry intsOf v' "owner_months" o = some ms' → ∀ m : ℤ, 1 ≤ m → m ≤ 12 →
      (text v "scheme" = "pickup_datetime" →
        ∀ ms, entry intsOf v "owner_months" o = some ms → m ∈ ms) → m ∈ ms'
  /-- Every window that is routed by stripes is routed to the same owners. -/
  hash : text v' "scheme" = "consistent_hash" → (stripesOf v').Enabled →
    ∀ x y, (stripesOf v').Narrow x y → (∃ o, (stripesOf v').Hit x y o) →
      text v "scheme" = "consistent_hash" ∧ (stripesOf v).Agrees (stripesOf v') x y

/-! ### The metadata of a document -/

variable {v v' : Value}

lemma scheme_metadataOf (v : Value) : (metadataOf v).scheme = text v "scheme" := by
  cases v with
  | obj m =>
    unfold metadataOf text field strField
    dsimp only
    split <;> simp_all
  | _ => rfl

lemma stripes_metadataOf (v : Value) : stripes (metadataOf v) = stripesOf v := by
  cases v with
  | obj m =>
    have htext : ∀ key, (strField m key).getD "" = text (.obj m) key := by
      intro key
      unfold strField text field
      dsimp only
      split <;> simp_all
    have hcount : ∀ key d, (intField m key).getD d = count (.obj m) key d := by
      intro key d
      unfold intField count field
      dsimp only
      split <;> simp_all
    have hnames : ∀ key, strsField m key = names (.obj m) key := fun key => rfl
    simp only [stripes, metadataOf, stripesOf, htext, hcount, hnames]
  | _ => rfl

lemma lookup_tableOf {A : Type} (read : Value → Option A) {t : List (String × Value)}
    (ht : Sorted t) (o : String) : (tableOf read t).lookup o = (t.lookup o).bind read := by
  induction t with
  | nil => rfl
  | cons f t ih =>
    obtain ⟨hnot, -⟩ := List.nodup_cons.mp ht.nodup
    have htail := ih (List.pairwise_cons.mp ht).2
    unfold tableOf at htail ⊢
    rw [lookup_cons]
    cases hread : read f.2 with
    | none =>
      rw [List.filterMap_cons_none (by simp [hread]), htail]
      by_cases h : o = f.1
      · have hnone : t.lookup o = none := lookup_none (h ▸ hnot)
        rw [if_pos h, hnone, Option.bind_some, hread]
        rfl
      · rw [if_neg h]
    | some a =>
      rw [List.filterMap_cons_some (b := (f.1, a)) (by simp [hread]), lookup_cons, htail]
      by_cases h : o = f.1
      · rw [if_pos h, if_pos h, Option.bind_some, hread]
      · rw [if_neg h, if_neg h]

lemma sorted_objField {m : List (String × Value)} (h : Ordered (.obj m)) (key : String) :
    Sorted (objField m key) := by
  unfold objField
  split
  · rename_i t ht
    cases h with
    | obj hm hfields =>
      obtain ⟨a, b, hsplit, -⟩ := List.lookup_eq_some_iff.mp ht
      have htable := hfields (key, .obj t) (by simp [hsplit])
      cases htable with
      | obj ht' _ => exact ht'
  · exact List.Pairwise.nil

lemma lookup_objField {A : Type} (read : Value → Option A) {m : List (String × Value)}
    (h : Ordered (.obj m)) (table o : String) :
    (tableOf read (objField m table)).lookup o = entry read (.obj m) table o := by
  rw [lookup_tableOf read (sorted_objField h table)]
  unfold objField entry field
  dsimp only
  cases m.lookup table with
  | none => rfl
  | some t => cases t <;> rfl

lemma distRange_metadataOf (hv : Ordered v) (o : String) :
    (metadataOf v).distRange.lookup o = entry rangeOf v "owner_dist_range" o := by
  cases v with
  | obj m => exact lookup_objField rangeOf hv _ o
  | _ => rfl

lemma zones_metadataOf (hv : Ordered v) (o : String) :
    (metadataOf v).zones.lookup o = entry intsOf v "owner_zones" o := by
  cases v with
  | obj m => exact lookup_objField intsOf hv _ o
  | _ => rfl

lemma months_metadataOf (hv : Ordered v) (o : String) :
    (metadataOf v).months.lookup o = entry intsOf v "owner_months" o := by
  cases v with
  | obj m => exact lookup_objField intsOf hv _ o
  | _ => rfl

/-! ### Two documents -/

/-- **No owner is hidden exactly when nothing has become narrower.** -/
lemma covers_iff_keeps (hv : Ordered v) (hv' : Ordered v') :
    Covers (metadataOf v') (metadataOf v) ↔ Keeps v v' := by
  have htrips := @covers_trips String _ (metadataOf v) (metadataOf v')
  have hzones := @covers_zones String _ (metadataOf v) (metadataOf v')
  have hmonths := @covers_months String _ (metadataOf v) (metadataOf v')
  have hhash := @covers_hash String _ (metadataOf v) (metadataOf v') _
  simp only [distRange_metadataOf, zones_metadataOf, months_metadataOf, scheme_metadataOf,
    stripes_metadataOf, hv, hv'] at htrips hzones hmonths hhash
  constructor
  · exact fun h => ⟨fun hs => (htrips hs).mp h, fun hs => (hzones hs).mp h,
      fun hs => (hmonths hs).mp h, fun hs => (hhash hs).mp h⟩
  · intro h
    by_cases h1 : text v' "scheme" = "trip_distance"
    · exact (htrips h1).mpr (h.trips h1)
    by_cases h2 : text v' "scheme" = "pu_location_id"
    · exact (hzones h2).mpr (h.zones h2)
    by_cases h3 : text v' "scheme" = "pickup_datetime"
    · exact (hmonths h3).mpr (h.months h3)
    by_cases h4 : text v' "scheme" = "consistent_hash"
    · exact (hhash h4).mpr (h.hash h4)
    -- without a scheme that routes every owner is kept
    intro allOwners query o ho
    rw [← scheme_metadataOf] at h1 h2 h3 h4
    rw [eligibleOwners_of_other h1 h2 h4 h3]
    exact eligibleOwners_sublist.subset ho

/-! ### A manifest and its prefixes -/

/-- A manifest with one zone, up to the scheme and up to the zones. -/
def oneZoneScheme : List Char := '\x7b' :: (quote "scheme" ++ ':' :: quote "pu_location_id")

def oneZoneTable : List Char :=
  oneZoneScheme ++ ',' :: (quote "owner_zones" ++ ':' :: '\x7b' :: (quote "A" ++ [':', '[']))

def oneZone : List Char := oneZoneTable ++ ['7', ']', '\x7d', '\x7d']

/-- The whole document, and what is shown of it up to the zones. -/
def oneZoneValue (zs : List Value) : Value :=
  .obj [("owner_zones", .obj [("A", .arr zs)]), ("scheme", .str "pu_location_id")]

lemma oneZone_sorted (zs : List Value) :
    Sorted [("owner_zones", Value.obj [("A", .arr zs)]), ("scheme", .str "pu_location_id")] := by
  refine List.pairwise_cons.mpr ⟨fun f hf => ?_, List.pairwise_singleton _ _⟩
  obtain rfl := List.mem_singleton.mp hf
  exact (by decide : "owner_zones" < "scheme")

lemma number_seven : number ['7'] = some 7 := by
  have hparts : number ['7'] = some ((((7 : ℕ) : ℚ) + 0) * 10 ^ (0 : ℤ)) := rfl
  rw [hparts]
  norm_num

lemma text_scheme : Text number (.value (.str "pu_location_id")) (quote "pu_location_id") :=
  .str (quoted_quote (by simp))

lemma oneZone_text : Text number (.value (oneZoneValue [.num 7])) oneZone := by
  have hzones : Text number (.fields [("A", .arr [.num 7])])
      (quote "A" ++ [':', '[', '7', ']', '\x7d']) :=
    .field space_nil (quoted_quote (by simp)) space_nil space_nil
      (.arr (.item space_nil (.num number_seven) space_nil)) space_nil
  have htable : Text number (.value (.obj [("A", .arr [.num 7])]))
      ('\x7b' :: (quote "A" ++ [':', '[', '7', ']', '\x7d'])) :=
    .obj hzones (.refl _) (List.pairwise_singleton _ _)
  exact .obj (.fields space_nil (quoted_quote (by simp)) space_nil space_nil text_scheme space_nil
    (.field space_nil (quoted_quote (by simp)) space_nil space_nil htable space_nil))
    (List.Perm.swap _ _ _) (oneZone_sorted _)

lemma oneZone_cut (stod : List Char → ℚ) : Cut number stod (.value (oneZoneValue [.num 7]))
    oneZoneTable (.value (oneZoneValue [.null])) := by
  have hitems : Cut number stod (.items [.num 7]) [] (.items [.null]) := .item (.blank space_nil)
  have hzones : Cut number stod (.fields [("A", .arr [.num 7])]) (quote "A" ++ [':', '['])
      (.fields [("A", .arr [.null])]) :=
    .field space_nil (quoted_quote (by simp)) space_nil (.arr space_nil hitems)
  have htable : Cut number stod (.value (.obj [("A", .arr [.num 7])]))
      ('\x7b' :: (quote "A" ++ [':', '['])) (.value (.obj [("A", .arr [.null])])) :=
    .obj space_nil hzones (.refl _) (List.pairwise_singleton _ _) (.refl _)
      (List.pairwise_singleton _ _)
  exact .obj space_nil (.fields space_nil (quoted_quote (by simp)) space_nil space_nil text_scheme
    space_nil (.field space_nil (quoted_quote (by simp)) space_nil htable))
    (List.Perm.swap _ _ _) (oneZone_sorted _) (List.Perm.swap _ _ _) (oneZone_sorted _)

end Mini2.Truncated
