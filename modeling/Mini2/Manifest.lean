import Mini2.Json
import Mini2.Routing
import Mini2.Lib.Machine

/-!
The loader of the clustering metadata: of a field it takes what has the kind it expects, and
leaves out the rest.
-/

namespace Mini2.Manifest

open Mini2.Json Mini2.Routing Mini2.Trunc Mini2.Machine

/-- A cast of a double to `int`. Where the result does not fit the language leaves it open; it is
taken to be what the processor gives. -/
def castInt (x : ℚ) : ℤ := (castChecked 32 x).getD (-2 ^ 31)

lemma fits_castInt (x : ℚ) : Fits 32 (castInt x) := by
  unfold castInt castChecked
  by_cases h : Fits 32 (trunc x)
  · rw [checked_of_fits h]
    exact h
  · rw [checked_of_not_fits h]
    decide

variable (m : List (String × Value)) (key : String)

def strField : Option String :=
  match m.lookup key with
  | some (.str s) => some s
  | _ => none

/-- The field as an `int`, if it is a number. -/
def intField : Option ℤ :=
  match m.lookup key with
  | some (.num n) => some (castInt n)
  | _ => none

def objField : List (String × Value) :=
  match m.lookup key with
  | some (.obj t) => t
  | _ => []

/-- The range of an owner: an array of two numbers. -/
def rangeOf (v : Value) : Option (ℚ × ℚ) :=
  match v with
  | .arr [.num lo, .num hi] => some (lo, hi)
  | _ => none

def intsOf (v : Value) : Option (List ℤ) :=
  match v with
  | .arr vs =>
    some ((vs.filterMap fun
      | .num n => some (castInt n)
      | _ => none).mergeSort)
  | _ => none

/-- The entries of a table that can be read. -/
def tableOf {A : Type} (read : Value → Option A) (t : List (String × Value)) :
    List (String × A) :=
  t.filterMap fun f => (read f.2).map (f.1, ·)

def strsField : List String :=
  match m.lookup key with
  | some (.arr vs) => vs.filterMap fun
    | .str s => some s
    | _ => none
  | _ => []

def metadataOf (root : Value) : OwnerMetadata String :=
  match root with
  | .obj m =>
    { scheme := (strField m "scheme").getD ""
      distRange := tableOf rangeOf (objField m "owner_dist_range")
      zones := tableOf intsOf (objField m "owner_zones")
      months := tableOf intsOf (objField m "owner_months")
      hashBucketMultiplier := (intField m "hash_bucket_multiplier").getD 100
      vnodesPerOwner := (intField m "vnodes_per_owner").getD 0
      totalVnodes := (intField m "total_vnodes").getD 0
      hashColumn := (strField m "hash_column").getD ""
      ownersOrder := strsField m "owners" }
  | _ => { scheme := "" }

/-- `load_owner_metadata`, of the text of the file, if there is one. -/
def loadOwnerMetadata (stod : List Char → ℚ) (file : Option (List Char)) :
    OwnerMetadata String :=
  match file.bind (parseRoot stod) with
  | some root => metadataOf root
  | none => { scheme := "" }

structure Ints {N : Type} (md : OwnerMetadata N) : Prop where
  vnodesPerOwner : Fits 32 md.vnodesPerOwner
  totalVnodes : Fits 32 md.totalVnodes

lemma fits_intField {d : ℤ} (hd : Fits 32 d) : Fits 32 ((intField m key).getD d) := by
  unfold intField
  split
  · exact fits_castInt _
  · exact hd

lemma ints_metadataOf (root : Value) : Ints (metadataOf root) := by
  have hzero : Fits 32 0 := by decide
  unfold metadataOf
  split
  · exact ⟨fits_intField _ _ hzero, fits_intField _ _ hzero⟩
  · exact ⟨hzero, hzero⟩

lemma ints_load (stod : List Char → ℚ) (file : Option (List Char)) :
    Ints (loadOwnerMetadata stod file) := by
  have hzero : Fits 32 0 := by decide
  unfold loadOwnerMetadata
  split
  · exact ints_metadataOf _
  · exact ⟨hzero, hzero⟩

end Mini2.Manifest
