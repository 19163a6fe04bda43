import Mini2.Lib.Calendar
import Mini2.Lib.Machine
import Mini2.Lib.Scanf

/-!
The dates of the client: what it prints of a row's times, and what it reads from its command line.
Both are in seconds, in UTC.
-/

namespace Mini2.Dates

open Mini2.Calendar Mini2.Machine Mini2.Scanf

/-- `struct tm`: years from 1900 on, and months from zero. -/
structure Tm where
  year : ℤ
  mon : ℤ
  mday : ℤ
  hour : ℤ
  min : ℤ
  sec : ℤ
  deriving DecidableEq

def gmtime (t : ℤ) : Tm where
  year := yearOf (t / 86400) - 1900
  mon := monthOf (t / 86400) - 1
  mday := dayOf (t / 86400)
  hour := t % 86400 / 3600
  min := t % 3600 / 60
  sec := t % 60

/-- `gmtime_r` into fields that are zero, which stay so when the year does not fit. -/
def gmtimeR (t : ℤ) : Tm :=
  if Fits 32 (yearOf (t / 86400) - 1900) then gmtime t else ⟨0, 0, 0, 0, 0, 0⟩

/-- The seconds of fields that need not be in their ranges. -/
def seconds (tm : Tm) : ℤ :=
  (monthStart (tm.year + 1900) tm.mon + tm.mday - 1) * 86400 + tm.hour * 3600 + tm.min * 60 + tm.sec

def timegm (tm : Tm) : ℤ :=
  if Fits 32 (yearOf (seconds tm / 86400) - 1900) then seconds tm else -1

/-- `%Y-%m-%d`; libraries differ in how many digits a year has at least. -/
def date (width : ℕ) (tm : Tm) : List Char :=
  padded width (tm.year + 1900) ++ '-' :: (padded 2 (tm.mon + 1) ++ '-' :: padded 2 tm.mday)

/-- `%Y-%m-%d %H:%M:%S` -/
def strftime (width : ℕ) (tm : Tm) : List Char :=
  padded width (tm.year + 1900) ++ '-' :: (padded 2 (tm.mon + 1) ++ '-' :: (padded 2 tm.mday ++
    ' ' :: (padded 2 tm.hour ++ ':' :: (padded 2 tm.min ++ ':' :: padded 2 tm.sec))))

def fmtDt (width : ℕ) (t : ℤ) : List Char := strftime width (gmtimeR t)

def dateFormat : List Piece := [.int, .char '-', .int, .char '-', .int]

def timeFormat : List Piece :=
  [.int, .char '-', .int, .char '-', .int, .char ' ', .int, .char ':', .int, .char ':', .int]

/-- `parse_iso_dt`, unless a value is not one of an `int`. -/
def parseIsoDt (s : List Char) : Option ℤ := do
  let fields := scan (if s.length = 10 then dateFormat else timeFormat) s
  let year ← checked 32 (fields.getD 0 0)
  let mon ← checked 32 (fields.getD 1 0)
  let mday ← checked 32 (fields.getD 2 0)
  let hour ← checked 32 (fields.getD 3 0)
  let min ← checked 32 (fields.getD 4 0)
  let sec ← checked 32 (fields.getD 5 0)
  let year ← checked 32 (year - 1900)
  let mon ← checked 32 (mon - 1)
  return timegm ⟨year, mon, mday, hour, min, sec⟩

/-! ### Fields in their ranges -/

/-- The fields are those of a second of the calendar. -/
structure Valid (tm : Tm) : Prop where
  year : Fits 32 tm.year ∧ Fits 32 (tm.year + 1900)
  mon : 0 ≤ tm.mon ∧ tm.mon < 12
  mday : 1 ≤ tm.mday ∧
    tm.mday ≤ monthStart (tm.year + 1900) (tm.mon + 1) - monthStart (tm.year + 1900) tm.mon
  hour : 0 ≤ tm.hour ∧ tm.hour < 24
  min : 0 ≤ tm.min ∧ tm.min < 60
  sec : 0 ≤ tm.sec ∧ tm.sec < 60

/-- A time whose year is an `int`, counted from year zero and from 1900. -/
def InYears (t : ℤ) : Prop :=
  Fits 32 (yearOf (t / 86400) - 1900) ∧ Fits 32 (yearOf (t / 86400))

instance (t : ℤ) : Decidable (InYears t) := inferInstanceAs (Decidable (_ ∧ _))

variable {tm : Tm} {t : ℤ}

lemma seconds_gmtime (t : ℤ) : seconds (gmtime t) = t := by
  have hday : monthStart (yearOf (t / 86400)) (monthOf (t / 86400) - 1) + dayOf (t / 86400) - 1 =
      t / 86400 := by
    unfold dayOf
    ring
  simp only [seconds, gmtime, sub_add_cancel]
  rw [hday]
  omega

lemma timegm_gmtime (h : InYears t) : timegm (gmtime t) = t := by
  rw [timegm, seconds_gmtime, if_pos h.1]

lemma valid_gmtime (h : InYears t) : Valid (gmtime t) := by
  obtain ⟨hlo, hhi⟩ := monthOf_bounds (t / 86400)
  refine ⟨?_, ?_, ?_, ?_, ?_, ?_⟩
  · refine ⟨h.1, ?_⟩
    show Fits 32 (yearOf (t / 86400) - 1900 + 1900)
    rw [sub_add_cancel]
    exact h.2
  · show 0 ≤ monthOf (t / 86400) - 1 ∧ monthOf (t / 86400) - 1 < 12
    omega
  · obtain ⟨hfirst, hnext⟩ := monthOf_spec (t / 86400)
    simp only [gmtime, sub_add_cancel, dayOf]
    omega
  · show 0 ≤ t % 86400 / 3600 ∧ t % 86400 / 3600 < 24
    omega
  · show 0 ≤ t % 3600 / 60 ∧ t % 3600 / 60 < 60
    omega
  · show 0 ≤ t % 60 ∧ t % 60 < 60
    omega

lemma seconds_div (h : Valid tm) :
    seconds tm / 86400 = monthStart (tm.year + 1900) tm.mon + tm.mday - 1 := by
  obtain ⟨hh, hh'⟩ := h.hour
  obtain ⟨hm, hm'⟩ := h.min
  obtain ⟨hs, hs'⟩ := h.sec
  unfold seconds
  omega

lemma gmtime_seconds (h : Valid tm) : gmtime (seconds tm) = tm := by
  obtain ⟨year, mon, mday, hour, min, sec⟩ := tm
  obtain ⟨k, rfl⟩ : ∃ k : ℕ, mon = k := ⟨mon.toNat, (Int.toNat_of_nonneg h.mon.1).symm⟩
  have hdiv := seconds_div h
  have hmday := h.mday
  have hmon := h.mon
  dsimp only at hdiv hmday hmon
  obtain ⟨hyear, hmonth⟩ : yearOf (seconds ⟨year, k, mday, hour, min, sec⟩ / 86400) =
      year + 1900 ∧ monthOf (seconds ⟨year, k, mday, hour, min, sec⟩ / 86400) = k + 1 := by
    rw [hdiv]
    exact monthOf_eq (by omega) (by omega) (by omega)
  have hday : dayOf (seconds ⟨year, k, mday, hour, min, sec⟩ / 86400) = mday := by
    rw [dayOf, hyear, hmonth, hdiv, add_sub_cancel_right]
    ring
  obtain ⟨hh, hh'⟩ := h.hour
  obtain ⟨hm, hm'⟩ := h.min
  obtain ⟨hs, hs'⟩ := h.sec
  dsimp only at hh hh' hm hm' hs hs'
  have heq : seconds ⟨year, k, mday, hour, min, sec⟩ =
      (monthStart (year + 1900) k + mday - 1) * 86400 + hour * 3600 + min * 60 + sec := rfl
  have hhour : seconds ⟨year, k, mday, hour, min, sec⟩ % 86400 / 3600 = hour := by omega
  have hmin : seconds ⟨year, k, mday, hour, min, sec⟩ % 3600 / 60 = min := by omega
  have hsec : seconds ⟨year, k, mday, hour, min, sec⟩ % 60 = sec := by omega
  unfold gmtime
  rw [hyear, hmonth, hday, hhour, hmin, hsec, add_sub_cancel_right, add_sub_cancel_right]

lemma inYears_seconds (h : Valid tm) : InYears (seconds tm) := by
  have hyear : yearOf (seconds tm / 86400) = tm.year + 1900 :=
    sub_eq_iff_eq_add.mp (congrArg Tm.year (gmtime_seconds h))
  unfold InYears
  rw [hyear, add_sub_cancel_right]
  exact h.year

lemma gmtimeR_timegm (h : Valid tm) : gmtimeR (timegm tm) = tm := by
  have hin := inYears_seconds h
  rw [timegm, if_pos hin.1, gmtimeR, if_pos hin.1, gmtime_seconds h]

/-! ### Texts -/

lemma stops_dash (r : List Char) : Stops ('-' :: r) := stops_cons (by decide) r

lemma stops_colon (r : List Char) : Stops (':' :: r) := stops_cons (by decide) r

lemma scan_date (width : ℕ) (tm : Tm) :
    scan dateFormat (date width tm) = [tm.year + 1900, tm.mon + 1, tm.mday] := by
  have hlast := scan_int [] 2 tm.mday stops_nil
  rw [List.append_nil] at hlast
  rw [dateFormat, date, scan_int _ _ _ (stops_dash _), scan_char _ (by decide),
    scan_int _ _ _ (stops_dash _), scan_char _ (by decide), hlast, scan_nil]

lemma scan_strftime (width : ℕ) (tm : Tm) : scan timeFormat (strftime width tm) =
    [tm.year + 1900, tm.mon + 1, tm.mday, tm.hour, tm.min, tm.sec] := by
  have hlast := scan_int [] 2 tm.sec stops_nil
  rw [List.append_nil] at hlast
  rw [timeFormat, strftime, scan_int _ _ _ (stops_dash _), scan_char _ (by decide),
    scan_int _ _ _ (stops_dash _), scan_char _ (by decide),
    scan_int _ _ _ (stops_cons (by decide) _), scan_space, scan_int _ _ _ (stops_colon _),
    scan_char _ (by decide), scan_int _ _ _ (stops_colon _), scan_char _ (by decide), hlast,
    scan_nil]

lemma two_le_length_padded (z : ℤ) : 2 ≤ (padded 2 z).length := by
  rw [padded_eq, List.length_append, length_zeros]
  omega

/-- The text of a time is no text of a date. -/
lemma length_strftime (width : ℕ) (tm : Tm) : (strftime width tm).length ≠ 10 := by
  have hyear : 1 ≤ (padded width (tm.year + 1900)).length := by
    rw [padded_eq, List.length_append, length_zeros]
    have hpos := Nat.length_toDigits_pos (b := 10) (n := (tm.year + 1900).natAbs)
    omega
  have hmon := two_le_length_padded (tm.mon + 1)
  have hmday := two_le_length_padded tm.mday
  have hhour := two_le_length_padded tm.hour
  have hmin := two_le_length_padded tm.min
  have hsec := two_le_length_padded tm.sec
  simp only [strftime, List.length_append, List.length_cons]
  omega

lemma fits_small {z : ℤ} (h : -1000 ≤ z) (h' : z ≤ 1000) : Fits 32 z := by
  unfold Fits
  norm_num
  omega

lemma parseIsoDt_of_scan (h : Valid tm) {s : List Char}
    (hs : ∀ k, (scan (if s.length = 10 then dateFormat else timeFormat) s).getD k 0 =
      [tm.year + 1900, tm.mon + 1, tm.mday, tm.hour, tm.min, tm.sec].getD k 0) :
    parseIsoDt s = some (timegm tm) := by
  have hmonth : tm.mday ≤ 1000 := by
    obtain ⟨k, hk⟩ : ∃ k : ℕ, tm.mon = k := ⟨tm.mon.toNat, (Int.toNat_of_nonneg h.mon.1).symm⟩
    have hmon := h.mon.2
    have hle := h.mday.2
    rw [hk] at hmon hle
    have hlength := monthLength_le (tm.year + 1900) (show k < 12 by omega)
    omega
  have hmon := h.mon
  have hmday := h.mday.1
  have hhour := h.hour
  have hmin := h.min
  have hsec := h.sec
  unfold parseIsoDt
  dsimp only
  rw [hs, hs, hs, hs, hs, hs]
  simp only [List.getD_cons_zero, List.getD_cons_succ]
  rw [checked_of_fits h.year.2, checked_of_fits (fits_small (by omega) (by omega)),
    checked_of_fits (fits_small (by omega) hmonth),
    checked_of_fits (fits_small (by omega) (by omega)),
    checked_of_fits (fits_small (by omega) (by omega)),
    checked_of_fits (fits_small (by omega) (by omega))]
  simp only [Option.bind_eq_bind, Option.bind_some, add_sub_cancel_right]
  rw [checked_of_fits h.year.1, checked_of_fits (fits_small (by omega) (by omega))]
  rfl

lemma parseIsoDt_strftime (width : ℕ) (h : Valid tm) :
    parseIsoDt (strftime width tm) = some (timegm tm) := by
  refine parseIsoDt_of_scan h fun k => ?_
  rw [if_neg (length_strftime width tm), scan_strftime]

lemma parseIsoDt_of_inYears (width : ℕ) (h : InYears t) :
    parseIsoDt (fmtDt width t) = some t := by
  rw [fmtDt, gmtimeR, if_pos h.1, parseIsoDt_strftime width (valid_gmtime h), timegm_gmtime h]

/-- **What is printed of a time is parsed as that time**, and what is parsed of a text of the
calendar is printed as that text, however many digits a year has at least; a date is parsed as
its midnight. -/
theorem parseIsoDt_fmtDt (width : ℕ) :
    (∀ t, InYears t → parseIsoDt (fmtDt width t) = some t) ∧
      (∀ tm, Valid tm → ∃ t, parseIsoDt (strftime width tm) = some t ∧
        fmtDt width t = strftime width tm) ∧
      ∀ tm, Valid tm → tm.hour = 0 → tm.min = 0 → tm.sec = 0 → (date width tm).length = 10 →
        parseIsoDt (date width tm) = parseIsoDt (strftime width tm) := by
  refine ⟨fun t ht => parseIsoDt_of_inYears width ht,
    fun tm h => ⟨_, parseIsoDt_strftime width h, ?_⟩, fun tm h hhour hmin hsec hlen => ?_⟩
  · rw [fmtDt, gmtimeR_timegm h]
  · rw [parseIsoDt_strftime width h]
    refine parseIsoDt_of_scan h fun k => ?_
    rw [if_pos hlen, scan_date, hhour, hmin, hsec]
    rcases k with _ | _ | _ | _ | _ | _ | k <;> rfl

theorem parseIsoDt_fmtDt_leapDay :
    parseIsoDt (fmtDt 4 1456790399) = some 1456790399 ∧
      (∃ t, parseIsoDt (strftime 4 ⟨116, 1, 29, 23, 59, 59⟩) = some t ∧
        fmtDt 4 t = strftime 4 ⟨116, 1, 29, 23, 59, 59⟩) ∧
      parseIsoDt (date 4 ⟨116, 2, 1, 0, 0, 0⟩) = parseIsoDt (strftime 4 ⟨116, 2, 1, 0, 0, 0⟩) := by
  obtain ⟨htime, htext, hdate⟩ := parseIsoDt_fmtDt 4
  refine ⟨htime _ (by decide), htext _ ?_, hdate _ ?_ rfl rfl rfl (by decide)⟩ <;>
    exact ⟨by decide, by decide, by decide, by decide, by decide, by decide⟩

end Mini2.Dates
