import Tumult.Compliance.Dates
import Tumult.Lib.Civil

/-!
# Civil dates are the Gregorian calendar

Both copies of the algorithm compute the date of the calendar, and no operation of theirs overflows.
-/

namespace Tumult.Compliance

open Fixed

theorem dateOf_eq (ns : Int64) : dateOf ns = some (Civil.ofDays (ns.toInt / NANOS_PER_DAY)) := by
  have hlow := ns.le_toInt
  have hhigh := ns.toInt_lt
  have hdays : -106752 ≤ ns.toInt / NANOS_PER_DAY ∧ ns.toInt / NANOS_PER_DAY ≤ 106751 := by
    unfold NANOS_PER_DAY
    omega
  unfold dateOf
  generalize ns.toInt / NANOS_PER_DAY = days at hdays ⊢
  have hdoe := Int.emod_nonneg (days + 719468) (b := 146097) (by decide)
  have hdoe' := Int.emod_lt_of_pos (days + 719468) (b := 146097) (by decide)
  have hera : -10 ≤ (days + 719468) / 146097 ∧ (days + 719468) / 146097 ≤ 10 := by omega
  obtain ⟨hyoe, hyoe', hdoy, hdoy', -⟩ := Civil.dayOfYear_spec hdoe hdoe' 0
  have hleap := Civil.leapDay_cases (Civil.yearOfEra ((days + 719468) % 146097) + 0 * 400 + 1)
  obtain ⟨hm, hm', hd, hd'⟩ := Civil.monthOfYear_spec hdoy (by omega)
  refine (i64_bind (by omega)).trans ?_
  dsimp only [Civil.ofDays]
  simp only [Int.tdiv_eq_ediv_of_nonneg hdoe]
  generalize (days + 719468) % 146097 = doe at *
  generalize (days + 719468) / 146097 = era at *
  refine (i64_bind (by omega)).trans ?_
  refine (i64_bind (by omega)).trans ?_
  refine (i64_bind (by omega)).trans ?_
  rw [Int.tdiv_eq_ediv_of_nonneg (by omega)]
  have hyear : (doe - doe / 1460 + doe / 36524 - doe / 146096) / 365 = Civil.yearOfEra doe := rfl
  simp only [hyear, Int.tdiv_eq_ediv_of_nonneg hyoe]
  refine (i64_bind (by omega)).trans ?_
  refine (i64_bind (by omega)).trans ?_
  refine (i64_bind (by omega)).trans ?_
  refine (i64_bind (by omega)).trans ?_
  refine (i64_bind (by omega)).trans ?_
  have hday : doe - (365 * Civil.yearOfEra doe + Civil.yearOfEra doe / 4 - Civil.yearOfEra doe / 100) = Civil.dayOfYear doe := rfl
  rw [hday]
  generalize Civil.dayOfYear doe = doy at *
  refine (i64_bind (by omega)).trans ?_
  refine (i64_bind (by omega)).trans ?_
  refine (i64_bind (by omega)).trans ?_
  rw [Int.tdiv_eq_ediv_of_nonneg (by omega)]
  have hmonth : (5 * doy + 2) / 153 = Civil.monthOfYear doy := rfl
  simp only [hmonth]
  refine (i64_bind (by omega)).trans ?_
  refine (i64_bind (by omega)).trans ?_
  rw [Int.tdiv_eq_ediv_of_nonneg (by omega)]
  refine (i64_bind (by omega)).trans ?_
  refine (i64_bind (by omega)).trans ?_
  dsimp only [Civil.monthNumber, Civil.dayOfMonth]
  split
  · refine (i64_bind (by omega)).trans ?_
    split
    · exact i64_bind (by omega)
    · rfl
  · refine (i64_bind (by omega)).trans ?_
    split
    · exact i64_bind (by omega)
    · rfl

/-- The two divisions of an era agree. -/
theorem tdiv_era (z : Int) : (if 0 ≤ z then z else z - 146096).tdiv 146097 = z / 146097 := by
  split
  · exact Int.tdiv_eq_ediv_of_nonneg ‹_›
  · have hneg := Int.neg_tdiv (z - 146096) 146097
    rw [Int.tdiv_eq_ediv_of_nonneg (by omega)] at hneg
    omega

theorem civilFromDays_eq {days : Int64} (hlow : -(2 ^ 40) ≤ days.toInt) (hhigh : days.toInt ≤ 2 ^ 40) :
    civilFromDays days = some (Civil.ofDays days.toInt) := by
  unfold civilFromDays
  generalize days.toInt = days at hlow hhigh ⊢
  have hdoe := Int.emod_nonneg (days + 719468) (b := 146097) (by decide)
  have hdoe' := Int.emod_lt_of_pos (days + 719468) (b := 146097) (by decide)
  obtain ⟨hyoe, hyoe', hdoy, hdoy', -⟩ := Civil.dayOfYear_spec hdoe hdoe' 0
  have hleap := Civil.leapDay_cases (Civil.yearOfEra ((days + 719468) % 146097) + 0 * 400 + 1)
  obtain ⟨hm, hm', hd, hd'⟩ := Civil.monthOfYear_spec hdoy (by omega)
  refine (i64_bind (by omega)).trans ?_
  dsimp only [Civil.ofDays]
  have hz : eraBase (days + 719468) = some (if 0 ≤ days + 719468 then days + 719468 else days + 719468 - 146096) := by
    unfold eraBase
    split
    · rfl
    · exact (bind_pure _).symm.trans (i64_bind (by omega))
  rw [hz]
  refine (Option.bind_some _ _).trans ?_
  rw [tdiv_era]
  have hdiv := Int.emod_add_mul_ediv (days + 719468) 146097
  have hera : -(2 ^ 24) ≤ (days + 719468) / 146097 ∧ (days + 719468) / 146097 ≤ 2 ^ 24 := by omega
  refine (i64_bind (by omega)).trans ?_
  refine (i64_bind (by omega)).trans ?_
  have hmod : days + 719468 - (days + 719468) / 146097 * 146097 = (days + 719468) % 146097 := by omega
  rw [hmod, asUnsigned_of_fits hdoe (by omega)]
  clear hz hmod hdiv
  generalize (days + 719468) % 146097 = doe at *
  generalize (days + 719468) / 146097 = era at *
  refine (u64_bind (by omega)).trans ?_
  refine (u64_bind (by omega)).trans ?_
  refine (u64_bind (by omega)).trans ?_
  have hyear : (doe - doe / 1460 + doe / 36524 - doe / 146096) / 365 = Civil.yearOfEra doe := rfl
  simp only [hyear]
  rw [castSigned_of_fits (by omega)]
  refine (i64_bind (by omega)).trans ?_
  refine (i64_bind (by omega)).trans ?_
  refine (u64_bind (by omega)).trans ?_
  refine (u64_bind (by omega)).trans ?_
  refine (u64_bind (by omega)).trans ?_
  have hday : doe - (365 * Civil.yearOfEra doe + Civil.yearOfEra doe / 4 - Civil.yearOfEra doe / 100) = Civil.dayOfYear doe := rfl
  rw [hday]
  generalize Civil.dayOfYear doe = doy at *
  refine (u64_bind (by omega)).trans ?_
  refine (u64_bind (by omega)).trans ?_
  refine (u64_bind (by omega)).trans ?_
  have hmonth : (5 * doy + 2) / 153 = Civil.monthOfYear doy := rfl
  simp only [hmonth]
  unfold Civil.dayOfMonth at hd hd'
  refine (u64_bind (by omega)).trans ?_
  refine (u64_bind (by omega)).trans ?_
  refine (u64_bind (by omega)).trans ?_
  refine (u64_bind (by omega)).trans ?_
  rw [asUnsigned_of_fits (n := 32) (by omega) (by omega)]
  dsimp only [Civil.monthNumber, Civil.dayOfMonth]
  split
  · refine (u64_bind (by omega)).trans ?_
    rw [asUnsigned_of_fits (by omega) (by omega)]
    split
    · exact i64_bind (by omega)
    · rfl
  · refine (u64_bind (by omega)).trans ?_
    rw [asUnsigned_of_fits (by omega) (by omega)]
    split
    · exact i64_bind (by omega)
    · rfl

/-- The date as text. -/
def isoDate (date : Civil.Date) : String := zeroPadded 4 date.year ++ "-" ++ zeroPadded 2 date.month ++ "-" ++ zeroPadded 2 date.day

/-- The date is the only one of the day number. -/
def IsDateOf (date : Civil.Date) (dayNumber : Int) : Prop := ∀ other : Civil.Date, other.dayNumber = dayNumber ↔ other = date

theorem ofDays_isDateOf (days : Int) :
    ∃ date, IsDateOf date days ∧ Civil.ofDays days = (date.year, (date.month : Int), (date.day : Int)) := by
  obtain ⟨date, rfl, hdays⟩ := Civil.ofDays_date days
  exact ⟨date, fun other => Civil.Date.dayNumber_injective.eq_iff, hdays⟩

theorem fmtDate_eq {ns : Int64} {date : Civil.Date}
    (h : Civil.ofDays (ns.toInt / NANOS_PER_DAY) = (date.year, (date.month : Int), (date.day : Int))) : fmtDate ns = some (isoDate date) := by
  rw [fmtDate, dateOf_eq, h]
  rfl

/-- The hour and the minute of an instant. -/
structure IsTimeOf (hour minute : Nat) (ns : Int) : Prop where
  hour_valid : hour < 24
  minute_valid : minute < 60
  within : (60 * hour + minute) * 60000000000 ≤ ns % NANOS_PER_DAY ∧ ns % NANOS_PER_DAY < (60 * hour + minute + 1) * 60000000000

theorem fmtDatetime_eq (ns : Int64) {text : String} (h : fmtDate ns = some text) :
    ∃ hour minute, IsTimeOf hour minute ns.toInt ∧
      fmtDatetime ns = some (text ++ " " ++ zeroPadded 2 hour ++ ":" ++ zeroPadded 2 minute ++ " UTC") := by
  have hday := Int.emod_nonneg ns.toInt (b := NANOS_PER_DAY) (by decide)
  have hday' := Int.emod_lt_of_pos ns.toInt (b := NANOS_PER_DAY) (by decide)
  have hns : NANOS_PER_DAY = 86400000000000 := rfl
  refine ⟨(ns.toInt % NANOS_PER_DAY / 1000000000 / 3600).toNat, (ns.toInt % NANOS_PER_DAY / 1000000000 % 3600 / 60).toNat,
    ⟨by omega, by omega, by omega⟩, ?_⟩
  rw [fmtDatetime, h, Int.tdiv_eq_ediv_of_nonneg hday, Int.tdiv_eq_ediv_of_nonneg (by omega), Int.tmod_eq_emod_of_nonneg (by omega),
    Int.tdiv_eq_ediv_of_nonneg (by omega), Int.toNat_of_nonneg (by omega), Int.toNat_of_nonneg (by omega)]
  rfl

/-! ## The dates that are printed -/

/-- Civil dates are the Gregorian calendar: in both functions that print an instant, and in the audit's copy of the algorithm. -/
theorem civil_dates_gregorian :
    (∀ ns : Int64, ∃ date, IsDateOf date (ns.toInt / NANOS_PER_DAY) ∧
      dateOf ns = some (date.year, (date.month : Int), (date.day : Int)) ∧ fmtDate ns = some (isoDate date) ∧
      ∃ hour minute, IsTimeOf hour minute ns.toInt ∧
        fmtDatetime ns = some (isoDate date ++ " " ++ zeroPadded 2 hour ++ ":" ++ zeroPadded 2 minute ++ " UTC")) ∧
    ∀ days : Int64, -(2 ^ 40) ≤ days.toInt → days.toInt ≤ 2 ^ 40 →
      ∃ date, IsDateOf date days.toInt ∧ civilFromDays days = some (date.year, (date.month : Int), (date.day : Int)) := by
  refine ⟨fun ns => ?_, fun days hlow hhigh => ?_⟩
  · obtain ⟨date, hdate, hdays⟩ := ofDays_isDateOf (ns.toInt / NANOS_PER_DAY)
    have htext := fmtDate_eq hdays
    exact ⟨date, hdate, by rw [dateOf_eq, hdays], htext, fmtDatetime_eq ns htext⟩
  · obtain ⟨date, hdate, hdays⟩ := ofDays_isDateOf days.toInt
    exact ⟨date, hdate, by rw [civilFromDays_eq hlow hhigh, hdays]⟩

end Tumult.Compliance
