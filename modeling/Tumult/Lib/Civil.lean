import Mathlib

/-!
# The proleptic Gregorian calendar

Dates, and the number of days from 1970-01-01 to a date, by the 4/100/400 rule for leap years. A day number belongs to one date: the
years and the months lie end to end. The date is computed from the day number over eras of 400 years that start on 1 March, so that
the leap day comes last.
-/

namespace Civil

/-! ## Years -/

/-- Every fourth year is a leap year, but no hundredth, unless it is a four-hundredth. -/
def IsLeap (year : Int) : Prop := year % 4 = 0 ∧ (year % 100 ≠ 0 ∨ year % 400 = 0)

instance decidableIsLeap (year : Int) : Decidable (IsLeap year) := by
  unfold IsLeap
  infer_instance

def leapDay (year : Int) : Int := if IsLeap year then 1 else 0

def yearLength (year : Int) : Int := 365 + leapDay year

/-- The leap years from year 1 on and before the year; those from the year on are subtracted if it is earlier. -/
def leapsBefore (year : Int) : Int := (year - 1) / 4 - (year - 1) / 100 + (year - 1) / 400

/-- The day number of 1 January. -/
def yearStart (year : Int) : Int := 365 * (year - 1970) + (leapsBefore year - leapsBefore 1970)

theorem leapDay_spec (year : Int) : leapDay year = 1 ∧ year % 4 = 0 ∧ (year % 100 ≠ 0 ∨ year % 400 = 0) ∨
    leapDay year = 0 ∧ (year % 4 ≠ 0 ∨ year % 100 = 0 ∧ year % 400 ≠ 0) := by
  unfold leapDay
  split <;> rename_i h <;> unfold IsLeap at h
  · exact Or.inl ⟨rfl, h⟩
  · exact Or.inr ⟨rfl, by omega⟩

theorem leapDay_cases (year : Int) : leapDay year = 0 ∨ leapDay year = 1 := (leapDay_spec year).elim (Or.inr ·.1) (Or.inl ·.1)

theorem leapsBefore_succ (year : Int) : leapsBefore (year + 1) = leapsBefore year + leapDay year := by
  have hleap := leapDay_spec year
  unfold leapsBefore
  omega

theorem yearStart_epoch : yearStart 1970 = 0 := by decide

/-- The years lie end to end. -/
theorem yearStart_succ (year : Int) : yearStart (year + 1) = yearStart year + yearLength year := by
  unfold yearStart yearLength
  rw [leapsBefore_succ]
  omega

theorem yearStart_le {a b : Int} (h : a ≤ b) : yearStart a ≤ yearStart b := by
  induction b, h using Int.leInduction with
  | base => exact le_refl _
  | succ b _ ih =>
    have hleap := leapDay_cases b
    rw [yearStart_succ, yearLength]
    omega

/-! ## Months -/

def monthLength (year : Int) : Nat → Int
  | 2 => 28 + leapDay year
  | 4 | 6 | 9 | 11 => 30
  | _ => 31

/-- The days of the year before the first of the month. -/
def monthStart (year : Int) : Nat → Int
  | 0 | 1 => 0
  | month + 2 => monthStart year (month + 1) + monthLength year (month + 1)

theorem monthLength_pos (year : Int) (month : Nat) : 0 < monthLength year month := by
  have hleap := leapDay_cases year
  unfold monthLength
  split <;> omega

/-- The months lie end to end. -/
theorem monthStart_succ (year : Int) {month : Nat} (h : 1 ≤ month) :
    monthStart year (month + 1) = monthStart year month + monthLength year month := by
  obtain ⟨m, rfl⟩ := Nat.exists_eq_add_of_le h
  rw [Nat.add_comm 1 m]
  rfl

theorem monthStart_le (year : Int) {a b : Nat} (ha : 1 ≤ a) (h : a ≤ b) : monthStart year a ≤ monthStart year b := by
  induction b, h using Nat.le_induction with
  | base => exact le_refl _
  | succ b hb ih =>
    have hpos := monthLength_pos year b
    rw [monthStart_succ year (by omega)]
    omega

/-- Twelve months are a year. -/
theorem monthStart_thirteen (year : Int) : monthStart year 13 = yearLength year := by
  simp only [monthStart, monthLength, yearLength]
  omega

/-! ## Dates -/

structure Date where
  year : Int
  month : Nat
  day : Nat
  month_valid : 1 ≤ month ∧ month ≤ 12
  day_valid : 1 ≤ day ∧ (day : Int) ≤ monthLength year month
  deriving DecidableEq

/-- The days from 1970-01-01 to the date. -/
def Date.dayNumber (date : Date) : Int := yearStart date.year + monthStart date.year date.month + (date.day - 1)

example : Date.dayNumber ⟨2024, 1, 1, by decide, by decide⟩ = 19723 := by decide

/-- The date is before the end of its month. -/
theorem Date.dayNumber_lt_month (date : Date) :
    date.dayNumber < yearStart date.year + monthStart date.year (date.month + 1) := by
  have hday := date.day_valid.2
  rw [monthStart_succ _ date.month_valid.1, Date.dayNumber]
  omega

/-- The date is in its year. -/
theorem Date.dayNumber_year (date : Date) :
    yearStart date.year ≤ date.dayNumber ∧ date.dayNumber < yearStart (date.year + 1) := by
  have hday := date.day_valid.1
  have hfrom := monthStart_le date.year (le_refl 1) date.month_valid.1
  have hto := monthStart_le date.year (a := date.month + 1) (by omega) (Nat.succ_le_succ date.month_valid.2)
  have hlt := date.dayNumber_lt_month
  rw [monthStart_thirteen] at hto
  rw [yearStart_succ]
  refine ⟨?_, by omega⟩
  change 0 ≤ monthStart date.year date.month at hfrom
  rw [Date.dayNumber]
  omega

/-- A day number belongs to one date. -/
theorem Date.dayNumber_injective : Function.Injective Date.dayNumber := by
  intro a b h
  have ha := a.dayNumber_year
  have hb := b.dayNumber_year
  have hyear : a.year = b.year := by
    rcases lt_trichotomy a.year b.year with hlt | heq | hlt
    · have hle := yearStart_le (Int.add_one_le_iff.mpr hlt)
      omega
    · exact heq
    · have hle := yearStart_le (Int.add_one_le_iff.mpr hlt)
      omega
  have hmonth : a.month = b.month := by
    have hda := a.day_valid.1
    have hdb := b.day_valid.1
    have hla := a.dayNumber_lt_month
    have hlb := b.dayNumber_lt_month
    have hna : a.dayNumber = yearStart a.year + monthStart a.year a.month + (a.day - 1) := rfl
    have hnb : b.dayNumber = yearStart b.year + monthStart b.year b.month + (b.day - 1) := rfl
    rw [hyear] at hla hna
    rcases lt_trichotomy a.month b.month with hlt | heq | hlt
    · have hle := monthStart_le b.year (a := a.month + 1) (by omega) hlt
      omega
    · exact heq
    · have hle := monthStart_le b.year (a := b.month + 1) (by omega) hlt
      omega
  obtain ⟨year, month, day, _, hday⟩ := a
  obtain ⟨year', month', day', _, hday'⟩ := b
  cases hyear
  cases hmonth
  have heq : day = day' := by
    simp only [Date.dayNumber] at h
    omega
  cases heq
  rfl

/-! ## The date of a day number -/

/-- The day number of 1 March of the year, counted from 1 March of year 0. -/
def marchStart (year : Int) : Int := 365 * year + year / 4 - year / 100 + year / 400

/-- The first of March is the 60th day of the year, or the 61st. -/
theorem marchStart_eq (year : Int) : marchStart year - 719468 = yearStart year + 59 + leapDay year := by
  have hleap := leapDay_spec year
  unfold marchStart yearStart leapsBefore
  omega

theorem marchStart_succ (year : Int) : marchStart (year + 1) = marchStart year + 365 + leapDay (year + 1) := by
  have hleap := leapDay_spec (year + 1)
  unfold marchStart
  omega

/-- The year of a day of an era. -/
def yearOfEra (doe : Int) : Int := (doe - doe / 1460 + doe / 36524 - doe / 146096) / 365

theorem yearOfEra_start {year doe : Int} (h : 0 ≤ year) (h' : year < 400) (hdoe : doe = marchStart year) :
    365 * year ≤ doe - doe / 1460 + doe / 36524 - doe / 146096 := by
  unfold marchStart at hdoe
  have hcenturies : doe / 36524 = year / 100 := by omega
  have hera : doe / 146096 = 0 := by omega
  have hleaps : doe / 1460 ≤ year / 4 := by omega
  omega

theorem yearOfEra_end {year doe : Int} (h : 0 ≤ year) (h' : year < 400) (hdoe : doe = marchStart (year + 1) - 1) :
    doe - doe / 1460 + doe / 36524 - doe / 146096 < 365 * (year + 1) := by
  unfold marchStart at hdoe
  have hleaps : (year + 1) / 4 ≤ doe / 1460 := by omega
  rcases lt_or_ge year 399 with hy | hy
  · have hcenturies : doe / 36524 ≤ (year + 1) / 100 := by omega
    have hera : (year + 1) / 400 = 0 := by omega
    have hnonneg : 0 ≤ doe / 146096 := by omega
    omega
  · have hlast : year = 399 := by omega
    subst hlast
    omega

/-- The year of the era that the day is in. -/
theorem yearOfEra_eq {year doe : Int} (h : 0 ≤ year) (h' : year < 400) (hfrom : marchStart year ≤ doe)
    (hto : doe < marchStart (year + 1)) : yearOfEra doe = year := by
  have hmono : ∀ d e : Int, d ≤ e → e < 146097 →
      d - d / 1460 + d / 36524 - d / 146096 ≤ e - e / 1460 + e / 36524 - e / 146096 := by
    intro d e hde he
    omega
  have hlast : marchStart (year + 1) ≤ 146097 := by
    unfold marchStart
    omega
  have hlow := (yearOfEra_start h h' rfl).trans (hmono _ _ hfrom (by omega))
  have hhigh := (hmono doe (marchStart (year + 1) - 1) (by omega) (by omega)).trans_lt (yearOfEra_end h h' rfl)
  unfold yearOfEra
  generalize doe - doe / 1460 + doe / 36524 - doe / 146096 = days at hlow hhigh ⊢
  clear hmono hlast hfrom hto
  omega

/-- A day of an era is in one of its years. -/
theorem exists_yearOfEra {doe : Int} (h : 0 ≤ doe) (h' : doe < 146097) :
    ∃ year, 0 ≤ year ∧ year < 400 ∧ marchStart year ≤ doe ∧ doe < marchStart (year + 1) := by
  have hall : ∀ n : Nat, doe < marchStart n → ∃ year : Int, 0 ≤ year ∧ year < n ∧ marchStart year ≤ doe ∧ doe < marchStart (year + 1) := by
    intro n
    induction n with
    | zero =>
      intro hn
      have hzero : marchStart (0 : Nat) = 0 := rfl
      omega
    | succ n ih =>
      intro hn
      rcases lt_or_ge doe (marchStart n) with hlt | hge
      · obtain ⟨year, hyear⟩ := ih hlt
        exact ⟨year, hyear.1, by push_cast; omega, hyear.2.2⟩
      · exact ⟨n, by omega, by push_cast; omega, hge, by exact_mod_cast hn⟩
  exact hall 400 (by simpa [marchStart] using h')

/-- The days of the year of an era before the day. -/
def dayOfYear (doe : Int) : Int := doe - (365 * yearOfEra doe + yearOfEra doe / 4 - yearOfEra doe / 100)

/-- The month of a day of a year that starts in March, from 0 on. -/
def monthOfYear (doy : Int) : Int := (5 * doy + 2) / 153

def dayOfMonth (doy : Int) : Int := doy - (153 * monthOfYear doy + 2) / 5 + 1

/-- The number of the month in a year that starts in January. -/
def monthNumber (month : Int) : Int := if month < 10 then month + 3 else month - 9

/-- The year, the month and the day of a day number. -/
def ofDays (days : Int) : Int × Int × Int :=
  let doe := (days + 719468) % 146097
  let year := yearOfEra doe + (days + 719468) / 146097 * 400
  let month := monthNumber (monthOfYear (dayOfYear doe))
  (if month ≤ 2 then year + 1 else year, month, dayOfMonth (dayOfYear doe))

/-- A day of an era is a day of its year, and the last one is a leap day. -/
theorem dayOfYear_spec {doe : Int} (h : 0 ≤ doe) (h' : doe < 146097) (era : Int) :
    0 ≤ yearOfEra doe ∧ yearOfEra doe < 400 ∧ 0 ≤ dayOfYear doe ∧
      dayOfYear doe < 365 + leapDay (yearOfEra doe + era * 400 + 1) ∧
      doe + era * 146097 = marchStart (yearOfEra doe + era * 400) + dayOfYear doe := by
  obtain ⟨year, hnonneg, hlt, hfrom, hto⟩ := exists_yearOfEra h h'
  have hyear : yearOfEra doe = year := yearOfEra_eq hnonneg hlt hfrom hto
  have hdoy : dayOfYear doe = doe - marchStart year := by
    unfold dayOfYear marchStart
    rw [hyear]
    omega
  have hera : marchStart (year + era * 400) = marchStart year + era * 146097 := by
    unfold marchStart
    omega
  have hleap : leapDay (year + era * 400 + 1) = leapDay (year + 1) := by
    unfold leapDay IsLeap
    congr 1
    simp only [eq_iff_iff]
    omega
  rw [marchStart_succ] at hto
  rw [hyear, hera, hleap, hdoy]
  exact ⟨hnonneg, hlt, by omega, by omega, by omega⟩

/-- The months of a year that starts in March, by the day of the year. -/
theorem monthOfYear_spec {doy : Int} (h : 0 ≤ doy) (h' : doy ≤ 365) :
    0 ≤ monthOfYear doy ∧ monthOfYear doy ≤ 11 ∧ 1 ≤ dayOfMonth doy ∧ dayOfMonth doy ≤ 31 := by
  unfold dayOfMonth monthOfYear
  omega

/-- From March to December the months do not depend on the year. -/
theorem monthStart_march (year : Int) {m : Nat} (h : m < 10) :
    monthStart year (m + 3) = 59 + leapDay year + (153 * m + 2) / 5 ∧
      monthLength year (m + 3) = (153 * (m + 1) + 2) / 5 - (153 * m + 2) / 5 := by
  interval_cases m <;> simp only [monthStart, monthLength] <;> omega

/-- A day from March to December. -/
theorem exists_date_march (year : Int) {m d : Nat} {doy : Int} (hm : m < 10) (hd : 1 ≤ d)
    (hdoy : doy = (153 * m + 2) / 5 + ((d : Int) - 1)) (hend : doy < (153 * (m + 1) + 2) / 5) :
    ∃ date : Date, date.dayNumber = marchStart year + doy - 719468 ∧ date.year = year ∧ date.month = m + 3 ∧ date.day = d := by
  obtain ⟨hstart, hlength⟩ := monthStart_march year hm
  have hmarch := marchStart_eq year
  refine ⟨⟨year, m + 3, d, ⟨by omega, by omega⟩, hd, by rw [hlength]; omega⟩, ?_, rfl, rfl, rfl⟩
  change yearStart year + monthStart year (m + 3) + ((d : Int) - 1) = _
  omega

/-- A day of the January or the February after. -/
theorem exists_date_january {year doy : Int} {m d : Nat} (hm : m = 10 ∨ m = 11) (hd : 1 ≤ d)
    (hdoy : doy = (153 * m + 2) / 5 + ((d : Int) - 1)) (hend : doy < (153 * (m + 1) + 2) / 5)
    (hyear : doy < 365 + leapDay (year + 1)) :
    ∃ date : Date, date.dayNumber = marchStart year + doy - 719468 ∧ date.year = year + 1 ∧ date.month + 9 = m ∧ date.day = d := by
  have hmarch := marchStart_eq year
  have hnext := yearStart_succ year
  unfold yearLength at hnext
  rcases hm with rfl | rfl
  · refine ⟨⟨year + 1, 1, d, ⟨by omega, by omega⟩, hd, by change (d : Int) ≤ 31; omega⟩, ?_, rfl, rfl, rfl⟩
    change yearStart (year + 1) + 0 + ((d : Int) - 1) = _
    omega
  · refine ⟨⟨year + 1, 2, d, ⟨by omega, by omega⟩, hd, by change (d : Int) ≤ 28 + leapDay (year + 1); omega⟩, ?_, rfl, rfl, rfl⟩
    change yearStart (year + 1) + (0 + 31) + ((d : Int) - 1) = _
    omega

/-- Every day number is the number of a date, which `ofDays` computes. -/
theorem ofDays_date (days : Int) : ∃ date : Date, date.dayNumber = days ∧ ofDays days = (date.year, (date.month : Int), (date.day : Int)) := by
  have hdoe := Int.emod_nonneg (days + 719468) (b := 146097) (by decide)
  have hdoe' := Int.emod_lt_of_pos (days + 719468) (b := 146097) (by decide)
  have hdiv := Int.emod_add_mul_ediv (days + 719468) 146097
  obtain ⟨-, -, hdoy, hdoy', hstart⟩ := dayOfYear_spec hdoe hdoe' ((days + 719468) / 146097)
  have hleap := leapDay_cases (yearOfEra ((days + 719468) % 146097) + (days + 719468) / 146097 * 400 + 1)
  obtain ⟨hm, hm', hd, -⟩ := monthOfYear_spec hdoy (by omega)
  simp only [ofDays]
  generalize (days + 719468) % 146097 = doe at *
  generalize yearOfEra doe + (days + 719468) / 146097 * 400 = year at *
  generalize dayOfYear doe = doy at *
  obtain ⟨m, hmonth⟩ : ∃ m : Nat, monthOfYear doy = m := ⟨_, (Int.toNat_of_nonneg hm).symm⟩
  obtain ⟨d, hday⟩ : ∃ d : Nat, dayOfMonth doy = d := ⟨_, (Int.toNat_of_nonneg (by omega)).symm⟩
  have hsplit : doy = (153 * m + 2) / 5 + ((d : Int) - 1) := by
    rw [← hday, dayOfMonth, hmonth]
    omega
  have hend : doy < (153 * ((m : Int) + 1) + 2) / 5 := by
    rw [← hmonth, monthOfYear]
    omega
  rw [hmonth] at hm' ⊢
  rw [hday] at hd ⊢
  have hcases : m < 10 ∨ m = 10 ∨ m = 11 := by omega
  rcases hcases with hlt | hlate
  · obtain ⟨date, hnumber, hyear, hnum, hdate⟩ := exists_date_march year hlt (by omega) hsplit hend
    refine ⟨date, by omega, ?_⟩
    have hmn : monthNumber m = m + 3 := if_pos (by omega)
    rw [hmn, if_neg (by omega), hyear, hnum, hdate]
    rfl
  · obtain ⟨date, hnumber, hyear, hnum, hdate⟩ := exists_date_january hlate (by omega) hsplit hend hdoy'
    refine ⟨date, by omega, ?_⟩
    have hmn : monthNumber m = m - 9 := if_neg (by omega)
    rw [hmn, if_pos (by omega), hyear, hdate]
    congr 2
    omega

/-- The day numbers are the numbers of the dates. -/
theorem Date.dayNumber_bijective : Function.Bijective Date.dayNumber := by
  refine ⟨Date.dayNumber_injective, fun days => ?_⟩
  obtain ⟨date, hnumber, -⟩ := ofDays_date days
  exact ⟨date, hnumber⟩

end Civil
