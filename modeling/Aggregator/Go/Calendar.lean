/-
  The days of the years and of the months.

  * `dayOfDate_succ_year`: a year has 365 days, or 366 if it is a leap year;
  * `firstOfMonth_strictMono`: the months, numbered from January of year 0, follow one
    another;
  * `mem_month_iff`: a day lies in the month of its date, and in no other.
-/
import Aggregator.Go.Date
import Mathlib.Algebra.Order.Ring.Int
import Mathlib.Order.SuccPred.Basic
import Mathlib.Data.Int.SuccPred

namespace Aggregator.Go

/-! ## Years -/

def isLeap (year : ℤ) : Bool := year % 4 = 0 && (year % 100 ≠ 0 || year % 400 = 0)

theorem isLeap_iff {year : ℤ} :
    isLeap year = true ↔ year % 4 = 0 ∧ (year % 100 ≠ 0 ∨ year % 400 = 0) := by
  simp [isLeap]

def daysInYear (year : ℤ) : ℤ := if isLeap year then 366 else 365

/-- A day of January, in terms of the years before. -/
theorem dayOfDate_january (year d : ℤ) :
    dayOfDate ⟨year, 1, d⟩ = (year - 1) / 400 * 146097 + (year - 1) % 400 * 365 +
      (year - 1) % 400 / 4 - (year - 1) % 400 / 100 + d - 1 := by
  simp only [dayOfDate]
  norm_num
  omega

theorem dayOfDate_succ_year (year d : ℤ) :
    dayOfDate ⟨year + 1, 1, d⟩ = dayOfDate ⟨year, 1, d⟩ + daysInYear year := by
  rw [dayOfDate_january, dayOfDate_january, daysInYear]
  split
  · rename_i h
    rw [isLeap_iff] at h
    omega
  · rename_i h
    rw [isLeap_iff] at h
    omega

/-! ## Months -/

/-- The number of a month, counted from January of year 0. -/
def monthIndex (d : Date) : ℤ := 12 * d.year + (d.month - 1)

/-- The first day of a month. -/
def firstOfMonth (index : ℤ) : ℤ := dayOfDate ⟨index / 12, index % 12 + 1, 1⟩

theorem firstOfMonth_date {year month : ℤ} (h₀ : 1 ≤ month) (h₁ : month ≤ 12) :
    firstOfMonth (12 * year + (month - 1)) = dayOfDate ⟨year, month, 1⟩ := by
  have hyear : (12 * year + (month - 1)) / 12 = year := by omega
  have hmonth : (12 * year + (month - 1)) % 12 + 1 = month := by omega
  rw [firstOfMonth, hyear, hmonth]

/-- The first day of the month that is `mp` months after a March. -/
theorem firstOfMonth_march (era : ℤ) {yoe mp : ℤ} (h₀ : 0 ≤ yoe) (h₁ : yoe < 400) (hm₀ : 0 ≤ mp)
    (hm₁ : mp < 12) : firstOfMonth (12 * (yoe + era * 400) + mp + 2) =
      era * 146097 + yoe * 365 + yoe / 4 - yoe / 100 + (153 * mp + 2) / 5 - 306 := by
  obtain ⟨month, hmonth⟩ : ∃ month, month = if mp < 10 then mp + 3 else mp - 9 := ⟨_, rfl⟩
  have hindex : 12 * (yoe + era * 400) + mp + 2 =
      12 * (yoe + era * 400 + (if month ≤ 2 then 1 else 0)) + (month - 1) := by
    rw [hmonth]
    split_ifs <;> omega
  have hbounds : 1 ≤ month ∧ month ≤ 12 := by
    rw [hmonth]
    split_ifs <;> omega
  rw [hindex, firstOfMonth_date hbounds.1 hbounds.2, dayOfDate_march h₀ h₁ hm₀ hm₁ month hmonth]
  omega

/-- Every month is some months after a March. -/
theorem exists_march (index : ℤ) : ∃ era yoe mp : ℤ, 0 ≤ yoe ∧ yoe < 400 ∧ 0 ≤ mp ∧ mp < 12 ∧
    index = 12 * (yoe + era * 400) + mp + 2 :=
  ⟨(index - 2) / 4800, (index - 2) / 12 % 400, (index - 2) % 12, by omega, by omega, by omega,
    by omega, by omega⟩

/-- The first day of the next month, which is in the same year, or the first of the next
    year or era. -/
theorem firstOfMonth_succ (era : ℤ) {yoe mp : ℤ} (h₀ : 0 ≤ yoe) (h₁ : yoe < 400) (hm₀ : 0 ≤ mp)
    (hm₁ : mp < 12) : firstOfMonth (12 * (yoe + era * 400) + mp + 2 + 1) = era * 146097 - 306 +
      if mp < 11 then yoe * 365 + yoe / 4 - yoe / 100 + (153 * (mp + 1) + 2) / 5
      else if yoe < 399 then (yoe + 1) * 365 + (yoe + 1) / 4 - (yoe + 1) / 100
      else 146097 := by
  split_ifs with hmp hyoe
  · have hnext : 12 * (yoe + era * 400) + mp + 2 + 1 = 12 * (yoe + era * 400) + (mp + 1) + 2 := by
      omega
    rw [hnext, firstOfMonth_march era h₀ h₁ (by omega) (by omega)]
    omega
  · have hnext : 12 * (yoe + era * 400) + mp + 2 + 1 = 12 * (yoe + 1 + era * 400) + 0 + 2 := by
      omega
    rw [hnext, firstOfMonth_march era (by omega) (by omega) le_rfl (by omega)]
    omega
  · have hnext : 12 * (yoe + era * 400) + mp + 2 + 1 = 12 * (0 + (era + 1) * 400) + 0 + 2 := by
      omega
    rw [hnext, firstOfMonth_march (era + 1) le_rfl (by omega) le_rfl (by omega)]
    omega

theorem firstOfMonth_lt_succ (index : ℤ) : firstOfMonth index < firstOfMonth (index + 1) := by
  obtain ⟨era, yoe, mp, h₀, h₁, hm₀, hm₁, rfl⟩ := exists_march index
  rw [firstOfMonth_march era h₀ h₁ hm₀ hm₁, firstOfMonth_succ era h₀ h₁ hm₀ hm₁]
  split_ifs <;> omega

theorem firstOfMonth_strictMono : StrictMono firstOfMonth :=
  strictMono_int_of_lt_succ firstOfMonth_lt_succ

/-- A day is before the end of the year that is computed for it. -/
theorem dayOfYear_lt {doe yoe : ℤ} (h₀ : 0 ≤ doe) (h₁ : doe < 146097)
    (hy : (doe - doe / 1460 + doe / 36524 - doe / 146096) / 365 = yoe) (hlt : yoe < 399) :
    doe < 365 * (yoe + 1) + (yoe + 1) / 4 - (yoe + 1) / 100 := by
  have hlast : doe / 146096 = 0 := by omega
  have hc₀ : 0 ≤ doe / 36524 := by omega
  have hc₁ : doe / 36524 ≤ 4 := by omega
  have he₀ : 0 ≤ (yoe + 1) / 100 := by omega
  have he₁ : (yoe + 1) / 100 ≤ 3 := by omega
  rw [hlast] at hy
  -- the century of the day, and that of the year after
  generalize hcentury : doe / 36524 = century at *
  generalize hcentury' : (yoe + 1) / 100 = century' at *
  interval_cases century <;> interval_cases century' <;> omega

/-- The number of the month of a date, from the month after March it is computed by. -/
theorem monthIndex_dateOfDay (days : ℤ) : ∃ era yoe mp doy : ℤ, 0 ≤ yoe ∧ yoe < 400 ∧
    0 ≤ mp ∧ mp < 12 ∧ mp = (5 * doy + 2) / 153 ∧ 0 ≤ doy ∧
    (yoe < 399 → doy + (365 * yoe + yoe / 4 - yoe / 100) <
      365 * (yoe + 1) + (yoe + 1) / 4 - (yoe + 1) / 100) ∧
    doy + (365 * yoe + yoe / 4 - yoe / 100) < 146097 ∧
    days + 306 = era * 146097 + doy + (365 * yoe + yoe / 4 - yoe / 100) ∧
    monthIndex (dateOfDay days) = 12 * (yoe + era * 400) + mp + 2 := by
  obtain ⟨doe, hdoe⟩ : ∃ doe, doe = (days + 306) % 146097 := ⟨_, rfl⟩
  obtain ⟨yoe, hyoe⟩ : ∃ yoe,
    (doe - doe / 1460 + doe / 36524 - doe / 146096) / 365 = yoe := ⟨_, rfl⟩
  have h₀ : 0 ≤ doe := by omega
  have h₁ : doe < 146097 := by omega
  have hlt := dayOfYear_lt h₀ h₁ hyoe
  obtain ⟨hfirst, hlast⟩ := dayOfYear_bounds h₀ h₁ hyoe
  have hyoe₀ : 0 ≤ yoe ∧ yoe < 400 := by omega
  have hindex : monthIndex (dateOfDay days) = 12 * (yoe + (days + 306) / 146097 * 400) +
      (5 * (doe - (365 * yoe + yoe / 4 - yoe / 100)) + 2) / 153 + 2 := by
    simp only [monthIndex, dateOfDay, ← hdoe, hyoe]
    clear hyoe hlt
    split_ifs <;> omega
  clear hyoe
  refine ⟨(days + 306) / 146097, yoe, _, doe - (365 * yoe + yoe / 4 - yoe / 100), hyoe₀.1, hyoe₀.2,
    ?_, ?_, rfl, sub_nonneg.2 hfirst, ?_, ?_, ?_, hindex⟩ <;> omega

theorem mem_month (days : ℤ) : firstOfMonth (monthIndex (dateOfDay days)) ≤ days ∧
    days < firstOfMonth (monthIndex (dateOfDay days) + 1) := by
  obtain ⟨era, yoe, mp, doy, h₀, h₁, hm₀, hm₁, hmp, hdoy, hyear, hera, hdays, hindex⟩ :=
    monthIndex_dateOfDay days
  rw [hindex]
  refine ⟨?_, ?_⟩
  · rw [firstOfMonth_march era h₀ h₁ hm₀ hm₁]
    omega
  · rw [firstOfMonth_succ era h₀ h₁ hm₀ hm₁]
    split_ifs with hlast hyoe
    · omega
    · have := hyear hyoe
      omega
    · omega

/-- **A day lies in the month of its date**, and in no other. -/
theorem mem_month_iff {days index : ℤ} :
    firstOfMonth index ≤ days ∧ days < firstOfMonth (index + 1) ↔
      monthIndex (dateOfDay days) = index := by
  obtain ⟨hfirst, hlast⟩ := mem_month days
  constructor
  · rintro ⟨h₀, h₁⟩
    have hle := firstOfMonth_strictMono.lt_iff_lt.1 (h₀.trans_lt hlast)
    have hge := firstOfMonth_strictMono.lt_iff_lt.1 (hfirst.trans_lt h₁)
    omega
  · rintro rfl
    exact ⟨hfirst, hlast⟩

/-- The days of a month of a year. -/
theorem mem_month_date {days year month : ℤ} (h₀ : 1 ≤ month) (h₁ : month ≤ 12) :
    dayOfDate ⟨year, month, 1⟩ ≤ days ∧ days < firstOfMonth (12 * year + (month - 1) + 1) ↔
      (dateOfDay days).year = year ∧ (dateOfDay days).month = month := by
  have hmonth := dateOfDay_month days
  rw [← firstOfMonth_date h₀ h₁, mem_month_iff, monthIndex]
  omega

end Aggregator.Go
